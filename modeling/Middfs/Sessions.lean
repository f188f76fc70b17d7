import Middfs.PollSet

/-!
# Sessions

An entry of the array together with the events in the log that belong to it.
What holds of every session can depend on what the system does for it and on
the state of the handlers; `Sessionwise` says what a step has to keep, and
`Sessionwise.runs` is the run lemma.
-/

set_option autoImplicit false

namespace Middfs

open Runs

/-! ## The events of an entry -/

def eventsAt (index : Nat) (log : List (Nat × Event)) : List Event :=
  (log.filter fun entry => entry.1 == index).map Prod.snd

theorem eventsAt_append (index : Nat) (log more : List (Nat × Event)) :
    eventsAt index (log ++ more) = eventsAt index log ++ eventsAt index more := by
  rw [eventsAt, List.filter_append, List.map_append]
  rfl

theorem eventsAt_tagged (index : Nat) (events : List Event) :
    eventsAt index (tagged index events) = events := by
  induction events with
  | nil => rfl
  | cons event events ih =>
      have one : eventsAt index (tagged index (event :: events)) =
          event :: eventsAt index (tagged index events) := by
        simp only [eventsAt, tagged, List.map_cons, List.filter_cons, beq_self_eq_true, if_true]
      rw [one, ih]

theorem eventsAt_other {index other : Nat} (differs : other ≠ index) (events : List Event) :
    eventsAt index (tagged other events) = [] := by
  induction events with
  | nil => rfl
  | cons event events ih =>
      have none_ : eventsAt index (tagged other (event :: events)) =
          eventsAt index (tagged other events) := by
        simp only [eventsAt, tagged, List.map_cons, List.filter_cons, beq_eq_false_iff_ne.mpr differs,
          Bool.false_eq_true, if_false]
      rw [none_, ih]

theorem eventsAt_own (index : Nat) (log : List (Nat × Event)) (events : List Event) :
    eventsAt index (log ++ tagged index events) = eventsAt index log ++ events := by
  rw [eventsAt_append, eventsAt_tagged]

theorem eventsAt_others {index other : Nat} (differs : other ≠ index) (log : List (Nat × Event))
    (events : List Event) : eventsAt other (log ++ tagged index events) = eventsAt other log := by
  rw [eventsAt_append, eventsAt_other (Ne.symm differs), List.append_nil]

/-- Of the descriptors that a poll closes, those of one entry. -/
theorem eventsAt_closedBy (first index : Nat) (checked : List (Sockinfo × List Int)) :
    eventsAt (first + index) (closedBy first checked) =
      match checked[index]? with
      | some entry => entry.2.map .closed
      | none => [] := by
  induction checked generalizing first index with
  | nil => rfl
  | cons entry checked ih =>
      obtain ⟨info, fds⟩ := entry
      rw [closedBy, eventsAt_append]
      cases index with
      | zero =>
          have later : ∀ index, eventsAt first (closedBy (first + 1 + index) checked) = [] := by
            clear ih
            induction checked with
            | nil => exact fun _ => rfl
            | cons entry checked ih =>
                intro index
                rw [closedBy, eventsAt_append, eventsAt_other (by omega)]
                exact ih (index + 1)
          rw [Nat.add_zero, eventsAt_tagged, later 0, List.append_nil]
          rfl
      | succ index =>
          rw [eventsAt_other (by omega), List.nil_append, show first + (index + 1) = first + 1 + index by omega,
            ih (first + 1) index]
          rfl

/-! ## What steps have to keep -/

/-- What the system is expected to do: when it reports what is ready, when a
connection is added to the array, and when an entry is handled. -/
structure Expected (κ : Type) where
  polls : Option (Nat → Revents) → Prop
  accepts : Calls → Socks → Prop
  handles : Nat → List Event → Calls → Sockinfo → κ → Prop

def Expected.Meets {κ : Type} (expected : Expected κ) (moment : Moment) (running : Running κ) : Prop :=
  match running.left with
  | 0 => expected.polls moment.ready
  | _ + 1 => ∀ info, running.server.socks.sockinfos[running.index]? = some info →
      (info.type = .mfdLstn → expected.accepts moment.calls running.server.socks) ∧
        (info.type = .mfdPktIn → expected.handles running.index
          (eventsAt running.index running.server.log) moment.calls info running.server.state)

/-- `P` holds of every session, `S` of the state of the handlers, and `idle` of
what was done for entries that do not exist yet. -/
structure Sessionwise {κ : Type} (hi : HandlerInfo κ) (expected : Expected κ) (S : κ → Prop)
    (P : Nat → List Event → Sockinfo → Prop) (idle : List Event → Prop) : Prop where
  sound : ∀ index events info, P index events info → info.Sound
  accepted : ∀ index events (fd : Nat), idle events → P index (events ++ [.accepted fd]) (.accepted fd)
  refused : ∀ events calls (socks : Socks) (fd : Nat), expected.accepts calls socks →
    socksAdd calls.realloc (.accepted fd) socks = none → idle events →
    idle (events ++ [.accepted fd, .closed fd])
  slots : ∀ index events info info', P index events info → SameButSlots info info' →
    P index events info'
  polled : ∀ index events info ready checked, P index events info → expected.polls (some ready) →
    PolledTo ready info checked → P index (events ++ checked.2.map .closed) checked.1
  listening : ∀ index events info, P index events info → info.type = .mfdLstn →
    P index (events ++ info.held.map .closed) info.deleted
  event : ∀ index events calls info state handled, P index events info → S state →
    info.type = .mfdPktIn → expected.handles index events calls info state →
    handlePktEvent hi calls info state = .ok handled →
    S handled.state ∧ (handled.status ≠ .hsDel → P index (events ++ handled.events) handled.info) ∧
      (handled.status = .hsDel →
        P index (events ++ handled.events ++ handled.info.held.map .closed) handled.info.deleted)

structure Sessions {κ : Type} (S : κ → Prop) (P : Nat → List Event → Sockinfo → Prop)
    (idle : List Event → Prop) (server : Server κ) : Prop where
  state : S server.state
  entries : ∀ index info, server.socks.sockinfos[index]? = some info →
    P index (eventsAt index server.log) info
  beyond : ∀ index, server.socks.count ≤ index → idle (eventsAt index server.log)

section Runs
variable {κ : Type} {hi : HandlerInfo κ} {expected : Expected κ} {S : κ → Prop}
variable {P : Nat → List Event → Sockinfo → Prop} {idle : List Event → Prop}
variable (each : Sessionwise hi expected S P idle) (both : hi.Turns) {server : Server κ}

include each

theorem Sessionwise.poll {calloc goesOn : Bool} {ready : Option (Nat → Revents)} {server' : Server κ}
    (sessions : Sessions S P idle server) (expects : expected.polls ready)
    (polled : pollAll calloc ready server = .ok (server', goesOn)) : Sessions S P idle server' := by
  have sound : ∀ info ∈ server.socks.sockinfos, info.Sound := by
    intro info member
    obtain ⟨index, found⟩ := List.mem_iff_getElem?.mp member
    exact each.sound index _ info (sessions.entries index info found)
  obtain ⟨infos', checked, done, same, _, reported⟩ := socksPoll_polledTo server.polls calloc ready
    (fun info member => (sound info member).fitting) fun info member => (sound info member).unreleased
  rw [pollAll, done] at polled
  cases checked with
  | none =>
      cases polled
      refine ⟨sessions.state, fun index info' found => ?_, fun index outside => ?_⟩
      · obtain ⟨info, before, slots⟩ := getElem?_of_forall₂ same found
        exact each.slots index _ info info' (sessions.entries index info before) slots
      · apply sessions.beyond index
        rw [Socks.count, same.length_eq]
        exact outside
  | some entries =>
      cases polled
      obtain ⟨reports, rfl, entriesOf⟩ := reported entries rfl
      have closes : ∀ index, eventsAt index (server.log ++ closedBy 0 entries) =
          eventsAt index server.log ++
            match entries[index]? with
            | some entry => entry.2.map .closed
            | none => [] := by
        intro index
        have later := eventsAt_closedBy 0 index entries
        rw [Nat.zero_add] at later
        rw [eventsAt_append, later]
      refine ⟨sessions.state, fun index info' found => ?_, fun index outside => ?_⟩
      · have mapped : (entries.map Prod.fst)[index]? = some info' := found
        rw [List.getElem?_map] at mapped
        obtain ⟨entry, among, rfl⟩ := Option.map_eq_some_iff.mp mapped
        obtain ⟨info, before, polledTo⟩ := getElem?_of_forall₂ entriesOf among
        show P index (eventsAt index (server.log ++ closedBy 0 entries)) entry.1
        rw [closes, among]
        exact each.polled index _ info reports entry (sessions.entries index info before) expects
          polledTo
      · have inside : entries.length ≤ index := by
          have same : (entries.map Prod.fst).length ≤ index := outside
          rwa [List.length_map] at same
        show idle (eventsAt index (server.log ++ closedBy 0 entries))
        rw [closes, List.getElem?_eq_none inside, List.append_nil]
        apply sessions.beyond index
        rw [Socks.count, entriesOf.length_eq]
        exact inside

omit each in
theorem Sessions.after {index : Nat} {entry : Sockinfo} {state : κ} {events : List Event}
    (sessions : Sessions S P idle server) (inside : index < server.socks.count) (good : S state)
    (holds : P index (eventsAt index server.log ++ events) entry) :
    Sessions S P idle (server.after index entry state events) := by
  refine ⟨good, fun other info found => ?_, fun other outside => ?_⟩
  · have changed : (server.socks.sockinfos.set index entry)[other]? = some info := found
    show P other (eventsAt other (server.log ++ tagged index events)) info
    by_cases same : other = index
    · subst same
      rw [List.getElem?_set_self inside] at changed
      cases changed
      rw [eventsAt_own]
      exact holds
    · rw [List.getElem?_set_ne (Ne.symm same)] at changed
      rw [eventsAt_others same]
      exact sessions.entries other info changed
  · have beyond : (server.socks.sockinfos.set index entry).length ≤ other := outside
    rw [List.length_set] at beyond
    show idle (eventsAt other (server.log ++ tagged index events))
    have differs : other ≠ index := by
      unfold Socks.count at inside
      omega
    rw [eventsAt_others differs]
    exact sessions.beyond other beyond

include both in
theorem Sessionwise.handle {calls : Calls} {index : Nat} {goesOn : Bool} {server' : Server κ}
    (sessions : Sessions S P idle server)
    (expects : ∀ info, server.socks.sockinfos[index]? = some info →
      (info.type = .mfdLstn → expected.accepts calls server.socks) ∧
        (info.type = .mfdPktIn →
          expected.handles index (eventsAt index server.log) calls info server.state))
    (done : handleAt hi calls index server = .ok (server', goesOn)) : Sessions S P idle server' := by
  cases handleAt_cases done with
  | kept info handled _ found attended status =>
      have inside : index < server.socks.count := (List.getElem?_eq_some_iff.mp found).1
      have holds := sessions.entries index info found
      have nothing : P index (eventsAt index server.log ++ []) info := by
        rw [List.append_nil]
        exact holds
      cases attended with
      | shut _ => exact sessions.after inside sessions.state nothing
      | quiet _ => exact sessions.after inside sessions.state nothing
      | refused _ _ => exact absurd rfl status
      | packet _ type event =>
          obtain ⟨good, kept, _⟩ := each.event index _ calls info server.state handled holds
            sessions.state type ((expects info found).2 type) event
          exact sessions.after inside good (kept status)
  | deleted info handled gone fds found attended status deletes =>
      have inside : index < server.socks.count := (List.getElem?_eq_some_iff.mp found).1
      have holds := sessions.entries index info found
      cases attended with
      | shut _ => cases status
      | quiet _ => cases status
      | refused type _ =>
          obtain ⟨inUnreleased, outUnreleased⟩ := (each.sound index _ info holds).unreleased (by
            rw [type]
            intro no
            cases no)
          rw [sockinfoDelete_eq inUnreleased outUnreleased] at deletes
          cases deletes
          exact sessions.after inside sessions.state (each.listening index _ info holds type)
      | packet _ type event =>
          obtain ⟨good, _, dropped⟩ := each.event index _ calls info server.state handled holds
            sessions.state type ((expects info found).2 type) event
          have deletable := ((handlePktEvent_stepped both event).sound type
            (each.sound index _ info holds)).2 status
          rw [sockinfoDelete_eq deletable.inUnreleased deletable.outUnreleased] at deletes
          cases deletes
          have gone := dropped status
          rw [List.append_assoc] at gone
          exact sessions.after inside good gone
  | added info fd socks found type accept added =>
      have grown := socksAdd_sockinfos added
      refine ⟨sessions.state, fun other entry held => ?_, fun other outside => ?_⟩
      · have among : (server.socks.sockinfos ++ [Sockinfo.accepted fd])[other]? = some entry :=
          grown ▸ held
        show P other (eventsAt other (server.log ++ tagged server.socks.count [.accepted fd])) entry
        by_cases old : other < server.socks.count
        · rw [List.getElem?_append_left old] at among
          rw [eventsAt_others (Nat.ne_of_lt old)]
          exact sessions.entries other entry among
        · rw [List.getElem?_append_right (Nat.le_of_not_lt old)] at among
          rw [List.getElem?_singleton] at among
          split_ifs at among with first
          cases among
          have same : other = server.socks.count := by
            unfold Socks.count at old ⊢
            omega
          subst same
          rw [eventsAt_own]
          exact each.accepted _ _ fd (sessions.beyond _ (Nat.le_refl _))
      · have more : socks.sockinfos.length ≤ other := outside
        rw [grown, List.length_append, List.length_singleton] at more
        show idle (eventsAt other (server.log ++ tagged server.socks.count [.accepted fd]))
        have differs : other ≠ server.socks.count := by
          unfold Socks.count
          omega
        rw [eventsAt_others differs]
        apply sessions.beyond other
        unfold Socks.count
        omega
  | full info fd gone fds found type accept refused deletes =>
      rw [sockinfoDelete_eq rfl rfl] at deletes
      cases deletes
      rw [List.append_assoc, ← tagged_append, Sockinfo.held_accepted]
      refine ⟨sessions.state, fun other entry held => ?_, fun other outside => ?_⟩
      · have inside : other < server.socks.count := (List.getElem?_eq_some_iff.mp held).1
        show P other (eventsAt other (server.log ++ tagged server.socks.count _)) entry
        rw [eventsAt_others (Nat.ne_of_lt inside)]
        exact sessions.entries other entry held
      · show idle (eventsAt other (server.log ++ tagged server.socks.count _))
        have before := sessions.beyond other outside
        by_cases same : other = server.socks.count
        · subst same
          rw [eventsAt_own]
          exact each.refused _ calls server.socks fd ((expects info found).1 type) refused before
        · rw [eventsAt_others same]
          exact before

include both in
/-- The run lemma. -/
theorem Sessionwise.runs {start running : Running κ}
    (run : Reached (advance hi) expected.Meets start running)
    (starts : Sessions S P idle start.server) : Sessions S P idle running.server := by
  refine @Reached.invariant _ _ _ _ _ _ _
    (fun running : Running κ => Sessions S P idle running.server) run starts ?_
  intro moment running next sessions meets advanced
  unfold advance at advanced
  unfold Expected.Meets at meets
  split at advanced
  · rename_i none_
    rw [none_] at meets
    split at advanced
    · cases advanced
    · rename_i polled
      cases advanced
      exact each.poll sessions meets polled
  · rename_i left more
    rw [more] at meets
    split at advanced
    · cases advanced
    · rename_i handled
      cases advanced
      exact each.handle both sessions meets handled

omit each in
theorem sessions_started {realloc : Nat → Bool} {servsock : Nat} {state : κ}
    (started : serverStart realloc servsock state = .ok (some server)) (good : S state)
    (holds : P 0 [.created servsock] (.listens servsock)) (unused : idle []) :
    Sessions S P idle server := by
  have starts := serverStart_starts started
  refine ⟨starts.state ▸ good, fun index info found => ?_, fun index outside => ?_⟩
  · rw [starts.entries, List.getElem?_singleton] at found
    split_ifs at found with first
    cases found
    rw [starts.log, first]
    exact holds
  · rw [Socks.count, starts.entries] at outside
    have differs : index ≠ 0 := Nat.pos_iff_ne_zero.mp outside
    have nothing : eventsAt index (tagged 0 [.created servsock]) = [] :=
      eventsAt_other (Ne.symm differs) _
    have same : server.log = tagged 0 [.created servsock] := starts.log
    rw [same, nothing]
    exact unused

end Runs
end Middfs
