import Middfs.Sessions

/-!
# Histories

What a step makes of every entry, and the packets that were handed to the
handlers in the course of a run.  What holds of a session can depend on the
packets that were read in it and on what the state of the handlers was then:
`Historic` says what a step has to keep.
-/

set_option autoImplicit false

namespace Middfs

open Runs

/-! ## Packets that are handed over -/

/-- A packet that was read at the entry `index`, and the state in which `rd_fin`
got it. -/
structure Delivery (κ : Type) where
  index : Nat
  calls : Calls
  info : Sockinfo
  pkt : Packet
  state : κ

/-- The packet that `handle_pkt_event` hands over, if it reads all of one, and
what the entry is then. -/
def handedOver (calls : Calls) (info : Sockinfo) : Option (Sockinfo × Packet) :=
  if info.revents ≠ Revents.none ∧ info.state.watchesIn = true then
    match receivePacket calls info with
    | .ok (read, _, .inr pkt) => some (read, pkt)
    | _ => none
  else none

section Deliveries
variable {κ : Type}

def deliveredAt (calls : Calls) (index : Nat) (info : Sockinfo) (state : κ) : List (Delivery κ) :=
  if info.type = .mfdPktIn then
    match handedOver calls info with
    | none => []
    | some (read, pkt) => [⟨index, calls, read, pkt, state⟩]
  else []

/-- What is handed over in a step. -/
def deliveries (moment : Moment) (running : Running κ) : List (Delivery κ) :=
  match running.left, running.server.socks.sockinfos[running.index]? with
  | _ + 1, some info => deliveredAt moment.calls running.index info running.server.state
  | _, _ => []

def deliveredTo (index : Nat) (history : List (Delivery κ)) : List (Delivery κ) :=
  history.filter fun delivery => delivery.index == index

@[simp] theorem deliveredTo_append (index : Nat) (history more : List (Delivery κ)) :
    deliveredTo index (history ++ more) = deliveredTo index history ++ deliveredTo index more :=
  List.filter_append ..

@[simp] theorem deliveredTo_nil (index : Nat) : deliveredTo index ([] : List (Delivery κ)) = [] := rfl

theorem deliveredTo_own (calls : Calls) (index : Nat) (info : Sockinfo) (state : κ) :
    deliveredTo index (deliveredAt calls index info state) = deliveredAt calls index info state := by
  unfold deliveredAt
  split_ifs
  · split
    · rfl
    · simp only [deliveredTo, List.filter_cons, beq_self_eq_true, if_true, List.filter_nil]
  · rfl

theorem deliveredTo_other {index other : Nat} (differs : other ≠ index) (calls : Calls)
    (info : Sockinfo) (state : κ) : deliveredTo other (deliveredAt calls index info state) = [] := by
  unfold deliveredAt
  split_ifs
  · split
    · rfl
    · simp only [deliveredTo, List.filter_cons, beq_eq_false_iff_ne.mpr differs.symm, Bool.false_eq_true,
        if_false, List.filter_nil]
  · rfl

theorem deliveredAt_of_type {info : Sockinfo} (type : info.type ≠ .mfdPktIn) (calls : Calls)
    (index : Nat) (state : κ) : deliveredAt calls index info state = [] := if_neg type

end Deliveries

/-- What an event at an entry comes to, with the packet that is handed over. -/
inductive Recounted {κ : Type} (hi : HandlerInfo κ) (calls : Calls) (info : Sockinfo) (state : κ) :
    Option (Sockinfo × Packet) → Handled κ → Prop where
  | quiet : Recounted hi calls info state none ⟨.hsSuc, info, state, []⟩
  | nothing (buf : Buffer) : info.state.watchesIn = true → Kept info.inEnd.buf buf →
      Recounted hi calls info state none ⟨.hsDel, info.withIn buf, state, []⟩
  | rejected (buf : Buffer) (bytes : List UInt8) (s : Cursor Packet) : info.state.watchesIn = true →
      Gathered calls info buf bytes s → s.err ≠ 0 →
      Recounted hi calls info state none
        ⟨.hsDel, info.withIn buf, state, [.received info.inEnd.fd bytes]⟩
  | unfinished (buf : Buffer) (bytes : List UInt8) (s : Cursor Packet) : info.state.watchesIn = true →
      Gathered calls info buf bytes s → s.err = 0 → buf.used < s.used →
      Recounted hi calls info state none
        ⟨.hsSuc, info.withIn buf, state, [.received info.inEnd.fd bytes]⟩
  | complete (buf : Buffer) (bytes : List UInt8) (s : Cursor Packet) (after : Handled κ) :
      info.state.watchesIn = true → Gathered calls info buf bytes s → s.err = 0 → s.used ≤ buf.used →
      hi.rdFin calls (info.withIn (bufferShift buf s.used)) s.obj state = .ok after →
      Recounted hi calls info state (some (info.withIn (bufferShift buf s.used), s.obj))
        { after with events := .received info.inEnd.fd bytes :: after.events }
  | writes (handled : Handled κ) : info.state.watchesIn = false →
      WriteEvent hi calls info state handled → Recounted hi calls info state none handled

theorem handlePktEvent_recounted {κ : Type} {hi : HandlerInfo κ} {calls : Calls} {info : Sockinfo}
    {state : κ} {handled : Handled κ} (done : handlePktEvent hi calls info state = .ok handled) :
    Recounted hi calls info state (handedOver calls info) handled := by
  have reads : info.revents ≠ Revents.none → info.state.watchesIn = true →
      handlePktRd hi calls info state = .ok handled →
      Recounted hi calls info state (handedOver calls info) handled := by
    intro happened watches done
    rw [handedOver, if_pos ⟨happened, watches⟩]
    unfold handlePktRd at done
    cases received : receivePacket calls info with
    | error trap =>
        rw [received] at done
        cases done
    | ok result =>
        rw [received] at done
        cases receivePacket_cases received with
        | nothing buf kept =>
            cases done
            exact .nothing buf watches kept
        | rejected buf bytes s gathered failing =>
            cases done
            exact .rejected buf bytes s watches gathered failing
        | unfinished buf bytes s gathered clean short =>
            cases done
            exact .unfinished buf bytes s watches gathered clean short
        | complete buf bytes s gathered clean within =>
            cases finished : hi.rdFin calls (info.withIn (bufferShift buf s.used)) s.obj state with
            | error trap =>
                simp only [finished] at done
                cases done
            | ok after =>
                simp only [finished] at done
                cases done
                exact .complete buf bytes s after watches gathered clean within finished
  have writes : info.state.watchesIn = false → handlePktWr hi calls info state = .ok handled →
      Recounted hi calls info state (handedOver calls info) handled := by
    intro watches done
    rw [handedOver, if_neg fun both => by rw [watches] at both; cases both.2]
    exact .writes handled watches (handlePktWr_cases done)
  unfold handlePktEvent at done
  split_ifs at done with quiet
  · cases done
    rw [handedOver, if_neg fun both => both.1 quiet]
    exact .quiet
  cases current : info.state <;> simp only [current] at done
  case mssReqrd => exact reads quiet (by rw [current]; rfl) done
  case mssRspfwd => exact reads quiet (by rw [current]; rfl) done
  case mssRspwr => exact writes (by rw [current]; rfl) done
  case mssReqfwd => exact writes (by rw [current]; rfl) done
  all_goals cases done

/-! ## What a step makes of the entries -/

section Steps
variable {κ : Type} (hi : HandlerInfo κ) (moment : Moment) (running : Running κ)

/-- The events of an entry, the packets it handed over, and what it is then. -/
inductive EntryStep (index : Nat) (info : Sockinfo) :
    List Event → List (Delivery κ) → Sockinfo → Prop where
  | kept (info' : Sockinfo) : SameButSlots info info' →
      (0 < running.left → index = running.index → info.type ≠ .mfdPktIn) →
      EntryStep index info [] [] info'
  | polled (ready : Nat → Revents) (checked : Sockinfo × List Int) : running.left = 0 →
      moment.ready = some ready → PolledTo ready info checked →
      EntryStep index info (checked.2.map .closed) [] checked.1
  | handled (handled : Handled κ) : 0 < running.left → index = running.index → info.type = .mfdPktIn →
      handlePktEvent hi moment.calls info running.server.state = .ok handled →
      handled.status ≠ .hsDel →
      EntryStep index info handled.events
        (deliveredAt moment.calls index info running.server.state) handled.info
  | dropped (handled : Handled κ) : 0 < running.left → index = running.index → info.type = .mfdPktIn →
      handlePktEvent hi moment.calls info running.server.state = .ok handled →
      handled.status = .hsDel →
      EntryStep index info (handled.events ++ handled.info.held.map .closed)
        (deliveredAt moment.calls index info running.server.state) handled.info.deleted
  | deafened : 0 < running.left → index = running.index → info.type = .mfdLstn →
      moment.calls.accept = none → EntryStep index info (info.held.map .closed) [] info.deleted

inductive ArrayStep (next : Running κ) : Prop where
  | same : next.server.socks.count = running.server.socks.count →
      (∀ index, running.server.socks.count ≤ index →
        eventsAt index next.server.log = eventsAt index running.server.log) → ArrayStep next
  | added (info : Sockinfo) (fd : Nat) : 0 < running.left →
      running.server.socks.sockinfos[running.index]? = some info → info.type = .mfdLstn →
      moment.calls.accept = some fd →
      next.server.socks.sockinfos = running.server.socks.sockinfos ++ [.accepted fd] →
      (∀ index, running.server.socks.count ≤ index →
        eventsAt index next.server.log = eventsAt index running.server.log ++
          if index = running.server.socks.count then [.accepted fd] else []) → ArrayStep next
  | full (info : Sockinfo) (fd : Nat) : 0 < running.left →
      running.server.socks.sockinfos[running.index]? = some info → info.type = .mfdLstn →
      moment.calls.accept = some fd →
      socksAdd moment.calls.realloc (.accepted fd) running.server.socks = none →
      next.server.socks.sockinfos = running.server.socks.sockinfos → next.left = 0 →
      (∀ index, running.server.socks.count ≤ index →
        eventsAt index next.server.log = eventsAt index running.server.log ++
          if index = running.server.socks.count then [.accepted fd, .closed fd] else []) →
      ArrayStep next

inductive StateStep (next : Running κ) : Prop where
  | kept : next.server.state = running.server.state → deliveries moment running = [] → StateStep next
  | handled (info : Sockinfo) (handled : Handled κ) : 0 < running.left →
      running.server.socks.sockinfos[running.index]? = some info → info.type = .mfdPktIn →
      handlePktEvent hi moment.calls info running.server.state = .ok handled →
      deliveries moment running =
        deliveredAt moment.calls running.index info running.server.state →
      next.server.state = handled.state → StateStep next

structure StepsTo (next : Running κ) : Prop where
  entries : ∀ index info, running.server.socks.sockinfos[index]? = some info →
    ∃ events info', next.server.socks.sockinfos[index]? = some info' ∧
      eventsAt index next.server.log = eventsAt index running.server.log ++ events ∧
      EntryStep hi moment running index info events (deliveredTo index (deliveries moment running)) info'
  array : ArrayStep moment running next
  state : StateStep hi moment running next

section Advance
variable {hi moment running}

theorem StepsTo.count_le {next : Running κ} (steps : StepsTo hi moment running next) :
    running.server.socks.count ≤ next.server.socks.count := by
  cases steps.array with
  | same count _ => exact count.ge
  | added _ _ _ _ _ _ grown _ =>
      rw [Socks.count, Socks.count, grown, List.length_append]
      exact Nat.le_add_right _ _
  | full _ _ _ _ _ _ _ same _ _ =>
      rw [Socks.count, Socks.count, same]

theorem StepsTo.fresh {next : Running κ} (steps : StepsTo hi moment running next) {index : Nat}
    {info : Sockinfo} (outside : running.server.socks.count ≤ index)
    (found : next.server.socks.sockinfos[index]? = some info) :
    ∃ fd : Nat, info = .accepted fd ∧
      eventsAt index next.server.log = eventsAt index running.server.log ++ [.accepted fd] := by
  have bound := (List.getElem?_eq_some_iff.mp found).1
  cases steps.array with
  | same count _ => exact absurd (count ▸ bound) (Nat.not_lt_of_le outside)
  | full _ _ _ _ _ _ _ same _ _ =>
      rw [same] at bound
      exact absurd bound (Nat.not_lt_of_le outside)
  | added _ fd _ _ _ _ grown logged =>
      rw [grown, List.getElem?_append_right outside, List.getElem?_singleton] at found
      split_ifs at found with first
      cases found
      have last : index = running.server.socks.count := by
        unfold Socks.count at outside ⊢
        omega
      refine ⟨fd, rfl, ?_⟩
      rw [logged index outside, if_pos last]

theorem deliveries_poll (polls : running.left = 0) : deliveries moment running = [] := by
  unfold deliveries
  rw [polls]

theorem deliveries_handle {left : Nat} {info : Sockinfo} (more : running.left = left + 1)
    (found : running.server.socks.sockinfos[running.index]? = some info) :
    deliveries moment running = deliveredAt moment.calls running.index info running.server.state := by
  unfold deliveries
  rw [more, found]

theorem getElem?_of_forall₂_left {α β : Type} {R : α → β → Prop} {as : List α} {bs : List β}
    (related : List.Forall₂ R as bs) {index : Nat} {a : α} (found : as[index]? = some a) :
    ∃ b, bs[index]? = some b ∧ R a b := by
  obtain ⟨b, among, related⟩ := getElem?_of_forall₂ related.flip found
  exact ⟨b, among, related⟩

theorem eventsAt_closed {checked : List (Sockinfo × List Int)} {index : Nat}
    {entry : Sockinfo × List Int} (found : checked[index]? = some entry) :
    eventsAt index (closedBy 0 checked) = entry.2.map .closed := by
  have closes := eventsAt_closedBy 0 index checked
  rw [Nat.zero_add, found] at closes
  exact closes

theorem eventsAt_unclosed {checked : List (Sockinfo × List Int)} {index : Nat}
    (beyond : checked.length ≤ index) : eventsAt index (closedBy 0 checked) = [] := by
  have closes := eventsAt_closedBy 0 index checked
  rw [Nat.zero_add, List.getElem?_eq_none beyond] at closes
  exact closes

theorem pollAll_stepsTo (sound : ∀ info ∈ running.server.socks.sockinfos, info.Sound)
    (polls : running.left = 0) {server' : Server κ} {goesOn : Bool} (left : Nat)
    (polled : pollAll moment.calloc moment.ready running.server = .ok (server', goesOn)) :
    StepsTo hi moment running ⟨server', 0, left⟩ := by
  obtain ⟨infos', checked, done, same, _, reported⟩ := socksPoll_polledTo running.server.polls
    moment.calloc moment.ready (fun info member => (sound info member).fitting)
    fun info member => (sound info member).unreleased
  rw [pollAll, done] at polled
  have nothing := @deliveries_poll κ moment running polls
  cases checked with
  | none =>
      cases polled
      refine ⟨fun index info found => ?_, .same same.length_eq.symm fun _ _ => rfl,
        .kept rfl nothing⟩
      obtain ⟨info', among, slots⟩ := getElem?_of_forall₂_left same found
      rw [nothing]
      exact ⟨[], info', among, (List.append_nil _).symm,
        .kept info' slots fun positive => absurd polls positive.ne'⟩
  | some entries =>
      cases polled
      obtain ⟨reports, ready, entriesOf⟩ := reported entries rfl
      have length : (entries.map Prod.fst).length = running.server.socks.count := by
        rw [List.length_map, ← entriesOf.length_eq]
        rfl
      refine ⟨fun index info found => ?_, .same length fun index beyond => ?_, .kept rfl nothing⟩
      · obtain ⟨entry, among, polledTo⟩ := getElem?_of_forall₂_left entriesOf found
        rw [nothing]
        refine ⟨_, entry.1, ?_, ?_, .polled reports entry polls ready polledTo⟩
        · show (entries.map Prod.fst)[index]? = some entry.1
          rw [List.getElem?_map, among]
          rfl
        · show eventsAt index (running.server.log ++ closedBy 0 entries) = _
          rw [eventsAt_append, eventsAt_closed among]
      · show eventsAt index (running.server.log ++ closedBy 0 entries) = _
        rw [eventsAt_append, eventsAt_unclosed (entriesOf.length_eq ▸ beyond), List.append_nil]

theorem Server.after_entries (server : Server κ) {index : Nat} {old entry : Sockinfo} {state : κ}
    {events : List Event} (found : server.socks.sockinfos[index]? = some old) :
    (server.after index entry state events).socks.sockinfos[index]? = some entry ∧
      eventsAt index (server.after index entry state events).log =
        eventsAt index server.log ++ events ∧
      ∀ other, other ≠ index →
        (server.after index entry state events).socks.sockinfos[other]? =
          server.socks.sockinfos[other]? ∧
        eventsAt other (server.after index entry state events).log = eventsAt other server.log := by
  have inside := (List.getElem?_eq_some_iff.mp found).1
  refine ⟨List.getElem?_set_self inside, eventsAt_own index server.log events, fun other differs => ?_⟩
  exact ⟨List.getElem?_set_ne differs.symm, eventsAt_others differs server.log events⟩

/-- A step that replaces the entry it handles. -/
theorem stepsTo_after {left : Nat} (more : running.left = left + 1) {info entry : Sockinfo}
    {state : κ} {events : List Event} (index' left' : Nat)
    (found : running.server.socks.sockinfos[running.index]? = some info)
    (step : EntryStep hi moment running running.index info events
      (deliveredAt moment.calls running.index info running.server.state) entry)
    (became : StateStep hi moment running
      ⟨running.server.after running.index entry state events, index', left'⟩) :
    StepsTo hi moment running
      ⟨running.server.after running.index entry state events, index', left'⟩ := by
  obtain ⟨own, logged, others⟩ :=
    @Server.after_entries κ running.server running.index info entry state events found
  have handed := @deliveries_handle κ moment running left info more found
  refine ⟨fun other held found' => ?_, .same ?_ fun other beyond => ?_, became⟩
  · by_cases same : other = running.index
    · subst same
      rw [found] at found'
      cases found'
      rw [handed, deliveredTo_own]
      exact ⟨events, entry, own, logged, step⟩
    · obtain ⟨unchanged, unlogged⟩ := others other same
      rw [handed, deliveredTo_other same]
      exact ⟨[], held, unchanged.trans found', unlogged.trans (List.append_nil _).symm,
        .kept held (SameButSlots.refl held) fun _ here => absurd here same⟩
  · exact List.length_set
  · have inside := (List.getElem?_eq_some_iff.mp found).1
    exact (others other (Nat.ne_of_gt (Nat.lt_of_lt_of_le inside beyond))).2

theorem sockinfoIsopen_of_sound {info : Sockinfo} (sound : info.Sound) (type : info.type = .mfdPktIn) :
    sockinfoIsopen info = true := by
  have fitting := (fitting_packet type).mp sound.fitting
  simp only [sockinfoIsopen, sockendIsopen, Bool.or_eq_true, decide_eq_true_eq]
  cases state : info.state <;> simp only [state] at fitting
  case mssReqrd => exact Or.inl fitting.1
  case mssReqfwd => exact Or.inl fitting.1
  case mssRspfwd => exact Or.inl fitting.1
  case mssRspwr => exact Or.inr fitting.2

theorem entryStep_attended {left : Nat} (more : running.left = left + 1) {info : Sockinfo}
    {handled : Handled κ} (sound : info.Sound)
    (attended : Attended hi moment.calls info running.server.state (handled, none))
    (status : handled.status ≠ .hsDel) :
    EntryStep hi moment running running.index info handled.events
      (deliveredAt moment.calls running.index info running.server.state) handled.info := by
  have positive : 0 < running.left := more ▸ Nat.succ_pos left
  cases attended with
  | shut closed =>
      have type : info.type ≠ .mfdPktIn := by
        intro type
        rw [sockinfoIsopen_of_sound sound type] at closed
        cases closed
      rw [deliveredAt_of_type type]
      exact .kept info (SameButSlots.refl info) fun _ _ => type
  | packet _ type event => exact .handled handled positive rfl type event status
  | quiet type =>
      have listens : info.type ≠ .mfdPktIn := by
        rw [type]
        exact fun no => by cases no
      rw [deliveredAt_of_type listens]
      exact .kept info (SameButSlots.refl info) fun _ _ => listens
  | refused _ _ => exact absurd rfl status

theorem entryStep_deleted {left : Nat} (more : running.left = left + 1) {info : Sockinfo}
    {handled : Handled κ}
    (attended : Attended hi moment.calls info running.server.state (handled, none))
    (status : handled.status = .hsDel) :
    EntryStep hi moment running running.index info (handled.events ++ handled.info.held.map .closed)
      (deliveredAt moment.calls running.index info running.server.state) handled.info.deleted := by
  have positive : 0 < running.left := more ▸ Nat.succ_pos left
  cases attended with
  | shut _ => cases status
  | quiet _ => cases status
  | packet _ type event => exact .dropped handled positive rfl type event status
  | refused type accept =>
      rw [deliveredAt_of_type (by rw [type]; intro no; cases no)]
      exact .deafened positive rfl type accept

theorem stateStep_attended {left : Nat} (more : running.left = left + 1) {info entry : Sockinfo}
    {handled : Handled κ} {events : List Event} (sound : info.Sound)
    (found : running.server.socks.sockinfos[running.index]? = some info)
    (attended : Attended hi moment.calls info running.server.state (handled, none))
    (index' left' : Nat) :
    StateStep hi moment running
      ⟨running.server.after running.index entry handled.state events, index', left'⟩ := by
  have handed := @deliveries_handle κ moment running left info more found
  cases attended with
  | packet _ type event =>
      exact .handled info handled (more ▸ Nat.succ_pos left) found type event handed rfl
  | shut closed =>
      have type : info.type ≠ .mfdPktIn := by
        intro type
        rw [sockinfoIsopen_of_sound sound type] at closed
        cases closed
      exact .kept rfl (handed.trans (deliveredAt_of_type type _ _ _))
  | quiet type =>
      exact .kept rfl (handed.trans (deliveredAt_of_type (by rw [type]; intro no; cases no) _ _ _))
  | refused type _ =>
      exact .kept rfl (handed.trans (deliveredAt_of_type (by rw [type]; intro no; cases no) _ _ _))

theorem deletable_attended (both : hi.Turns) {calls : Calls} {info : Sockinfo} {state : κ}
    {handled : Handled κ} (sound : info.Sound)
    (attended : Attended hi calls info state (handled, none)) (status : handled.status = .hsDel) :
    handled.info.Deletable := by
  cases attended with
  | shut _ => cases status
  | quiet _ => cases status
  | packet _ type event => exact ((handlePktEvent_stepped both event).sound type sound).2 status
  | refused type _ => exact sound.deletable (by rw [type]; intro no; cases no)

theorem listening_at {info held : Sockinfo} {other : Nat}
    (found : running.server.socks.sockinfos[running.index]? = some info) (type : info.type = .mfdLstn)
    (here : other = running.index) (found' : running.server.socks.sockinfos[other]? = some held) :
    held.type = .mfdLstn := by
  subst here
  rw [found] at found'
  cases found'
  exact type

theorem handleAt_stepsTo (both : hi.Turns)
    (sound : ∀ info ∈ running.server.socks.sockinfos, info.Sound) {left : Nat}
    (more : running.left = left + 1) {server' : Server κ} {goesOn : Bool} (left' : Nat)
    (full : goesOn = false → left' = 0)
    (done : handleAt hi moment.calls running.index running.server = .ok (server', goesOn)) :
    StepsTo hi moment running ⟨server', running.index + 1, left'⟩ := by
  have positive : 0 < running.left := more ▸ Nat.succ_pos left
  cases handleAt_cases done with
  | kept info handled _ found attended status =>
      have whole := sound info (List.mem_of_getElem? found)
      exact stepsTo_after more _ _ found (entryStep_attended more whole attended status)
        (stateStep_attended more whole found attended _ _)
  | deleted info handled gone fds found attended status deletes =>
      have whole := sound info (List.mem_of_getElem? found)
      have deletable := deletable_attended both whole attended status
      rw [sockinfoDelete_eq deletable.inUnreleased deletable.outUnreleased] at deletes
      cases deletes
      exact stepsTo_after more _ _ found (entryStep_deleted more attended status)
        (stateStep_attended more whole found attended _ _)
  | added info fd socks found type accept added =>
      have grown := socksAdd_sockinfos added
      have nothing := @deliveries_handle κ moment running left info more found
      rw [deliveredAt_of_type (by rw [type]; intro no; cases no)] at nothing
      refine ⟨fun other held found' => ?_, ?_, .kept rfl nothing⟩
      · have old : other < running.server.socks.count := (List.getElem?_eq_some_iff.mp found').1
        rw [nothing]
        refine ⟨[], held, ?_, ?_, .kept held (SameButSlots.refl held) fun _ here => ?_⟩
        · show socks.sockinfos[other]? = some held
          rw [grown, List.getElem?_append_left old]
          exact found'
        · rw [List.append_nil]
          exact eventsAt_others (Nat.ne_of_lt old) running.server.log _
        · rw [listening_at found type here found']
          exact fun no => by cases no
      · refine .added info fd positive found type accept grown fun other _ => ?_
        split_ifs with same
        · rw [same]
          exact eventsAt_own _ running.server.log _
        · rw [List.append_nil]
          exact eventsAt_others same running.server.log _
  | full info fd gone fds found type accept refused deletes =>
      rw [sockinfoDelete_eq rfl rfl] at deletes
      cases deletes
      have nothing := @deliveries_handle κ moment running left info more found
      rw [deliveredAt_of_type (by rw [type]; intro no; cases no)] at nothing
      have logged : running.server.log ++ tagged running.server.socks.count [.accepted fd] ++
          tagged running.server.socks.count ((Sockinfo.accepted fd).held.map .closed) =
            running.server.log ++ tagged running.server.socks.count [.accepted fd, .closed fd] := by
        rw [List.append_assoc, ← tagged_append, Sockinfo.held_accepted]
        rfl
      refine ⟨fun other held found' => ?_, ?_, .kept rfl nothing⟩
      · have old : other < running.server.socks.count := (List.getElem?_eq_some_iff.mp found').1
        rw [nothing]
        refine ⟨[], held, found', ?_, .kept held (SameButSlots.refl held) fun _ here => ?_⟩
        · show eventsAt other (_ ++ _ ++ _) = _
          rw [logged, List.append_nil]
          exact eventsAt_others (Nat.ne_of_lt old) running.server.log _
        · rw [listening_at found type here found']
          exact fun no => by cases no
      · refine .full info fd positive found type accept refused rfl (full rfl) fun other _ => ?_
        show eventsAt other (_ ++ _ ++ _) = _
        rw [logged]
        split_ifs with same
        · rw [same]
          exact eventsAt_own _ running.server.log _
        · rw [List.append_nil]
          exact eventsAt_others same running.server.log _

/-- The step lemma. -/
theorem advance_stepsTo (both : hi.Turns)
    (sound : ∀ info ∈ running.server.socks.sockinfos, info.Sound) {next : Running κ}
    (advanced : advance hi moment running = .ok next) : StepsTo hi moment running next := by
  unfold advance at advanced
  split at advanced
  · rename_i polls
    split at advanced
    · cases advanced
    · rename_i polled
      cases advanced
      exact pollAll_stepsTo sound polls _ polled
  · rename_i left more
    split at advanced
    · cases advanced
    · rename_i server' goesOn handled
      cases advanced
      refine handleAt_stepsTo both sound more _ (fun stops => ?_) handled
      rw [stops]
      rfl

theorem deliveredTo_beyond {index : Nat} (beyond : running.server.socks.count ≤ index) :
    deliveredTo index (deliveries moment running) = [] := by
  unfold deliveries
  split
  · rename_i found
    have inside := (List.getElem?_eq_some_iff.mp found).1
    exact deliveredTo_other (Nat.ne_of_gt (Nat.lt_of_lt_of_le inside beyond)) _ _ _
  · rfl

end Advance
end Steps

/-! ## The state of the handlers -/

/-- Once a packet is written, nothing is done to the state. -/
def HandlerInfo.Settled {κ : Type} (hi : HandlerInfo κ) : Prop :=
  ∀ calls info state handled, hi.wrFin calls info state = .ok handled → handled.state = state

theorem Program.settled {κ : Type} (program : Program κ) : program.hi.Settled := by
  intro calls info state handled done
  cases program with
  | server lib =>
      cases serverWrFin_cases done with
      | request _ => rfl
      | response _ => rfl
      | unexpected => rfl
  | client conf os =>
      have finished : clientWrFin info state = .ok handled := done
      unfold clientWrFin at finished
      split_ifs at finished
      cases finished
      rfl

/-- The packets of the history were handed over one after the other, each in the
state that the one before left. -/
inductive Chained {κ : Type} (hi : HandlerInfo κ) (start : κ) : List (Delivery κ) → κ → Prop where
  | start : Chained hi start [] start
  | next (history : List (Delivery κ)) (delivery : Delivery κ) (after : Handled κ) :
      Chained hi start history delivery.state →
      hi.rdFin delivery.calls delivery.info delivery.pkt delivery.state = .ok after →
      Chained hi start (history ++ [delivery]) after.state

section Chains
variable {κ : Type} {hi : HandlerInfo κ}

theorem WriteEvent.state (settled : hi.Settled) {calls : Calls} {info : Sockinfo} {state : κ}
    {handled : Handled κ} (event : WriteEvent hi calls info state handled) : handled.state = state := by
  cases event with
  | failed _ _ => rfl
  | sent _ _ _ _ => rfl
  | drained buf _ _ _ _ finished => exact settled _ _ _ _ finished

/-- An event that hands no packet over leaves the state alone. -/
theorem state_of_recounted (settled : hi.Settled) {calls : Calls} {info : Sockinfo} {state : κ}
    {handled : Handled κ} (recounted : Recounted hi calls info state none handled) :
    handled.state = state := by
  cases recounted with
  | quiet => rfl
  | nothing _ _ _ => rfl
  | rejected _ _ _ _ _ _ => rfl
  | unfinished _ _ _ _ _ _ _ => rfl
  | writes _ _ event => exact event.state settled

theorem Chained.step (settled : hi.Settled) {start : κ} {history : List (Delivery κ)}
    {moment : Moment} {running next : Running κ}
    (chained : Chained hi start history running.server.state)
    (step : StateStep hi moment running next) :
    Chained hi start (history ++ deliveries moment running) next.server.state := by
  cases step with
  | kept same nothing =>
      rw [same, nothing, List.append_nil]
      exact chained
  | handled info handled _ found type event handed same =>
      have recounted := handlePktEvent_recounted event
      rw [same, handed, deliveredAt, if_pos type]
      cases delivered : handedOver moment.calls info with
      | none =>
          rw [delivered] at recounted
          rw [state_of_recounted settled recounted]
          simp only [List.append_nil]
          exact chained
      | some both =>
          rw [delivered] at recounted
          cases recounted with
          | complete buf bytes s after _ _ _ _ finished =>
              exact .next history ⟨running.index, moment.calls, _, s.obj, running.server.state⟩ after
                chained finished

end Chains

/-! ## What steps have to keep -/

/-- `P` holds of every session and the packets that it handed over, `S` of the
state of the handlers, and `idle` of what was done for entries that do not exist
yet. -/
structure Historic {κ : Type} (hi : HandlerInfo κ) (expected : Expected κ) (S : κ → Prop)
    (P : Nat → List (Delivery κ) → List Event → Sockinfo → Prop) (idle : List Event → Prop) : Prop where
  sound : ∀ index history events info, P index history events info → info.Sound
  accepted : ∀ index events (fd : Nat), idle events → P index [] (events ++ [.accepted fd]) (.accepted fd)
  refused : ∀ events calls (socks : Socks) (fd : Nat), expected.accepts calls socks →
    socksAdd calls.realloc (.accepted fd) socks = none → idle events →
    idle (events ++ [.accepted fd, .closed fd])
  slots : ∀ index history events info info', P index history events info → SameButSlots info info' →
    P index history events info'
  polled : ∀ index history events info ready checked, P index history events info →
    expected.polls (some ready) → PolledTo ready info checked →
    P index history (events ++ checked.2.map .closed) checked.1
  listening : ∀ index history events info, P index history events info → info.type = .mfdLstn →
    P index history (events ++ info.held.map .closed) info.deleted
  event : ∀ index history events calls info state handled, P index history events info → S state →
    info.type = .mfdPktIn → expected.handles index events calls info state →
    handlePktEvent hi calls info state = .ok handled →
    S handled.state ∧
      (handled.status ≠ .hsDel →
        P index (history ++ deliveredAt calls index info state) (events ++ handled.events)
          handled.info) ∧
      (handled.status = .hsDel →
        P index (history ++ deliveredAt calls index info state)
          (events ++ handled.events ++ handled.info.held.map .closed) handled.info.deleted)

structure Histories {κ : Type} (S : κ → Prop) (P : Nat → List (Delivery κ) → List Event → Sockinfo → Prop)
    (idle : List Event → Prop) (server : Server κ) (history : List (Delivery κ)) : Prop where
  state : S server.state
  entries : ∀ index info, server.socks.sockinfos[index]? = some info →
    P index (deliveredTo index history) (eventsAt index server.log) info
  beyond : ∀ index, server.socks.count ≤ index →
    idle (eventsAt index server.log) ∧ deliveredTo index history = []

section Runs
variable {κ : Type} {hi : HandlerInfo κ} {expected : Expected κ} {S : κ → Prop}
variable {P : Nat → List (Delivery κ) → List Event → Sockinfo → Prop} {idle : List Event → Prop}

theorem Historic.entry (each : Historic hi expected S P idle) {moment : Moment} {running : Running κ}
    (state : S running.server.state) (meets : expected.Meets moment running) {index : Nat}
    {info info' : Sockinfo} {history more : List (Delivery κ)} {events : List Event}
    (found : running.server.socks.sockinfos[index]? = some info)
    (holds : P index history (eventsAt index running.server.log) info)
    (step : EntryStep hi moment running index info events more info') :
    P index (history ++ more) (eventsAt index running.server.log ++ events) info' := by
  unfold Expected.Meets at meets
  cases step with
  | kept _ same _ =>
      rw [List.append_nil, List.append_nil]
      exact each.slots index history _ info info' holds same
  | polled ready checked polls reported polledTo =>
      simp only [polls, reported] at meets
      rw [List.append_nil]
      exact each.polled index history _ info ready checked holds meets polledTo
  | handled handled positive at_ type event status =>
      subst at_
      obtain ⟨left, more⟩ := Nat.exists_eq_succ_of_ne_zero positive.ne'
      simp only [more] at meets
      exact (each.event running.index history _ moment.calls info _ handled holds state type
        ((meets info found).2 type) event).2.1 status
  | dropped handled positive at_ type event status =>
      subst at_
      obtain ⟨left, more⟩ := Nat.exists_eq_succ_of_ne_zero positive.ne'
      simp only [more] at meets
      have gone := (each.event running.index history _ moment.calls info _ handled holds state type
        ((meets info found).2 type) event).2.2 status
      rw [List.append_assoc] at gone
      exact gone
  | deafened _ _ type _ =>
      rw [List.append_nil]
      exact each.listening index history _ info holds type

theorem Historic.state (each : Historic hi expected S P idle) {moment : Moment}
    {running next : Running κ} {history : List (Delivery κ)}
    (histories : Histories S P idle running.server history) (meets : expected.Meets moment running)
    (step : StateStep hi moment running next) : S next.server.state := by
  unfold Expected.Meets at meets
  cases step with
  | kept same _ =>
      rw [same]
      exact histories.state
  | handled info handled positive found type event _ same =>
      obtain ⟨left, more⟩ := Nat.exists_eq_succ_of_ne_zero positive.ne'
      simp only [more] at meets
      rw [same]
      exact (each.event running.index _ _ moment.calls info _ handled
        (histories.entries running.index info found) histories.state type ((meets info found).2 type)
        event).1

/-- The step lemma. -/
theorem Historic.step (each : Historic hi expected S P idle) {moment : Moment}
    {running next : Running κ} {history : List (Delivery κ)}
    (histories : Histories S P idle running.server history) (meets : expected.Meets moment running)
    (steps : StepsTo hi moment running next) :
    Histories S P idle next.server (history ++ deliveries moment running) := by
  have old : ∀ index info, index < running.server.socks.count →
      next.server.socks.sockinfos[index]? = some info →
      P index (deliveredTo index (history ++ deliveries moment running))
        (eventsAt index next.server.log) info := by
    intro index info inside found
    obtain ⟨events, info', found', logged, step⟩ := steps.entries index _ (List.getElem?_eq_getElem inside)
    rw [found] at found'
    cases found'
    rw [logged, deliveredTo_append]
    exact each.entry histories.state meets (List.getElem?_eq_getElem inside)
      (histories.entries index _ (List.getElem?_eq_getElem inside)) step
  have unread : ∀ index, running.server.socks.count ≤ index →
      deliveredTo index (history ++ deliveries moment running) = [] := by
    intro index beyond
    rw [deliveredTo_append, (histories.beyond index beyond).2, deliveredTo_beyond beyond]
    rfl
  refine ⟨each.state histories meets steps.state, fun index info found => ?_, fun index beyond => ?_⟩
  · by_cases inside : index < running.server.socks.count
    · exact old index info inside found
    have outside := Nat.le_of_not_lt inside
    obtain ⟨fd, rfl, logged⟩ := steps.fresh outside found
    rw [unread index outside, logged]
    exact each.accepted index _ fd (histories.beyond index outside).1
  · cases steps.array with
    | same count logged =>
        rw [count] at beyond
        rw [logged index beyond]
        exact ⟨(histories.beyond index beyond).1, unread index beyond⟩
    | added _ fd _ _ _ _ grown logged =>
        have more : running.server.socks.count < index := by
          rw [Socks.count, grown, List.length_append, List.length_singleton] at beyond
          exact beyond
        rw [logged index more.le, if_neg more.ne', List.append_nil]
        exact ⟨(histories.beyond index more.le).1, unread index more.le⟩
    | full info fd positive found type _ refused same _ logged =>
        have outside : running.server.socks.count ≤ index := by
          rw [Socks.count, same] at beyond
          exact beyond
        have before := (histories.beyond index outside).1
        refine ⟨?_, unread index outside⟩
        rw [logged index outside]
        split_ifs
        · unfold Expected.Meets at meets
          obtain ⟨left, more⟩ := Nat.exists_eq_succ_of_ne_zero positive.ne'
          simp only [more] at meets
          exact each.refused _ moment.calls running.server.socks fd ((meets info found).1 type) refused
            before
        · rw [List.append_nil]
          exact before

theorem Historic.sounds (each : Historic hi expected S P idle) {server : Server κ}
    {history : List (Delivery κ)} (histories : Histories S P idle server history) :
    ∀ info ∈ server.socks.sockinfos, info.Sound := by
  intro info member
  obtain ⟨index, found⟩ := List.mem_iff_getElem?.mp member
  exact each.sound index _ _ info (histories.entries index info found)

structure Expected.Implies (expected expected' : Expected κ) : Prop where
  polls : ∀ ready, expected.polls ready → expected'.polls ready
  accepts : ∀ calls socks, expected.accepts calls socks → expected'.accepts calls socks
  handles : ∀ index events calls info state, expected.handles index events calls info state →
    expected'.handles index events calls info state

theorem Historic.of_more {expected' : Expected κ} (each : Historic hi expected' S P idle)
    (more : expected.Implies expected') : Historic hi expected S P idle where
  sound := each.sound
  accepted := each.accepted
  refused := fun events calls socks fd accepts =>
    each.refused events calls socks fd (more.accepts calls socks accepts)
  slots := each.slots
  polled := fun index history events info ready checked holds polls =>
    each.polled index history events info ready checked holds (more.polls _ polls)
  listening := each.listening
  event := fun index history events calls info state handled holds good type handles =>
    each.event index history events calls info state handled holds good type
      (more.handles index events calls info state handles)

/-- What is kept for each of a family is kept for all of it. -/
theorem Historic.all {ι : Type} [Nonempty ι]
    {Q : ι → Nat → List (Delivery κ) → List Event → Sockinfo → Prop}
    (each : ∀ i, Historic hi expected S (Q i) idle) :
    Historic hi expected S (fun index history events info => ∀ i, Q i index history events info)
      idle where
  sound := fun index history events info holds =>
    (each (Classical.arbitrary ι)).sound index history events info (holds _)
  accepted := fun index events fd unused i => (each i).accepted index events fd unused
  refused := (each (Classical.arbitrary ι)).refused
  slots := fun index history events info info' holds same i =>
    (each i).slots index history events info info' (holds i) same
  polled := fun index history events info ready checked holds polls polledTo i =>
    (each i).polled index history events info ready checked (holds i) polls polledTo
  listening := fun index history events info holds type i =>
    (each i).listening index history events info (holds i) type
  event := fun index history events calls info state handled holds good type handles done => by
    have one := fun i => (each i).event index history events calls info state handled (holds i) good type
      handles done
    exact ⟨(one (Classical.arbitrary ι)).1, fun status i => (one i).2.1 status,
      fun status i => (one i).2.2 status⟩

/-- What holds of every packet when it is handed over holds of all of the history. -/
theorem Historic.packets (each : Historic hi expected S P idle) {Q : Nat → Delivery κ → Prop}
    (handed : ∀ index history events calls info state handled, P index history events info → S state →
      info.type = .mfdPktIn → expected.handles index events calls info state →
      handlePktEvent hi calls info state = .ok handled →
      ∀ delivery ∈ deliveredAt calls index info state, Q index delivery) :
    Historic hi expected S (fun index history events info =>
      P index history events info ∧ ∀ delivery ∈ history, Q index delivery) idle where
  sound := fun index history events info both => each.sound index history events info both.1
  accepted := fun index events fd unused =>
    ⟨each.accepted index events fd unused, fun _ no => absurd no List.not_mem_nil⟩
  refused := each.refused
  slots := fun index history events info info' both same =>
    ⟨each.slots index history events info info' both.1 same, both.2⟩
  polled := fun index history events info ready checked both polls polledTo =>
    ⟨each.polled index history events info ready checked both.1 polls polledTo, both.2⟩
  listening := fun index history events info both type =>
    ⟨each.listening index history events info both.1 type, both.2⟩
  event := fun index history events calls info state handled both good type handles done => by
    obtain ⟨after, kept, dropped⟩ :=
      each.event index history events calls info state handled both.1 good type handles done
    have all : ∀ delivery ∈ history ++ deliveredAt calls index info state, Q index delivery := by
      intro delivery member
      rcases List.mem_append.mp member with old | new
      · exact both.2 delivery old
      · exact handed index history events calls info state handled both.1 good type handles done
          delivery new
    exact ⟨after, fun status => ⟨kept status, all⟩, fun status => ⟨dropped status, all⟩⟩

theorem Histories.imp {Q : Nat → List (Delivery κ) → List Event → Sockinfo → Prop} {server : Server κ}
    {history : List (Delivery κ)} (histories : Histories S P idle server history)
    (implies : ∀ index history events info, P index history events info → Q index history events info) :
    Histories S Q idle server history where
  state := histories.state
  entries := fun index info found => implies _ _ _ _ (histories.entries index info found)
  beyond := histories.beyond

/-- The run lemma. -/
theorem Historic.runs (each : Historic hi expected S P idle) (both : hi.Turns)
    {start running : Running κ} {history : List (Delivery κ)}
    (run : Reached (recording (advance hi) deliveries)
      (fun moment recorded => expected.Meets moment recorded.1) (start, []) (running, history))
    (starts : Histories S P idle start.server []) :
    Histories S P idle running.server history := by
  refine @Reached.invariant _ _ _ _ _ _ _
    (fun recorded : Running κ × List (Delivery κ) =>
      Histories S P idle recorded.1.server recorded.2) run starts ?_
  intro moment recorded next histories meets done
  obtain ⟨advanced, handed⟩ := recording_ok done
  rw [handed]
  exact each.step histories meets (advance_stepsTo both (each.sounds histories) advanced)

/-- The state is what the packets handed over make of the one at the start. -/
theorem chained_runs (both : hi.Turns) (settled : hi.Settled) {start running : Running κ}
    {history : List (Delivery κ)} {meets : Moment → Running κ × List (Delivery κ) → Prop}
    (run : Reached (recording (advance hi) deliveries) meets (start, []) (running, history))
    (sound : ∀ info ∈ start.server.socks.sockinfos, info.Sound) :
    Chained hi start.server.state history running.server.state := by
  refine (@Reached.invariant _ _ _ _ _ _ _
    (fun recorded : Running κ × List (Delivery κ) =>
      (∀ info ∈ recorded.1.server.socks.sockinfos, info.Sound) ∧
        Chained hi start.server.state recorded.2 recorded.1.server.state) run ⟨sound, .start⟩ ?_).2
  intro moment recorded next before _ done
  obtain ⟨sounds, chained⟩ := before
  obtain ⟨advanced, handed⟩ := recording_ok done
  have steps := advance_stepsTo both sounds advanced
  refine ⟨?_, ?_⟩
  · exact (entrywise_sound both).runs (.step moment .start trivial advanced) sounds
  · rw [handed]
    exact chained.step settled steps.state

/-- A server that was just started has one session, which listens. -/
theorem histories_started {realloc : Nat → Bool} {servsock : Nat} {state : κ} {server : Server κ}
    (started : serverStart realloc servsock state = .ok (some server)) (good : S state)
    (holds : P 0 [] [.created servsock] (.listens servsock)) (unused : idle []) :
    Histories S P idle server [] := by
  have sessions := @sessions_started κ S (fun index => P index []) idle server realloc servsock state
    started good holds unused
  exact ⟨sessions.state, sessions.entries, fun index beyond => ⟨sessions.beyond index beyond, rfl⟩⟩

end Runs
end Middfs
