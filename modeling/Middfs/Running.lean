import Middfs.Runs
import Middfs.Transitions

/-!
# The server in steps

`server_loop` polls and then handles the entries one by one.  Here each of
these is a step, which may go any way the system lets it; a run of steps passes
through every state that `server_loop` goes through.  A property of the single
entries that each step preserves holds in all of them.
-/

set_option autoImplicit false

namespace Middfs

open Runs

/-! ## Steps -/

/-- `left` entries, from `index` on, are still to be handled; with none left the
next step is a poll. -/
structure Running (κ : Type) where
  server : Server κ
  index : Nat
  left : Nat

structure Moment where
  calloc : Bool
  ready : Option (Nat → Revents)
  calls : Calls

section Machine
variable {κ : Type} (hi : HandlerInfo κ)

def advance (moment : Moment) (running : Running κ) : Except Trap (Running κ) :=
  match running.left with
  | 0 =>
      match pollAll moment.calloc moment.ready running.server with
      | .error trap => .error trap
      | .ok (server, goesOn) => .ok ⟨server, 0, if goesOn then server.socks.count else 0⟩
  | left + 1 =>
      match handleAt hi moment.calls running.index running.server with
      | .error trap => .error trap
      | .ok (server, goesOn) => .ok ⟨server, running.index + 1, if goesOn then left else 0⟩

def Reaches (start running : Running κ) : Prop := Reached (advance hi) (fun _ _ => True) start running

variable {hi}

/-- Where `server_loop` is left, or what it is brought down in. -/
theorem serverLoopFrom_runs (calls : Nat → Calls) (left index : Nat) (server : Server κ) :
    (∀ server' retv, serverLoopFrom hi calls left index server = .ok (server', retv) →
        ∃ index', Reaches hi ⟨server, index, left⟩ ⟨server', index', 0⟩) ∧
      ∀ trap, serverLoopFrom hi calls left index server = .error trap →
        ∃ running moment, Reaches hi ⟨server, index, left⟩ running ∧
          advance hi moment running = .error trap := by
  induction left generalizing index server with
  | zero =>
      refine ⟨fun server' retv done => ?_, fun trap no => by cases no⟩
      cases done
      exact ⟨index, .start⟩
  | succ left ih =>
      have first : ∀ moment : Moment, moment.calls = calls index →
          advance hi moment ⟨server, index, left + 1⟩ =
            match handleAt hi (calls index) index server with
            | .error trap => .error trap
            | .ok (server, goesOn) => .ok ⟨server, index + 1, if goesOn then left else 0⟩ := by
        rintro ⟨calloc, ready, _⟩ rfl
        rfl
      unfold serverLoopFrom
      have handled := first ⟨true, none, calls index⟩ rfl
      cases step : handleAt hi (calls index) index server with
      | error trap =>
          rw [step] at handled
          refine ⟨fun _ _ no => (by cases no), fun _ same => ?_⟩
          cases same
          exact ⟨_, _, .start, handled⟩
      | ok result =>
          obtain ⟨next, goesOn⟩ := result
          rw [step] at handled
          have one : Reaches hi ⟨server, index, left + 1⟩
            ⟨next, index + 1, if goesOn then left else 0⟩ := .step _ .start trivial handled
          cases goesOn with
          | false =>
              refine ⟨fun _ _ same => ?_, fun _ no => by cases no⟩
              cases same
              exact ⟨_, one⟩
          | true =>
              obtain ⟨done, traps⟩ := ih (index + 1) next
              refine ⟨fun server' retv answer => ?_, fun trap answer => ?_⟩
              · obtain ⟨index', rest⟩ := done server' retv answer
                exact ⟨index', one.trans rest⟩
              · obtain ⟨running, moment, rest, brought⟩ := traps trap answer
                exact ⟨running, moment, one.trans rest, brought⟩

theorem serverLoop_runs (calloc : Bool) (ready : Option (Nat → Revents)) (calls : Nat → Calls)
    (index : Nat) (server : Server κ) :
    (∀ server' retv, serverLoop hi calloc ready calls server = .ok (server', retv) →
        ∃ index', Reaches hi ⟨server, index, 0⟩ ⟨server', index', 0⟩) ∧
      ∀ trap, serverLoop hi calloc ready calls server = .error trap →
        ∃ running moment, Reaches hi ⟨server, index, 0⟩ running ∧
          advance hi moment running = .error trap := by
  have first : advance hi ⟨calloc, ready, calls 0⟩ ⟨server, index, 0⟩ =
      match pollAll calloc ready server with
      | .error trap => .error trap
      | .ok (server, goesOn) => .ok ⟨server, 0, if goesOn then server.socks.count else 0⟩ := rfl
  unfold serverLoop
  cases polled : pollAll calloc ready server with
  | error trap =>
      rw [polled] at first
      refine ⟨fun _ _ no => (by cases no), fun _ same => ?_⟩
      cases same
      exact ⟨_, _, .start, first⟩
  | ok result =>
      obtain ⟨next, goesOn⟩ := result
      rw [polled] at first
      have one : Reaches hi ⟨server, index, 0⟩ ⟨next, 0, if goesOn then next.socks.count else 0⟩ :=
        .step _ .start trivial first
      cases goesOn with
      | false =>
          refine ⟨fun _ _ same => ?_, fun _ no => by cases no⟩
          cases same
          exact ⟨_, one⟩
      | true =>
          obtain ⟨done, traps⟩ := @serverLoopFrom_runs _ hi calls next.socks.count 0 next
          refine ⟨fun server' retv answer => ?_, fun trap answer => ?_⟩
          · obtain ⟨index', rest⟩ := done server' retv answer
            exact ⟨index', one.trans rest⟩
          · obtain ⟨running, moment, rest, brought⟩ := traps trap answer
            exact ⟨running, moment, one.trans rest, brought⟩

structure Iteration where
  ready : Nat → Revents
  calls : Nat → Calls

variable (hi) in
def serverLoops : List Iteration → Server κ → Except Trap (Server κ)
  | [], server => .ok server
  | iteration :: rest, server =>
      match serverLoop hi true (some iteration.ready) iteration.calls server with
      | .error trap => .error trap
      | .ok (server, _) => serverLoops rest server

theorem serverLoops_runs {iterations : List Iteration} {server server' : Server κ}
    (done : serverLoops hi iterations server = .ok server') (index : Nat) :
    ∃ index', Reaches hi ⟨server, index, 0⟩ ⟨server', index', 0⟩ := by
  induction iterations generalizing server index with
  | nil =>
      cases done
      exact ⟨index, .start⟩
  | cons iteration rest ih =>
      unfold serverLoops at done
      cases first : serverLoop hi true (some iteration.ready) iteration.calls server with
      | error trap =>
          rw [first] at done
          cases done
      | ok result =>
          obtain ⟨next, retv⟩ := result
          rw [first] at done
          obtain ⟨index', one⟩ := (serverLoop_runs true (some iteration.ready) iteration.calls index
            server).1 next retv first
          obtain ⟨index'', more⟩ := ih done index'
          exact ⟨index'', one.trans more⟩

end Machine

/-! ## Polling -/

/-- The ends that `middfs_sockinfo_check` looks at have a descriptor. -/
def Sockinfo.Watched (info : Sockinfo) : Prop :=
  (info.state.watchesIn = true ∧ 0 ≤ info.inEnd.fd) ∨
    (info.state.watchesOut = true ∧ 0 ≤ info.outEnd.fd)

inductive CheckedTo (info : Sockinfo) : Sockinfo × List Int → Prop where
  | kept (revents : Revents) : CheckedTo info ({ info with revents := revents }, [])
  | deleted (checked : Sockinfo × List Int) : info.Watched → sockinfoDelete info = .ok checked →
      CheckedTo info checked

section Poll
variable {array nfds : Nat} {reported : List Revents}

theorem sockendPollfd_same {polarity : Polarity} {sockend sockend' : Sockend} {polled polled' : Polled}
    (done : sockendPollfd array nfds polarity sockend polled = .ok (sockend', polled')) :
    sockend'.fd = sockend.fd ∧ sockend'.buf = sockend.buf := by
  unfold sockendPollfd at done
  split_ifs at done
  · cases done
    exact ⟨rfl, rfl⟩
  · cases done
    exact ⟨rfl, rfl⟩

theorem sockinfoPollfdsIn_same {info info' : Sockinfo} {polled polled' : Polled}
    (done : sockinfoPollfdsIn array nfds info polled = .ok (info', polled')) :
    SameButSlots info info' := by
  unfold sockinfoPollfdsIn at done
  split_ifs at done
  · split at done
    · cases done
    · rename_i filled
      obtain ⟨fd, buf⟩ := sockendPollfd_same filled
      cases done
      exact ⟨rfl, rfl, rfl, fd, buf, rfl, rfl⟩
  · cases done
    exact SameButSlots.refl info

theorem sockinfoPollfdsOut_same {info info' : Sockinfo} {polled polled' : Polled}
    (done : sockinfoPollfdsOut array nfds info polled = .ok (info', polled')) :
    SameButSlots info info' := by
  unfold sockinfoPollfdsOut at done
  split_ifs at done
  · split at done
    · cases done
    · rename_i filled
      obtain ⟨fd, buf⟩ := sockendPollfd_same filled
      cases done
      exact ⟨rfl, rfl, rfl, rfl, rfl, fd, buf⟩
  · cases done
    exact SameButSlots.refl info

theorem sockinfoPollfds_same {info info' : Sockinfo} {polled polled' : Polled}
    (done : sockinfoPollfds array nfds info polled = .ok (info', polled')) :
    SameButSlots info info' := by
  unfold sockinfoPollfds at done
  split_ifs at done
  · cases done
    exact SameButSlots.refl info
  · split at done
    · cases done
    · rename_i first
      exact (sockinfoPollfdsIn_same first).trans (sockinfoPollfdsOut_same done)

theorem socksPollfds_same {infos infos' : List Sockinfo} {polled polled' : Polled}
    (done : socksPollfds array nfds infos polled = .ok (infos', polled')) :
    List.Forall₂ SameButSlots infos infos' := by
  induction infos generalizing infos' polled with
  | nil =>
      cases done
      exact .nil
  | cons info infos ih =>
      unfold socksPollfds at done
      split at done
      · cases done
      · rename_i first
        split at done
        · cases done
        · rename_i rest
          cases done
          exact .cons (sockinfoPollfds_same first) (ih rest)

theorem sockendCheck_none {sockend : Sockend}
    (failing : sockendCheck array reported sockend = .ok none) : 0 ≤ sockend.fd := by
  unfold sockendCheck at failing
  split_ifs at failing with shut
  · cases failing
  · exact Int.not_lt.mp shut

/-- A check that fails is about an end with a descriptor; it goes wrong at a
pointer only. -/
theorem sockinfoCheck_cases {info : Sockinfo} {checked : Option Sockinfo}
    (done : sockinfoCheck array reported info = .ok checked) :
    checked = none ∧ info.Watched ∨ ∃ revents, checked = some { info with revents := revents } := by
  simp only [sockinfoCheck] at done
  split at done
  · cases done
  rename_i reventsIn first
  split at done
  · cases done
  rename_i reventsOut second
  split at done
  · cases done
    exact Or.inr ⟨_, rfl⟩
  rename_i missing
  cases done
  refine Or.inl ⟨rfl, ?_⟩
  cases reventsIn with
  | none =>
      split_ifs at first with watched
      · exact Or.inl ⟨watched, sockendCheck_none first⟩
      · cases first
  | some reventsIn =>
      cases reventsOut with
      | none =>
          split_ifs at second with watched
          · exact Or.inr ⟨watched, sockendCheck_none second⟩
          · cases second
      | some reventsOut => exact absurd rfl (missing reventsIn reventsOut rfl)

theorem checkEntry_cases {info : Sockinfo} {checked : Sockinfo × List Int}
    (done : checkEntry array reported info = .ok checked) : CheckedTo info checked := by
  unfold checkEntry at done
  split at done
  · cases done
  · rename_i failed
    rcases sockinfoCheck_cases failed with ⟨_, watched⟩ | ⟨_, no⟩
    · exact .deleted checked watched done
    · cases no
  · rename_i passed
    cases done
    rcases sockinfoCheck_cases passed with ⟨no, _⟩ | ⟨revents, same⟩
    · cases no
    · cases same
      exact .kept revents

theorem socksCheck_cases {infos : List Sockinfo} {checked : List (Sockinfo × List Int)}
    (done : socksCheck array reported infos = .ok checked) :
    List.Forall₂ CheckedTo infos checked := by
  unfold socksCheck at done
  induction infos generalizing checked with
  | nil =>
      cases done
      exact .nil
  | cons info infos ih =>
      rw [List.mapM_cons] at done
      cases first : checkEntry array reported info with
      | error trap =>
          rw [first] at done
          cases done
      | ok entry =>
          rw [first] at done
          cases rest : infos.mapM (checkEntry array reported) with
          | error trap =>
              rw [rest] at done
              cases done
          | ok entries =>
              rw [rest] at done
              cases done
              exact .cons (checkEntry_cases first) (ih rest)

theorem sameButSlots_trans {infos infos' infos'' : List Sockinfo}
    (first : List.Forall₂ SameButSlots infos infos')
    (second : List.Forall₂ SameButSlots infos' infos'') : List.Forall₂ SameButSlots infos infos'' := by
  induction first generalizing infos'' with
  | nil =>
      cases second
      exact .nil
  | cons head _ ih =>
      cases second with
      | cons next rest => exact .cons (head.trans next) (ih rest)

theorem socksPoll_cases {calloc : Bool} {ready : Option (Nat → Revents)} {infos infos' : List Sockinfo}
    {checked : Option (List (Sockinfo × List Int))}
    (done : socksPoll array calloc ready infos = .ok (infos', checked)) :
    List.Forall₂ SameButSlots infos infos' ∧
      ∀ entries, checked = some entries → List.Forall₂ CheckedTo infos' entries := by
  unfold socksPoll at done
  split at done
  · cases done
  rename_i counted
  have first := socksPollfds_same counted
  split_ifs at done
  · split at done
    · cases done
    rename_i filled
    have second := socksPollfds_same filled
    have same := sameButSlots_trans first second
    split at done
    · cases done
      exact ⟨same, fun _ no => by cases no⟩
    · split at done
      · cases done
      rename_i passed
      cases done
      refine ⟨same, fun entries some_ => ?_⟩
      cases some_
      exact socksCheck_cases passed
  · cases done
    exact ⟨first, fun _ no => by cases no⟩

end Poll

/-! ## Handling -/

def Sockinfo.accepted (fd : Nat) : Sockinfo where
  type := .mfdPktIn
  state := .mssReqrd
  inEnd := sockendInit fd
  outEnd := sockendInit (-1)
  revents := Revents.none

theorem Sockinfo.held_accepted (fd : Nat) : (Sockinfo.accepted fd).held = [(fd : Int)] := by
  have inHeld : (Sockinfo.accepted fd).inEnd.held = [(fd : Int)] := if_pos (Int.natCast_nonneg fd)
  have outHeld : (Sockinfo.accepted fd).outEnd.held = [] := rfl
  rw [Sockinfo.held, inHeld, outHeld]
  rfl

def Server.after {κ : Type} (server : Server κ) (index : Nat) (info : Sockinfo) (state : κ)
    (events : List Event) : Server κ :=
  { server with
    socks := { server.socks with sockinfos := server.socks.sockinfos.set index info }
    state := state
    log := server.log ++ tagged index events }

theorem tagged_append (index : Nat) (events more : List Event) :
    tagged index (events ++ more) = tagged index events ++ tagged index more := List.map_append

section Handling
variable {κ : Type} (hi : HandlerInfo κ) (calls : Calls)

inductive Attended (info : Sockinfo) (state : κ) : Handled κ × Option Sockinfo → Prop where
  | shut : sockinfoIsopen info = false → Attended info state (⟨.hsSuc, info, state, []⟩, none)
  | packet (handled : Handled κ) : info.type = .mfdPktIn →
      handlePktEvent hi calls info state = .ok handled → Attended info state (handled, none)
  | quiet : info.type = .mfdLstn → Attended info state (⟨.hsSuc, info, state, []⟩, none)
  | refused : info.type = .mfdLstn → calls.accept = none →
      Attended info state (⟨.hsDel, info, state, []⟩, none)
  | accepted (fd : Nat) : info.type = .mfdLstn → calls.accept = some fd →
      Attended info state (⟨.hsNew, info, state, []⟩, some (.accepted fd))

inductive HandledAt (index : Nat) (server : Server κ) : Server κ × Bool → Prop where
  | kept (info : Sockinfo) (handled : Handled κ) (goesOn : Bool) :
      server.socks.sockinfos[index]? = some info →
      Attended hi calls info server.state (handled, none) → handled.status ≠ .hsDel →
      HandledAt index server (server.after index handled.info handled.state handled.events, goesOn)
  | deleted (info : Sockinfo) (handled : Handled κ) (gone : Sockinfo) (closed : List Int) :
      server.socks.sockinfos[index]? = some info →
      Attended hi calls info server.state (handled, none) → handled.status = .hsDel →
      sockinfoDelete handled.info = .ok (gone, closed) →
      HandledAt index server
        (server.after index gone handled.state (handled.events ++ closed.map .closed), true)
  | added (info : Sockinfo) (fd : Nat) (socks : Socks) :
      server.socks.sockinfos[index]? = some info → info.type = .mfdLstn → calls.accept = some fd →
      socksAdd calls.realloc (.accepted fd) server.socks = some socks →
      HandledAt index server
        ({ server with
            socks := socks
            log := server.log ++ tagged server.socks.count [.accepted fd] }, true)
  | full (info : Sockinfo) (fd : Nat) (gone : Sockinfo) (closed : List Int) :
      server.socks.sockinfos[index]? = some info → info.type = .mfdLstn → calls.accept = some fd →
      socksAdd calls.realloc (.accepted fd) server.socks = none →
      sockinfoDelete (.accepted fd) = .ok (gone, closed) →
      HandledAt index server
        ({ server with
            log := server.log ++ tagged server.socks.count [.accepted fd] ++
              tagged server.socks.count (closed.map .closed) }, false)

variable {hi calls}

theorem handleSocketEvent_cases {info : Sockinfo} {state : κ} {result : Handled κ × Option Sockinfo}
    (done : handleSocketEvent hi calls info state = .ok result) :
    Attended hi calls info state result := by
  unfold handleSocketEvent at done
  split_ifs at done with opened
  · split at done
    · rename_i type
      split at done
      · cases done
      · rename_i handled
        cases done
        exact .packet _ type handled
    · cases done
    · rename_i type
      split at done
      · cases done
      rename_i status fresh listened
      unfold handleLstnEvent at listened
      split_ifs at listened
      · split at listened
        · rename_i accept
          cases listened
          cases done
          exact .refused type accept
        · rename_i fd accept
          cases listened
          cases done
          exact .accepted fd type accept
      · cases listened
        cases done
        exact .quiet type
    · cases done
  · cases done
    exact .shut (Bool.not_eq_true _ ▸ opened)

theorem set_same {α : Type} {l : List α} {index : Nat} {a : α} (held : l[index]? = some a) :
    l.set index a = l := by
  obtain ⟨inside, same⟩ := List.getElem?_eq_some_iff.mp held
  rw [← same, List.set_getElem_self]

theorem handleAt_cases {index : Nat} {server : Server κ} {result : Server κ × Bool}
    (done : handleAt hi calls index server = .ok result) : HandledAt hi calls index server result := by
  unfold handleAt at done
  split at done
  · cases done
  rename_i info held
  split at done
  · cases done
  rename_i handled fresh event
  have attended := handleSocketEvent_cases event
  -- apart from the listening entry, no entry comes with another one
  have single : fresh = none → HandledAt hi calls index server result := by
    rintro rfl
    cases status : handled.status with
    | hsSuc =>
        simp only [status] at done
        cases done
        exact .kept info handled true held attended (by rw [status]; intro no; cases no)
    | hsErr =>
        simp only [status] at done
        cases done
        exact .kept info handled false held attended (by rw [status]; intro no; cases no)
    | hsNew =>
        simp only [status] at done
        cases done
    | hsDel =>
        simp only [status] at done
        cases deleted : sockinfoDelete handled.info with
        | error trap =>
            rw [deleted] at done
            cases done
        | ok gone =>
            obtain ⟨gone, closed⟩ := gone
            simp only [deleted, List.set_set, List.append_assoc, ← tagged_append] at done
            cases done
            exact .deleted info handled gone closed held attended status deleted
  cases attended with
  | accepted fd type accept =>
      simp only [addSock, set_same held, tagged, List.map_nil, List.append_nil] at done
      split at done
      · rename_i socks added
        cases done
        exact .added info fd socks held type accept added
      · rename_i refused
        split at done
        · cases done
        · rename_i gone
          cases done
          exact .full info fd _ _ held type accept refused gone
  | _ => exact single rfl

theorem socksAdd_sockinfos {realloc : Nat → Bool} {info : Sockinfo} {socks socks' : Socks}
    (added : socksAdd realloc info socks = some socks') :
    socks'.sockinfos = socks.sockinfos ++ [info] := by
  unfold socksAdd at added
  split at added
  · cases added
  · rename_i grown resized
    cases added
    have same : grown.sockinfos = socks.sockinfos := by
      split_ifs at resized
      · unfold socksResize at resized
        split_ifs at resized
        cases resized
        rfl
      · cases resized
        rfl
    show grown.sockinfos ++ [info] = socks.sockinfos ++ [info]
    rw [same]

end Handling

/-! ## Properties of single entries -/

theorem getElem?_of_forall₂ {α β : Type} {R : α → β → Prop} {as : List α} {bs : List β}
    (related : List.Forall₂ R as bs) {index : Nat} {b : β} (found : bs[index]? = some b) :
    ∃ a, as[index]? = some a ∧ R a b := by
  obtain ⟨same, each⟩ := List.forall₂_iff_get.mp related
  obtain ⟨within, rfl⟩ := List.getElem?_eq_some_iff.mp found
  have inside : index < as.length := same ▸ within
  exact ⟨as[index], List.getElem?_eq_getElem inside, each index inside within⟩

theorem forall_of_forall₂ {α β : Type} {R : α → β → Prop} {P : α → Prop} {Q : β → Prop}
    (step : ∀ a b, P a → R a b → Q b) {as : List α} {bs : List β} (related : List.Forall₂ R as bs)
    (holds : ∀ a ∈ as, P a) : ∀ b ∈ bs, Q b := by
  intro b member
  obtain ⟨index, found⟩ := List.mem_iff_getElem?.mp member
  obtain ⟨a, among, head⟩ := getElem?_of_forall₂ related found
  exact step a b (holds a (List.mem_of_getElem? among)) head

/-- Every step keeps `P` of the entries; an entry is only deleted when `Q` holds
of it. -/
structure Entrywise {κ : Type} (hi : HandlerInfo κ) (P Q : Sockinfo → Prop) : Prop where
  accepted : ∀ fd : Nat, P (.accepted fd)
  polled : ∀ info info' revents, P info → SameButSlots info info' → P { info' with revents := revents }
  watched : ∀ info, P info → info.Watched → Q info
  listening : ∀ info, P info → info.type = .mfdLstn → Q info
  event : ∀ calls info state handled, P info → info.type = .mfdPktIn →
    handlePktEvent hi calls info state = .ok handled →
    (handled.status ≠ .hsDel → P handled.info) ∧ (handled.status = .hsDel → Q handled.info)
  deleted : ∀ info gone closed, Q info → sockinfoDelete info = .ok (gone, closed) → P gone

section Invariants
variable {κ : Type} {hi : HandlerInfo κ} {P Q : Sockinfo → Prop} (each : Entrywise hi P Q)
include each

theorem Entrywise.slots {info info' : Sockinfo} (holds : P info) (same : SameButSlots info info') :
    P info' :=
  each.polled info info' info'.revents holds same

theorem Entrywise.checked {info : Sockinfo} {entry : Sockinfo × List Int} (holds : P info)
    (checked : CheckedTo info entry) : P entry.1 := by
  cases checked with
  | kept revents => exact each.polled info info revents holds (SameButSlots.refl info)
  | deleted _ watched deletes => exact each.deleted info _ _ (each.watched info holds watched) deletes

theorem Entrywise.poll {calloc goesOn : Bool} {ready : Option (Nat → Revents)}
    {server server' : Server κ} (holds : ∀ info ∈ server.socks.sockinfos, P info)
    (polled : pollAll calloc ready server = .ok (server', goesOn)) :
    ∀ info ∈ server'.socks.sockinfos, P info := by
  unfold pollAll at polled
  split at polled
  · cases polled
  · rename_i done
    cases polled
    exact forall_of_forall₂ (fun _ _ holds same => each.slots holds same) (socksPoll_cases done).1 holds
  · rename_i done
    obtain ⟨same, entries⟩ := socksPoll_cases done
    cases polled
    intro info member
    obtain ⟨entry, found, rfl⟩ := List.mem_map.mp member
    exact forall_of_forall₂ (fun _ _ holds checked => each.checked holds checked) (entries _ rfl)
      (forall_of_forall₂ (fun _ _ holds same => each.slots holds same) same holds) entry found

theorem Entrywise.attended {calls : Calls} {info : Sockinfo} {state : κ} {handled : Handled κ}
    (holds : P info) (attended : Attended hi calls info state (handled, none)) :
    (handled.status ≠ .hsDel → P handled.info) ∧ (handled.status = .hsDel → Q handled.info) := by
  cases attended with
  | shut _ => exact ⟨fun _ => holds, fun no => by cases no⟩
  | packet _ type event => exact each.event calls info state handled holds type event
  | quiet _ => exact ⟨fun _ => holds, fun no => by cases no⟩
  | refused type _ => exact ⟨fun no => absurd rfl no, fun _ => each.listening info holds type⟩

theorem Entrywise.handle {calls : Calls} {index : Nat} {goesOn : Bool} {server server' : Server κ}
    (holds : ∀ info ∈ server.socks.sockinfos, P info)
    (done : handleAt hi calls index server = .ok (server', goesOn)) :
    ∀ info ∈ server'.socks.sockinfos, P info := by
  have replaced : ∀ entry, P entry → ∀ info ∈ server.socks.sockinfos.set index entry, P info := by
    intro entry good info member
    rcases List.mem_or_eq_of_mem_set member with old | rfl
    · exact holds info old
    · exact good
  cases handleAt_cases done with
  | kept info handled _ held attended status =>
      exact replaced _ ((each.attended (holds info (List.mem_of_getElem? held)) attended).1 status)
  | deleted info handled gone closed held attended status deletes =>
      have weak := (each.attended (holds info (List.mem_of_getElem? held)) attended).2 status
      exact replaced gone (each.deleted handled.info gone closed weak deletes)
  | added info fd socks _ _ _ added =>
      intro other member
      have split : other ∈ server.socks.sockinfos ++ [Sockinfo.accepted fd] :=
        socksAdd_sockinfos added ▸ member
      rcases List.mem_append.mp split with old | new
      · exact holds other old
      · exact List.mem_singleton.mp new ▸ each.accepted fd
  | full => exact holds

/-- The run lemma. -/
theorem Entrywise.runs {start running : Running κ} (reaches : Reaches hi start running)
    (starts : ∀ info ∈ start.server.socks.sockinfos, P info) :
    ∀ info ∈ running.server.socks.sockinfos, P info := by
  refine @Reached.invariant _ _ _ _ _ _ _
    (fun running : Running κ => ∀ info ∈ running.server.socks.sockinfos, P info) reaches starts ?_
  intro moment running next holds _ advanced
  unfold advance at advanced
  split at advanced
  · split at advanced
    · cases advanced
    · rename_i polled
      cases advanced
      exact each.poll holds polled
  · split at advanced
    · cases advanced
    · rename_i handled
      cases advanced
      exact each.handle holds handled

end Invariants
end Middfs
