import Middfs.Running

/-!
# The poll set

Which ends are polled on is decided by the type and the state of an entry,
which results are looked at by the state and the descriptors.  The two agree in
every array that `server_loop` gets to, with the handlers of either program.
-/

set_option autoImplicit false

namespace Middfs

/-! ## Entries that agree with their states -/

/-- The descriptors fit the state, and the buffers are there. -/
structure Sockinfo.Sound (info : Sockinfo) : Prop where
  fitting : info.Fitting
  unreleased : info.Unreleased

structure Sockinfo.Deletable (info : Sockinfo) : Prop where
  bounded : info.Bounded
  inUnreleased : info.inEnd.buf.freed = false
  outUnreleased : info.outEnd.buf.freed = false

theorem Sockinfo.Sound.deletable {info : Sockinfo} (sound : info.Sound) (inUse : info.type ≠ .mfdNone) :
    info.Deletable :=
  ⟨sound.fitting.bounded, (sound.unreleased inUse).1, (sound.unreleased inUse).2⟩

theorem fitting_packet {info : Sockinfo} (type : info.type = .mfdPktIn) :
    info.Fitting ↔
      match info.state with
      | .mssReqrd => 0 ≤ info.inEnd.fd ∧ info.outEnd.fd = -1
      | .mssReqfwd | .mssRspfwd => 0 ≤ info.inEnd.fd ∧ 0 ≤ info.outEnd.fd
      | .mssRspwr => -1 ≤ info.inEnd.fd ∧ 0 ≤ info.outEnd.fd
      | .mssNone | .mssClosed | .mssLstn => False := by
  cases state : info.state <;> simp only [Sockinfo.Fitting, type, state]

theorem SameButBytes.fitting {info info' : Sockinfo} (same : SameButBytes info info')
    (fitting : info.Fitting) : info'.Fitting := by
  unfold Sockinfo.Fitting at *
  rw [same.type, same.state, same.inFd, same.outFd]
  exact fitting

theorem SameButBytes.deletable {info info' : Sockinfo} (same : SameButBytes info info')
    (deletable : info.Deletable) : info'.Deletable where
  bounded := by
    have bounded := deletable.bounded
    unfold Sockinfo.Bounded at *
    rw [same.inFd, same.outFd]
    exact bounded
  inUnreleased := same.inFreed.trans deletable.inUnreleased
  outUnreleased := same.outFreed.trans deletable.outUnreleased

theorem SameButBytes.sound {info info' : Sockinfo} (same : SameButBytes info info')
    (sound : info.Sound) : info'.Sound where
  fitting := same.fitting sound.fitting
  unreleased := fun inUse => by
    rw [same.inFreed, same.outFreed]
    exact sound.unreleased (same.type ▸ inUse)

/-! ## Steps -/

section Turn
variable {info turned : Sockinfo} {status : HandlerE} {events : List Event}

theorem Turned.freed (turns : Turned info status events turned) :
    turned.type = info.type ∧ turned.inEnd.buf = info.inEnd.buf ∧ turned.outEnd.buf = info.outEnd.buf := by
  cases turns <;> exact ⟨rfl, rfl, rfl⟩

/-- A handler leaves an entry whose descriptors agree with the state, unless
the entry is to be deleted. -/
theorem Turned.fitting (type : info.type = .mfdPktIn) (fitting : info.Fitting)
    (turns : Turned info status events turned) :
    turned.Bounded ∧ (status ≠ .hsDel → turned.Fitting) := by
  have bounded := fitting.bounded
  have watched := fitting.watched (by rw [type]; intro no; cases no)
  rw [fitting_packet type] at fitting
  cases turns with
  | dropped => exact ⟨bounded, fun no => absurd rfl no⟩
  | answered status reading =>
      have answering : info.answering.Fitting :=
        (@fitting_packet info.answering type).mpr ⟨le_refl (-1), watched.1 reading⟩
      exact ⟨answering.bounded, fun _ => answering⟩
  | forwarded status fd reading =>
      have forwarding : (info.forwarding fd).Fitting :=
        (@fitting_packet (info.forwarding fd) type).mpr
          ⟨watched.1 reading, Int.natCast_nonneg fd⟩
      exact ⟨forwarding.bounded, fun _ => forwarding⟩
  | unconnected events reading _ => exact ⟨bounded, fun no => absurd rfl no⟩
  | relayed status awaited =>
      simp only [awaited] at fitting
      have relaying : Sockinfo.Fitting { info with state := .mssRspwr } :=
        (@fitting_packet { info with state := .mssRspwr } type).mpr ⟨bounded.1, fitting.2⟩
      exact ⟨relaying.bounded, fun _ => relaying⟩
  | crossed sent =>
      simp only [sent] at fitting
      have crossed : info.crossed.Fitting :=
        (@fitting_packet info.crossed type).mpr ⟨fitting.2, fitting.1⟩
      exact ⟨crossed.bounded, fun _ => crossed⟩
  | finished _ => exact ⟨bounded, fun no => absurd rfl no⟩

end Turn

theorem Stepped.sound {κ : Type} {info : Sockinfo} {handled : Handled κ} (type : info.type = .mfdPktIn)
    (sound : info.Sound) (stepped : Stepped info handled) :
    (handled.status ≠ .hsDel → handled.info.Sound) ∧
      (handled.status = .hsDel → handled.info.Deletable) := by
  cases stepped with
  | goesOn status _ same =>
      refine ⟨fun _ => same.sound sound, fun no => ?_⟩
      rw [status] at no
      cases no
  | turns read turned moved turns left =>
      have readSound := moved.sound sound
      have readType : read.type = .mfdPktIn := moved.type.trans type
      obtain ⟨bounded, fits⟩ := turns.fitting readType readSound.fitting
      obtain ⟨sameType, inBuf, outBuf⟩ := turns.freed
      obtain ⟨inUnreleased, outUnreleased⟩ := readSound.unreleased (by
        rw [readType]
        intro no
        cases no)
      rw [← inBuf] at inUnreleased
      rw [← outBuf] at outUnreleased
      exact ⟨fun status => left.sound ⟨fits status, fun _ => ⟨inUnreleased, outUnreleased⟩⟩,
        fun _ => left.deletable ⟨bounded, inUnreleased, outUnreleased⟩⟩

theorem sound_deleted {info gone : Sockinfo} {closed : List Int} (deletable : info.Deletable)
    (deletes : sockinfoDelete info = .ok (gone, closed)) : gone.Sound := by
  rw [sockinfoDelete_eq deletable.inUnreleased deletable.outUnreleased] at deletes
  cases deletes
  exact ⟨deletable.bounded.deleted, fun inUse => absurd rfl inUse⟩

theorem sound_accepted (fd : Nat) : (Sockinfo.accepted fd).Sound where
  fitting := (fitting_packet rfl).mpr ⟨Int.natCast_nonneg fd, rfl⟩
  unreleased := fun _ => ⟨rfl, rfl⟩

theorem SameButSlots.sound {info info' : Sockinfo} (same : SameButSlots info info')
    (sound : info.Sound) : info'.Sound where
  fitting := same.fitting sound.fitting
  unreleased := fun inUse => by
    rw [same.inBuf, same.outBuf]
    exact sound.unreleased (same.type ▸ inUse)

theorem entrywise_sound {κ : Type} {hi : HandlerInfo κ} (both : hi.Turns) :
    Entrywise hi Sockinfo.Sound Sockinfo.Deletable where
  accepted := sound_accepted
  polled := fun info info' revents sound same =>
    have kept := same.sound sound
    ⟨kept.fitting, kept.unreleased⟩
  watched := fun info sound watched =>
    sound.deletable (sound.fitting.inUse (watched.imp And.right And.right))
  listening := fun info sound type => sound.deletable (by rw [type]; intro no; cases no)
  event := fun _ _ _ _ sound type done => (handlePktEvent_stepped both done).sound type sound
  deleted := fun _ _ _ => sound_deleted

/-! ## The whole array -/

/-- What the type and the state of an entry say about its descriptors. -/
structure Sockinfo.Agrees (info : Sockinfo) : Prop where
  unused : info.type = .mfdNone → info.inEnd.fd = -1 ∧ info.outEnd.fd = -1
  inEnd : info.type = .mfdPktIn → info.state = .mssReqrd ∨ info.state = .mssReqfwd ∨
    info.state = .mssRspfwd → 0 ≤ info.inEnd.fd
  outEnd : info.type = .mfdPktIn → info.state = .mssReqfwd ∨ info.state = .mssRspfwd ∨
    info.state = .mssRspwr → 0 ≤ info.outEnd.fd

theorem Sockinfo.Fitting.agrees {info : Sockinfo} (fitting : info.Fitting) : info.Agrees where
  unused := fun unused => by
    unfold Sockinfo.Fitting at fitting
    simp only [unused] at fitting
    exact fitting
  inEnd := fun type states => by
    rw [fitting_packet type] at fitting
    rcases states with state | state | state <;> simp only [state] at fitting <;> exact fitting.1
  outEnd := fun type states => by
    rw [fitting_packet type] at fitting
    rcases states with state | state | state <;> simp only [state] at fitting <;> exact fitting.2

/-- A round of polling with `count` slots: both passes use that many, the pass
that fills them in makes the checks read through pointers to the first, the
second and so on, every slot is for the descriptor of the end that points to
it, and the checks read nothing else. -/
structure Round (array : Nat) (infos infos' : List Sockinfo) (count : Nat) (pfds : List Pollfd) :
    Prop where
  counts : socksPollfds array 0 infos ⟨0, []⟩ = .ok (infos, ⟨count, []⟩)
  fills : socksPollfds array count infos ⟨0, []⟩ = .ok (infos', ⟨count, pfds⟩)
  length : pfds.length = count
  reads : infos'.flatMap sockinfoLoads = (List.range count).map fun index => some ⟨array, index⟩
  aimed : ∀ info ∈ infos', Aimed array pfds info
  checks : ∀ reported : List Revents, reported.length = count → ∀ info ∈ infos',
    ∃ checked, sockinfoCheck array reported info = .ok checked

theorem loadRevents_slot {array index : Nat} {reported : List Revents} (inside : index < reported.length) :
    ∃ revents, loadRevents array reported (some ⟨array, index⟩) = .ok revents := by
  simp only [loadRevents, if_true, List.getElem?_eq_getElem inside]
  exact ⟨_, rfl⟩

theorem round_of_fitting (array : Nat) {infos : List Sockinfo} (fitting : ∀ info ∈ infos, info.Fitting) :
    ∃ infos' pfds, Round array infos infos' (polledCount infos) pfds := by
  obtain ⟨infos', pfds, fills, length, entries, reads⟩ :=
    @socksPollfds_fills array (polledCount infos) ⟨0, []⟩ infos fitting rfl (by simp)
  have counts := @socksPollfds_counts array ⟨0, []⟩ infos fitting
  simp only [Nat.zero_add, List.nil_append] at fills counts entries reads
  rw [slotsFrom, ← List.range_eq_range'] at reads
  refine ⟨infos', pfds, counts, fills, length, reads, ?_, ?_⟩
  · exact forall_of_forall₂ (P := fun _ => True) (fun _ _ _ both => both.2) entries fun _ _ => trivial
  · intro reported whole info member
    refine (sockinfoCheck_ok_iff reported info).mpr fun slot pointer => ?_
    have among : slot ∈ infos'.flatMap sockinfoLoads := List.mem_flatMap.mpr ⟨info, member, pointer⟩
    rw [reads] at among
    obtain ⟨index, inside, rfl⟩ := List.mem_map.mp among
    exact loadRevents_slot (whole ▸ List.mem_range.mp inside)

/-- The entries agree with their states, and a poll on them goes through. -/
structure PollsWell {κ : Type} (server : Server κ) : Prop where
  agrees : ∀ info ∈ server.socks.sockinfos, info.Agrees
  round : ∀ array, ∃ infos' count pfds, Round array server.socks.sockinfos infos' count pfds
  polls : ∀ calloc ready, ∃ result, pollAll calloc ready server = .ok result

theorem pollsWell_of_sound {κ : Type} {server : Server κ}
    (sound : ∀ info ∈ server.socks.sockinfos, info.Sound) : PollsWell server where
  agrees := fun info member => (sound info member).fitting.agrees
  round := fun array => by
    obtain ⟨infos', pfds, round⟩ := round_of_fitting array fun info member => (sound info member).fitting
    exact ⟨infos', _, pfds, round⟩
  polls := fun calloc ready => by
    obtain ⟨infos', checked, polled, _⟩ := socksPoll_polledTo server.polls calloc ready
      (fun info member => (sound info member).fitting)
      (fun info member => (sound info member).unreleased)
    rw [pollAll, polled]
    cases checked with
    | none => exact ⟨_, rfl⟩
    | some entries => exact ⟨_, rfl⟩

def Sockinfo.listens (servsock : Nat) : Sockinfo where
  type := .mfdLstn
  state := .mssLstn
  inEnd := sockendInit servsock
  outEnd := sockendInit (-1)
  revents := Revents.none

theorem sound_listens (servsock : Nat) : (Sockinfo.listens servsock).Sound :=
  ⟨⟨rfl, Int.natCast_nonneg servsock, rfl⟩, fun _ => ⟨rfl, rfl⟩⟩

structure Started {κ : Type} (servsock : Nat) (state : κ) (server : Server κ) : Prop where
  entries : server.socks.sockinfos = [.listens servsock]
  state : server.state = state
  log : server.log = [(0, .created servsock)]

theorem serverStart_starts {κ : Type} {realloc : Nat → Bool} {servsock : Nat} {state : κ}
    {server : Server κ} (started : serverStart realloc servsock state = .ok (some server)) :
    Started servsock state server := by
  unfold serverStart at started
  split at started
  · cases started
  rename_i info made
  split at started
  · cases started
  rename_i socks added
  cases started
  cases made
  exact ⟨socksAdd_sockinfos added, rfl, rfl⟩

theorem serverStart_entries {κ : Type} {realloc : Nat → Bool} {servsock : Nat} {state : κ}
    {server : Server κ} (started : serverStart realloc servsock state = .ok (some server)) :
    ∀ info ∈ server.socks.sockinfos, info.Sound ∧ info.type = .mfdLstn := by
  intro info member
  rw [(serverStart_starts started).entries] at member
  rw [List.mem_singleton.mp member]
  exact ⟨sound_listens servsock, rfl⟩

def AlwaysPollsWell {κ : Type} (hi : HandlerInfo κ) : Prop :=
  ∀ realloc servsock state server running,
    serverStart realloc servsock state = .ok (some server) → Reaches hi ⟨server, 0, 0⟩ running →
    PollsWell running.server

theorem pollSet_agrees {κ : Type} (program : Program κ) : AlwaysPollsWell program.hi :=
  fun _ _ _ _ _ started reaches =>
    pollsWell_of_sound ((entrywise_sound program.turns).runs reaches fun info member =>
      (serverStart_entries started info member).1)

end Middfs
