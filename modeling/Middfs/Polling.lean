import Middfs.Lib.Conn

/-!
# What a poll does to the entries

`middfs_socks_poll` counts the ends that are polled on, points each of them at
a slot of the array it fills in, and then reads the slots.  On entries whose
descriptors agree with their states it neither fails an assertion nor reads a
slot that is not there, and an entry either gets the events that were reported
for the end it waits on, or is deleted.
-/

set_option autoImplicit false

namespace Middfs

/-- The descriptors agree with the type and the state. -/
def Sockinfo.Fitting (info : Sockinfo) : Prop :=
  match info.type with
  | .mfdNone => info.inEnd.fd = -1 ∧ info.outEnd.fd = -1
  | .mfdPktOut => False
  | .mfdLstn => info.state = .mssLstn ∧ 0 ≤ info.inEnd.fd ∧ info.outEnd.fd = -1
  | .mfdPktIn =>
      match info.state with
      | .mssReqrd => 0 ≤ info.inEnd.fd ∧ info.outEnd.fd = -1
      | .mssReqfwd | .mssRspfwd => 0 ≤ info.inEnd.fd ∧ 0 ≤ info.outEnd.fd
      | .mssRspwr => -1 ≤ info.inEnd.fd ∧ 0 ≤ info.outEnd.fd
      | .mssNone | .mssClosed | .mssLstn => False

def Sockinfo.Unreleased (info : Sockinfo) : Prop :=
  info.type ≠ .mfdNone → info.inEnd.buf.freed = false ∧ info.outEnd.buf.freed = false

/-- Two entries that differ in nothing but where their `revents` pointers point. -/
structure SameButSlots (info info' : Sockinfo) : Prop where
  type : info'.type = info.type
  state : info'.state = info.state
  revents : info'.revents = info.revents
  inFd : info'.inEnd.fd = info.inEnd.fd
  inBuf : info'.inEnd.buf = info.inEnd.buf
  outFd : info'.outEnd.fd = info.outEnd.fd
  outBuf : info'.outEnd.buf = info.outEnd.buf

theorem SameButSlots.refl (info : Sockinfo) : SameButSlots info info :=
  ⟨rfl, rfl, rfl, rfl, rfl, rfl, rfl⟩

theorem SameButSlots.trans {a b c : Sockinfo} (first : SameButSlots a b)
    (second : SameButSlots b c) : SameButSlots a c where
  type := second.type.trans first.type
  state := second.state.trans first.state
  revents := second.revents.trans first.revents
  inFd := second.inFd.trans first.inFd
  inBuf := second.inBuf.trans first.inBuf
  outFd := second.outFd.trans first.outFd
  outBuf := second.outBuf.trans first.outBuf

theorem watchesOut_of_watchesIn {state : SockState} (watched : state.watchesIn = true) :
    state.watchesOut = false := by
  cases state <;> first | rfl | cases watched

/-- The end an entry waits on has a descriptor. -/
theorem Sockinfo.Fitting.watched {info : Sockinfo} (fitting : info.Fitting)
    (inUse : info.type ≠ .mfdNone) :
    (info.state.watchesIn = true → 0 ≤ info.inEnd.fd) ∧
      (info.state.watchesOut = true → 0 ≤ info.outEnd.fd) := by
  unfold Sockinfo.Fitting at fitting
  cases type : info.type with
  | mfdNone => exact absurd type inUse
  | mfdPktOut => simp [type] at fitting
  | mfdLstn =>
      simp only [type] at fitting
      rw [fitting.1]
      exact ⟨fun _ => fitting.2.1, fun impossible => (nomatch impossible)⟩
  | mfdPktIn =>
      simp only [type] at fitting
      cases state : info.state with
      | mssReqrd => exact ⟨fun _ => by simp only [state] at fitting; exact fitting.1, fun no => (nomatch no)⟩
      | mssReqfwd => exact ⟨fun no => (nomatch no), fun _ => by simp only [state] at fitting; exact fitting.2⟩
      | mssRspfwd => exact ⟨fun _ => by simp only [state] at fitting; exact fitting.1, fun no => (nomatch no)⟩
      | mssRspwr => exact ⟨fun no => (nomatch no), fun _ => by simp only [state] at fitting; exact fitting.2⟩
      | mssNone => simp only [state] at fitting
      | mssClosed => simp only [state] at fitting
      | mssLstn => simp only [state] at fitting

/-! ## Pointing the ends at slots -/

/-- Whether `middfs_sockinfo_pollfds` uses a slot for the entry. -/
def Sockinfo.polled (info : Sockinfo) : Bool :=
  info.type != .mfdNone && (info.state.watchesIn || info.state.watchesOut)

def polledCount (infos : List Sockinfo) : Nat := infos.countP Sockinfo.polled

/-- In the array of `pfds`, the slot a pointer points to is for `fd`. -/
def PointsTo (array : Nat) (pfds : List Pollfd) (revents : Option Slot) (pfd : Pollfd) : Prop :=
  ∃ index, revents = some ⟨array, index⟩ ∧ pfds[index]? = some pfd

/-- Where the pointers of an entry point after the array was filled in. -/
structure Aimed (array : Nat) (pfds : List Pollfd) (info : Sockinfo) : Prop where
  inEnd : info.type ≠ .mfdNone → info.state.watchesIn = true →
    PointsTo array pfds info.inEnd.revents ⟨info.inEnd.fd, .pollin⟩
  outEnd : info.type ≠ .mfdNone → info.state.watchesOut = true →
    PointsTo array pfds info.outEnd.revents ⟨info.outEnd.fd, .pollout⟩

/-- The pointers that `middfs_sockend_check` reads through. -/
def sockendLoads (sockend : Sockend) : List (Option Slot) :=
  if sockend.fd < 0 then [] else [sockend.revents]

def sockinfoLoads (info : Sockinfo) : List (Option Slot) :=
  (if info.state.watchesIn then sockendLoads info.inEnd else []) ++
    if info.state.watchesOut then sockendLoads info.outEnd else []

def slotsFrom (array first count : Nat) : List (Option Slot) :=
  (List.range' first count).map fun index => some ⟨array, index⟩

theorem slotsFrom_append (array first m n : Nat) :
    slotsFrom array first m ++ slotsFrom array (first + m) n = slotsFrom array first (m + n) := by
  have ranges : List.range' first m ++ List.range' (first + m) n = List.range' first (m + n) := by
    simp
  rw [slotsFrom, slotsFrom, ← List.map_append, ranges, slotsFrom]

theorem sockendLoads_open {sockend : Sockend} (opened : 0 ≤ sockend.fd) :
    sockendLoads sockend = [sockend.revents] := if_neg (Int.not_lt.mpr opened)

/-- An entry that is not in use is checked, and no pointer is read through. -/
theorem sockinfoLoads_unused {info : Sockinfo} (fitting : info.Fitting) (unused : info.type = .mfdNone) :
    sockinfoLoads info = [] := by
  have shut : info.inEnd.fd = -1 ∧ info.outEnd.fd = -1 := by
    unfold Sockinfo.Fitting at fitting
    simp only [unused] at fitting
    exact fitting
  have none_ : ∀ sockend : Sockend, sockend.fd = -1 → sockendLoads sockend = [] :=
    fun sockend fd => if_pos (by omega)
  rw [sockinfoLoads, none_ _ shut.1, none_ _ shut.2, ite_self, ite_self, List.append_nil]

theorem PointsTo.grow {array : Nat} {pfds more : List Pollfd} {revents : Option Slot} {pfd : Pollfd}
    (points : PointsTo array pfds revents pfd) : PointsTo array (pfds ++ more) revents pfd := by
  obtain ⟨index, pointer, held⟩ := points
  exact ⟨index, pointer, by
    rw [List.getElem?_append_left (List.getElem?_eq_some_iff.mp held).1]; exact held⟩

theorem Aimed.grow {array : Nat} {pfds more : List Pollfd} {info : Sockinfo}
    (aimed : Aimed array pfds info) : Aimed array (pfds ++ more) info where
  inEnd := fun inUse watched => (aimed.inEnd inUse watched).grow
  outEnd := fun inUse watched => (aimed.outEnd inUse watched).grow

section Pollfds
variable {array nfds : Nat} {sockend : Sockend} {polled : Polled}

theorem sockendPollfd_counts (polarity : Polarity) (opened : 0 ≤ sockend.fd) :
    sockendPollfd array 0 polarity sockend polled = .ok (sockend, ⟨polled.used + 1, polled.pfds⟩) := by
  rw [sockendPollfd, if_pos opened, sizerem_eq_sub, if_neg (by omega)]

theorem sockendPollfd_fills (polarity : Polarity) (opened : 0 ≤ sockend.fd)
    (room : polled.used < nfds) :
    sockendPollfd array nfds polarity sockend polled =
      .ok ({ sockend with revents := some ⟨array, polled.used⟩ },
        ⟨polled.used + 1, polled.pfds ++ [⟨sockend.fd, polarity⟩]⟩) := by
  rw [sockendPollfd, if_pos opened, sizerem_eq_sub, if_pos (by omega)]

theorem pointsTo_last (used : polled.pfds.length = polled.used) (pfd : Pollfd) :
    PointsTo array (polled.pfds ++ [pfd]) (some ⟨array, polled.used⟩) pfd :=
  ⟨polled.used, rfl, by rw [← used, List.getElem?_concat_length]⟩

theorem sockinfoPollfds_counts {info : Sockinfo} (fitting : info.Fitting) :
    sockinfoPollfds array 0 info polled =
      .ok (info, ⟨polled.used + (if info.polled then 1 else 0), polled.pfds⟩) := by
  unfold sockinfoPollfds Sockinfo.polled
  by_cases unused : info.type = .mfdNone
  · rw [if_pos unused, unused]
    rfl
  obtain ⟨watchedIn, watchedOut⟩ := fitting.watched unused
  rw [if_neg unused, (bne_iff_ne (α := SockType)).mpr unused, Bool.true_and]
  unfold sockinfoPollfdsIn sockinfoPollfdsOut
  cases asIn : info.state.watchesIn with
  | true =>
      have asOut := watchesOut_of_watchesIn asIn
      simp only [asOut, sockendPollfd_counts .pollin (watchedIn asIn), if_true, Bool.true_or,
        Bool.false_eq_true, if_false]
  | false =>
      cases asOut : info.state.watchesOut with
      | true =>
          simp only [asOut, sockendPollfd_counts .pollout (watchedOut asOut), if_true, Bool.or_true,
            Bool.false_eq_true, if_false]
      | false => simp only [asOut, Bool.false_eq_true, if_false, Bool.or_false, Nat.add_zero]

/-- The pass that fills the array in. -/
theorem sockinfoPollfds_fills {info : Sockinfo} (fitting : info.Fitting)
    (used : polled.pfds.length = polled.used)
    (room : polled.used + (if info.polled then 1 else 0) ≤ nfds) :
    ∃ info' more, sockinfoPollfds array nfds info polled =
        .ok (info', ⟨polled.used + (if info.polled then 1 else 0), polled.pfds ++ more⟩) ∧
      more.length = (if info.polled then 1 else 0) ∧ SameButSlots info info' ∧
      Aimed array (polled.pfds ++ more) info' ∧
      sockinfoLoads info' = slotsFrom array polled.used (if info.polled then 1 else 0) := by
  unfold sockinfoPollfds Sockinfo.polled at *
  by_cases unused : info.type = .mfdNone
  · rw [if_pos unused, unused]
    refine ⟨info, [], by simp, rfl, SameButSlots.refl info, ?_, sockinfoLoads_unused fitting unused⟩
    exact ⟨fun inUse => absurd unused inUse, fun inUse => absurd unused inUse⟩
  obtain ⟨watchedIn, watchedOut⟩ := fitting.watched unused
  rw [if_neg unused]
  rw [(bne_iff_ne (α := SockType)).mpr unused, Bool.true_and] at *
  unfold sockinfoPollfdsIn sockinfoPollfdsOut
  cases asIn : info.state.watchesIn with
  | true =>
      have asOut := watchesOut_of_watchesIn asIn
      rw [asIn, Bool.true_or, if_pos rfl] at room
      simp only [asOut, sockendPollfd_fills .pollin (watchedIn asIn) (show polled.used < nfds by omega),
        if_true, Bool.true_or, Bool.false_eq_true, if_false]
      refine ⟨_, _, rfl, rfl, ⟨rfl, rfl, rfl, rfl, rfl, rfl, rfl⟩, ⟨?_, ?_⟩, ?_⟩
      · intro _ _
        exact pointsTo_last used _
      · intro _ no
        rw [asOut] at no
        cases no
      · simp only [sockinfoLoads, asIn, asOut, if_true, Bool.false_eq_true, if_false, List.append_nil]
        exact sockendLoads_open (watchedIn asIn)
  | false =>
      cases asOut : info.state.watchesOut with
      | true =>
          rw [asIn, asOut, Bool.or_true, if_pos rfl] at room
          simp only [asOut, sockendPollfd_fills .pollout (watchedOut asOut)
            (show polled.used < nfds by omega), if_true, Bool.or_true, Bool.false_eq_true, if_false]
          refine ⟨_, _, rfl, rfl, ⟨rfl, rfl, rfl, rfl, rfl, rfl, rfl⟩, ⟨?_, ?_⟩, ?_⟩
          · intro _ no
            rw [asIn] at no
            cases no
          · intro _ _
            exact pointsTo_last used _
          · simp only [sockinfoLoads, asIn, asOut, if_true, Bool.false_eq_true, if_false,
              List.nil_append]
            exact sockendLoads_open (watchedOut asOut)
      | false =>
          simp only [asOut, Bool.false_eq_true, if_false, Bool.or_false, Nat.add_zero]
          refine ⟨info, [], by simp, rfl, SameButSlots.refl info, ⟨?_, ?_⟩, ?_⟩
          · intro _ no
            rw [asIn] at no
            cases no
          · intro _ no
            rw [asOut] at no
            cases no
          · simp only [sockinfoLoads, asIn, asOut, Bool.false_eq_true, if_false, List.append_nil]
            rfl

theorem polledCount_cons (info : Sockinfo) (infos : List Sockinfo) :
    polledCount (info :: infos) = (if info.polled then 1 else 0) + polledCount infos := by
  rw [polledCount, List.countP_cons, Nat.add_comm]
  rfl

theorem socksPollfds_counts {infos : List Sockinfo} (fitting : ∀ info ∈ infos, info.Fitting) :
    socksPollfds array 0 infos polled =
      .ok (infos, ⟨polled.used + polledCount infos, polled.pfds⟩) := by
  induction infos generalizing polled with
  | nil => rfl
  | cons info infos ih =>
      rw [socksPollfds, sockinfoPollfds_counts (fitting info List.mem_cons_self)]
      simp only [ih fun other member => fitting other (List.mem_cons_of_mem info member),
        polledCount_cons, Nat.add_assoc]

theorem socksPollfds_fills {infos : List Sockinfo} (fitting : ∀ info ∈ infos, info.Fitting)
    (used : polled.pfds.length = polled.used) (room : polled.used + polledCount infos ≤ nfds) :
    ∃ infos' more, socksPollfds array nfds infos polled =
        .ok (infos', ⟨polled.used + polledCount infos, polled.pfds ++ more⟩) ∧
      more.length = polledCount infos ∧
      List.Forall₂ (fun info info' => SameButSlots info info' ∧ Aimed array (polled.pfds ++ more) info')
        infos infos' ∧
      infos'.flatMap sockinfoLoads = slotsFrom array polled.used (polledCount infos) := by
  induction infos generalizing polled with
  | nil => exact ⟨[], [], by simp [socksPollfds, polledCount], rfl, .nil, rfl⟩
  | cons info infos ih =>
      rw [polledCount_cons] at room ⊢
      obtain ⟨info', first, answer, length, same, aimed, loads⟩ :=
        @sockinfoPollfds_fills array nfds polled _ (fitting info List.mem_cons_self) used
          (by omega)
      obtain ⟨infos', more, rest, lengths, entries, later⟩ := @ih
        ⟨polled.used + (if info.polled then 1 else 0), polled.pfds ++ first⟩
        (fun other member => fitting other (List.mem_cons_of_mem info member))
        (by rw [List.length_append, used, length]) (by simp only; omega)
      refine ⟨info' :: infos', first ++ more, ?_, ?_, ?_, ?_⟩
      · rw [socksPollfds, answer]
        simp only [rest, List.append_assoc, Nat.add_assoc]
      · rw [List.length_append, length, lengths]
      · rw [← List.append_assoc]
        exact .cons ⟨same, aimed.grow⟩ entries
      · rw [List.flatMap_cons, loads, later, slotsFrom_append]

end Pollfds

/-! ## Deleting an entry -/

def Sockend.held (sockend : Sockend) : List Int := if sockend.fd ≥ 0 then [sockend.fd] else []

def Sockinfo.held (info : Sockinfo) : List Int := info.inEnd.held ++ info.outEnd.held

def Sockend.deleted (sockend : Sockend) : Sockend :=
  { sockend with
    buf := { sockend.buf with freed := true }, fd := if sockend.fd ≥ 0 then -1 else sockend.fd }

def Sockinfo.deleted (info : Sockinfo) : Sockinfo :=
  { info with type := .mfdNone, inEnd := info.inEnd.deleted, outEnd := info.outEnd.deleted }

theorem sockendDelete_eq {sockend : Sockend} (unreleased : sockend.buf.freed = false) :
    sockendDelete sockend = .ok (sockend.deleted, sockend.held) := by
  have released : bufferDelete sockend.buf = .ok { sockend.buf with freed := true } := by
    rw [bufferDelete, unreleased]
    simp
  rw [sockendDelete, released]
  unfold Sockend.deleted Sockend.held
  by_cases opened : sockend.fd ≥ 0
  · simp only [if_pos opened]
  · simp only [if_neg opened]

theorem sockinfoDelete_eq {info : Sockinfo} (inUnreleased : info.inEnd.buf.freed = false)
    (outUnreleased : info.outEnd.buf.freed = false) :
    sockinfoDelete info = .ok (info.deleted, info.held) := by
  rw [sockinfoDelete, sockendDelete_eq inUnreleased]
  simp only [sockendDelete_eq outUnreleased, Sockinfo.deleted, Sockinfo.held]

def Sockinfo.Bounded (info : Sockinfo) : Prop := -1 ≤ info.inEnd.fd ∧ -1 ≤ info.outEnd.fd

theorem Sockinfo.Bounded.deleted {info : Sockinfo} (bounded : info.Bounded) :
    info.deleted.Fitting := by
  have one : ∀ fd : Int, -1 ≤ fd → (if fd ≥ 0 then -1 else fd) = -1 := fun fd above => by
    split_ifs <;> omega
  exact ⟨one _ bounded.1, one _ bounded.2⟩

theorem Sockinfo.Fitting.bounded {info : Sockinfo} (fitting : info.Fitting) : info.Bounded := by
  unfold Sockinfo.Fitting at fitting
  unfold Sockinfo.Bounded
  cases type : info.type with
  | mfdPktIn =>
      simp only [type] at fitting
      cases state : info.state <;> simp only [state] at fitting <;> omega
  | _ => simp only [type] at fitting <;> omega

/-! ## Reading the slots -/

/-- The events an entry in a state can be handled with. -/
def SockState.Due (state : SockState) (revents : Revents) : Prop :=
  (state.watchesIn = true → revents = Revents.none ∨ revents = { pollin := true }) ∧
    (state.watchesOut = true → revents = Revents.none ∨ revents = { pollout := true })

/-- Some descriptor was reported to have an error or to be disconnected. -/
def Disturbed (ready : Nat → Revents) : Prop :=
  ∃ index, (ready index).pollerr = true ∨ (ready index).pollhup = true

/-- What a poll makes of an entry: it gets its events, or it is deleted. -/
inductive PolledTo (ready : Nat → Revents) (info : Sockinfo) : Sockinfo × List Int → Prop where
  | kept (info' : Sockinfo) (revents : Revents) : SameButSlots info info' →
      (info.type ≠ .mfdNone → info.state.Due revents) →
      PolledTo ready info ({ info' with revents := revents }, [])
  | deleted (info' : Sockinfo) : SameButSlots info info' → info.type ≠ .mfdNone → Disturbed ready →
      PolledTo ready info (info'.deleted, info.held)

section Check
variable {array : Nat} {pfds : List Pollfd} (ready : Nat → Revents)

theorem loadRevents_report {revents : Option Slot} {pfd : Pollfd}
    (points : PointsTo array pfds revents pfd) :
    ∃ index, loadRevents array (pfds.mapIdx fun i pfd => pfd.report (ready i)) revents =
      .ok (pfd.report (ready index)) := by
  obtain ⟨index, rfl, held⟩ := points
  refine ⟨index, ?_⟩
  simp only [loadRevents, if_true, List.getElem?_mapIdx, held, Option.map_some]

/-- The end is ignored, or its slot says what happened. -/
theorem sockendCheck_report {sockend : Sockend} {polarity : Polarity}
    (points : 0 ≤ sockend.fd → PointsTo array pfds sockend.revents ⟨sockend.fd, polarity⟩) :
    ∃ checked, sockendCheck array (pfds.mapIdx fun i pfd => pfd.report (ready i)) sockend =
        .ok checked ∧
      (checked = none → 0 ≤ sockend.fd ∧ Disturbed ready) ∧
      ∀ revents, checked = some revents → revents = Revents.none ∨ 0 ≤ sockend.fd ∧
        revents = { pollin := polarity == .pollin, pollout := polarity == .pollout } := by
  unfold sockendCheck
  split_ifs with shut
  · exact ⟨_, rfl, (nomatch ·), fun revents same => Or.inl (Option.some.inj same).symm⟩
  have opened : 0 ≤ sockend.fd := by omega
  obtain ⟨index, loaded⟩ := loadRevents_report ready (points opened)
  rw [loaded]
  cases failing : (ready index).pollerr || (ready index).pollhup with
  | true =>
      refine ⟨none, by simp only [Pollfd.report, failing, if_true], fun _ => ⟨opened, index, ?_⟩,
        fun revents same => (nomatch same)⟩
      rw [Bool.or_eq_true] at failing
      exact failing
  | false =>
      refine ⟨some (Pollfd.report ⟨sockend.fd, polarity⟩ (ready index)), ?_, (nomatch ·), ?_⟩
      · simp only [Pollfd.report, failing, Bool.false_eq_true, if_false]
      rw [Bool.or_eq_false_iff] at failing
      intro revents same
      obtain rfl := Option.some.inj same
      simp only [Pollfd.report, failing.1, failing.2]
      cases polarity with
      | pollin => cases (ready index).pollin <;> simp [Revents.none, opened]
      | pollout => cases (ready index).pollout <;> simp [Revents.none, opened]

theorem Revents.or_none (r : Revents) : r.or Revents.none = r := by
  cases r
  simp [Revents.or, Revents.none]

theorem Revents.none_or (r : Revents) : Revents.none.or r = r := by
  cases r
  simp [Revents.or, Revents.none]

theorem sockinfoCheck_watched {info : Sockinfo} (reported : List Revents) :
    (info.state.watchesIn = true → sockinfoCheck array reported info =
      (sockendCheck array reported info.inEnd).map fun checked =>
        checked.map fun revents => { info with revents := revents }) ∧
    (info.state.watchesOut = true → sockinfoCheck array reported info =
      (sockendCheck array reported info.outEnd).map fun checked =>
        checked.map fun revents => { info with revents := revents }) ∧
    (info.state.watchesIn = false → info.state.watchesOut = false →
      sockinfoCheck array reported info = .ok (some { info with revents := Revents.none })) := by
  unfold sockinfoCheck
  refine ⟨fun watched => ?_, fun watched => ?_, fun noIn noOut => ?_⟩
  · rw [watched, watchesOut_of_watchesIn watched]
    simp only [if_true, Bool.false_eq_true, if_false]
    cases sockendCheck array reported info.inEnd with
    | error trap => rfl
    | ok checked =>
        cases checked with
        | none => rfl
        | some revents => simp only [Revents.or_none]; rfl
  · have noIn : info.state.watchesIn = false := by
      cases asIn : info.state.watchesIn with
      | false => rfl
      | true =>
          rw [watchesOut_of_watchesIn asIn] at watched
          cases watched
    rw [watched, noIn]
    simp only [if_true, Bool.false_eq_true, if_false]
    cases sockendCheck array reported info.outEnd with
    | error trap => rfl
    | ok checked =>
        cases checked with
        | none => rfl
        | some revents => simp only [Revents.none_or]; rfl
  · rw [noIn, noOut]
    simp only [Bool.false_eq_true, if_false, Revents.none_or]

theorem sockendCheck_ok_iff (reported : List Revents) (sockend : Sockend) :
    (∃ checked, sockendCheck array reported sockend = .ok checked) ↔
      ∀ slot ∈ sockendLoads sockend, ∃ revents, loadRevents array reported slot = .ok revents := by
  unfold sockendCheck sockendLoads
  split_ifs with shut
  · exact iff_of_true ⟨_, rfl⟩ fun slot no => absurd no List.not_mem_nil
  · cases loaded : loadRevents array reported sockend.revents with
    | error trap =>
        refine iff_of_false (fun ⟨_, no⟩ => by cases no) fun loads => ?_
        obtain ⟨_, no⟩ := loads _ (List.mem_singleton_self _)
        rw [loaded] at no
        cases no
    | ok revents =>
        refine iff_of_true ⟨_, rfl⟩ fun slot member => ?_
        rw [List.mem_singleton.mp member]
        exact ⟨revents, loaded⟩

/-- The check of an entry reads through its pointers and does nothing else that
can go wrong. -/
theorem sockinfoCheck_ok_iff (reported : List Revents) (info : Sockinfo) :
    (∃ checked, sockinfoCheck array reported info = .ok checked) ↔
      ∀ slot ∈ sockinfoLoads info, ∃ revents, loadRevents array reported slot = .ok revents := by
  have reads : ∀ (watched : Bool) (sockend : Sockend),
      (∃ checked, (if watched then sockendCheck array reported sockend else .ok (some Revents.none)) =
        .ok checked) ↔
      ∀ slot ∈ (if watched then sockendLoads sockend else []),
        ∃ revents, loadRevents array reported slot = .ok revents := by
    intro watched sockend
    cases watched with
    | true => exact sockendCheck_ok_iff reported sockend
    | false => exact iff_of_true ⟨_, rfl⟩ fun slot no => absurd no List.not_mem_nil
  have both : (∃ checked, sockinfoCheck array reported info = .ok checked) ↔
      (∃ checked, (if info.state.watchesIn then sockendCheck array reported info.inEnd
          else .ok (some Revents.none)) = .ok checked) ∧
        ∃ checked, (if info.state.watchesOut then sockendCheck array reported info.outEnd
          else .ok (some Revents.none)) = .ok checked := by
    simp only [sockinfoCheck]
    cases (if info.state.watchesIn then sockendCheck array reported info.inEnd
        else .ok (some Revents.none)) with
    | error trap => simp
    | ok reventsIn =>
        cases (if info.state.watchesOut then sockendCheck array reported info.outEnd
            else .ok (some Revents.none)) with
        | error trap => simp
        | ok reventsOut => cases reventsIn <;> cases reventsOut <;> simp
  rw [both, reads, reads, sockinfoLoads]
  simp only [List.mem_append, or_imp, forall_and]

theorem SameButSlots.fitting {info info' : Sockinfo} (same : SameButSlots info info')
    (fitting : info.Fitting) : info'.Fitting := by
  unfold Sockinfo.Fitting at *
  rw [same.type, same.state, same.inFd, same.outFd]
  exact fitting

theorem SameButSlots.held {info info' : Sockinfo} (same : SameButSlots info info') :
    info'.held = info.held := by
  unfold Sockinfo.held Sockend.held
  rw [same.inFd, same.outFd]

theorem Sockinfo.Fitting.inUse {info : Sockinfo} (fitting : info.Fitting)
    (opened : 0 ≤ info.inEnd.fd ∨ 0 ≤ info.outEnd.fd) : info.type ≠ .mfdNone := by
  intro unused
  unfold Sockinfo.Fitting at fitting
  simp only [unused] at fitting
  omega

theorem checkEntry_polledTo {info info' : Sockinfo} (fitting : info.Fitting)
    (unreleased : info.Unreleased) (same : SameButSlots info info') (aimed : Aimed array pfds info') :
    ∃ checked, checkEntry array (pfds.mapIdx fun i pfd => pfd.report (ready i)) info' = .ok checked ∧
      PolledTo ready info checked := by
  have fits := same.fitting fitting
  -- what the check of the end that is waited on comes to
  have ofEnd : ∀ (sockend : Sockend) (polarity : Polarity),
      (0 ≤ sockend.fd → info'.type ≠ .mfdNone) →
      (0 ≤ sockend.fd → PointsTo array pfds sockend.revents ⟨sockend.fd, polarity⟩) →
      (∀ revents, revents = Revents.none ∨
          revents = { pollin := polarity == .pollin, pollout := polarity == .pollout } →
        info.state.Due revents) →
      sockinfoCheck array (pfds.mapIdx fun i pfd => pfd.report (ready i)) info' =
        (sockendCheck array (pfds.mapIdx fun i pfd => pfd.report (ready i)) sockend).map
          (fun checked => checked.map fun revents => { info' with revents := revents }) →
      ∃ checked, checkEntry array (pfds.mapIdx fun i pfd => pfd.report (ready i)) info' =
        .ok checked ∧ PolledTo ready info checked := by
    intro sockend polarity inUse points due answer
    obtain ⟨checked, eq, failing, reports⟩ := sockendCheck_report ready points
    rw [checkEntry, answer, eq]
    cases checked with
    | none =>
        obtain ⟨opened, disturbed⟩ := failing rfl
        have used : info.type ≠ .mfdNone := same.type ▸ inUse opened
        refine ⟨(info'.deleted, info'.held), ?_, same.held ▸ .deleted info' same used disturbed⟩
        obtain ⟨inUnreleased, outUnreleased⟩ := unreleased used
        exact sockinfoDelete_eq (same.inBuf ▸ inUnreleased) (same.outBuf ▸ outUnreleased)
    | some revents =>
        refine ⟨_, rfl, .kept info' revents same fun _ => due revents ?_⟩
        exact (reports revents rfl).imp_right And.right
  obtain ⟨watchedIn, watchedOut, unwatched⟩ :=
    @sockinfoCheck_watched array info'
      (pfds.mapIdx fun i pfd => pfd.report (ready i))
  cases asIn : info'.state.watchesIn with
  | true =>
      refine ofEnd info'.inEnd .pollin (fun opened => fits.inUse (.inl opened))
        (fun opened => aimed.inEnd (fits.inUse (.inl opened)) asIn) ?_ (watchedIn asIn)
      intro revents reported
      refine ⟨fun _ => reported, fun asOut => ?_⟩
      rw [← same.state, watchesOut_of_watchesIn asIn] at asOut
      cases asOut
  | false =>
      cases asOut : info'.state.watchesOut with
      | true =>
          refine ofEnd info'.outEnd .pollout (fun opened => fits.inUse (.inr opened))
            (fun opened => aimed.outEnd (fits.inUse (.inr opened)) asOut) ?_ (watchedOut asOut)
          intro revents reported
          refine ⟨fun noIn => ?_, fun _ => reported⟩
          rw [← same.state, asIn] at noIn
          cases noIn
      | false =>
          rw [checkEntry, unwatched asIn asOut]
          refine ⟨_, rfl, .kept info' Revents.none same fun _ => ⟨fun _ => .inl rfl, fun _ => .inl rfl⟩⟩

theorem socksCheck_polledTo {infos infos' : List Sockinfo} (fitting : ∀ info ∈ infos, info.Fitting)
    (unreleased : ∀ info ∈ infos, info.Unreleased)
    (aimed : List.Forall₂ (fun info info' => SameButSlots info info' ∧ Aimed array pfds info')
      infos infos') :
    ∃ checked, socksCheck array (pfds.mapIdx fun i pfd => pfd.report (ready i)) infos' = .ok checked ∧
      List.Forall₂ (PolledTo ready) infos checked := by
  unfold socksCheck
  induction aimed with
  | nil => exact ⟨[], rfl, .nil⟩
  | @cons info info' infos infos' head _ ih =>
      obtain ⟨checked, answer, polled⟩ := checkEntry_polledTo ready
        (fitting info List.mem_cons_self) (unreleased info List.mem_cons_self) head.1 head.2
      obtain ⟨rest, answers, entries⟩ := ih
        (fun other member => fitting other (List.mem_cons_of_mem info member))
        (fun other member => unreleased other (List.mem_cons_of_mem info member))
      refine ⟨checked :: rest, ?_, .cons polled entries⟩
      rw [List.mapM_cons, answer, answers]
      rfl

end Check

/-- The pointers have no influence beyond the poll that set them. -/
theorem socksPoll_polledTo (array : Nat) (calloc : Bool) (ready : Option (Nat → Revents))
    {infos : List Sockinfo} (fitting : ∀ info ∈ infos, info.Fitting)
    (unreleased : ∀ info ∈ infos, info.Unreleased) :
    ∃ infos' checked, socksPoll array calloc ready infos = .ok (infos', checked) ∧
      List.Forall₂ SameButSlots infos infos' ∧
      (calloc = true → ready.isSome = true → checked.isSome = true) ∧
      ∀ entries, checked = some entries →
        ∃ reported, ready = some reported ∧ List.Forall₂ (PolledTo reported) infos entries := by
  rw [socksPoll, socksPollfds_counts fitting]
  cases calloc with
  | false =>
      exact ⟨infos, none, rfl, List.forall₂_same.mpr fun info _ => SameButSlots.refl info,
        (nomatch ·), fun _ no => (nomatch no)⟩
  | true =>
      obtain ⟨infos', pfds, answer, _, aimed, _⟩ :=
        @socksPollfds_fills array (0 + polledCount infos) ⟨0, []⟩ infos
          fitting rfl (le_refl _)
      simp only [if_true, answer]
      have same := aimed.imp fun _ _ both => both.1
      cases ready with
      | none => exact ⟨infos', none, rfl, same, fun _ no => (nomatch no), fun _ no => (nomatch no)⟩
      | some ready =>
          obtain ⟨checked, checks, entries⟩ :=
            socksCheck_polledTo ready fitting unreleased aimed
          simp only [List.nil_append] at checks ⊢
          rw [checks]
          refine ⟨infos', some checked, rfl, same, fun _ _ => rfl, fun entries' same => ?_⟩
          obtain rfl := Option.some.inj same
          exact ⟨ready, rfl, entries⟩

end Middfs
