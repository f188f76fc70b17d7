import Middfs.Lib.Sock

/-!
# Packing the socket array

`middfs_socks_pack` moves the open entries to the front, and counts those it
finds open when it comes to them.  Behind the first closed entry it finds none:
each one that it could count was moved away before.
-/

set_option autoImplicit false

namespace Middfs

/-- An entry that is moved leaves a closed one behind. -/
theorem sockinfoMove_closed (info : Sockinfo) : sockinfoIsopen (sockinfoMove info).2 = false := rfl

/-- The inner loop finds the first entry that is open. -/
theorem socksPackFind_eq_some {infos rest : List Sockinfo} {dst : Sockinfo}
    (found : socksPackFind infos = some (dst, rest)) :
    sockinfoIsopen dst = true ∧ rest.length = infos.length ∧
      infos.filter sockinfoIsopen = dst :: rest.filter sockinfoIsopen := by
  induction infos generalizing rest with
  | nil => cases found
  | cons info infos ih =>
      unfold socksPackFind at found
      by_cases isOpen : sockinfoIsopen info = true
      · rw [if_pos isOpen] at found
        cases found
        refine ⟨isOpen, rfl, ?_⟩
        have closed : ¬ sockinfoIsopen (sockinfoMove dst).2 = true := by
          rw [sockinfoMove_closed]
          exact Bool.false_ne_true
        exact (List.filter_cons_of_pos isOpen).trans
          (congrArg (dst :: ·) (List.filter_cons_of_neg closed).symm)
      · rw [if_neg isOpen] at found
        obtain ⟨⟨moved, tail⟩, later, same⟩ := Option.map_eq_some_iff.mp found
        cases same
        obtain ⟨opened, length, split⟩ := ih later
        rw [List.filter_cons_of_neg isOpen, List.filter_cons_of_neg isOpen]
        exact ⟨opened, congrArg (· + 1) length, split⟩

theorem socksPackFind_eq_none {infos : List Sockinfo} :
    socksPackFind infos = none ↔ infos.filter sockinfoIsopen = [] := by
  induction infos with
  | nil => exact iff_of_true rfl rfl
  | cons info infos ih =>
      unfold socksPackFind
      by_cases isOpen : sockinfoIsopen info = true
      · rw [if_pos isOpen, List.filter_cons_of_pos isOpen]
        exact iff_of_false (nomatch ·) (List.cons_ne_nil _ _)
      · rw [if_neg isOpen, List.filter_cons_of_neg isOpen, Option.map_eq_none_iff]
        exact ih

/-! ## What is moved and what is counted -/

/-- The open entries stand at the front, in their order. -/
theorem socksPackLoop_filter (left : Nat) {infos : List Sockinfo} (length : infos.length = left) :
    ∃ closed, (socksPackLoop left infos).1 = infos.filter sockinfoIsopen ++ closed ∧
      closed.filter sockinfoIsopen = [] := by
  induction left generalizing infos with
  | zero =>
      cases List.length_eq_zero_iff.mp length
      exact ⟨[], rfl, rfl⟩
  | succ left ih =>
      cases infos with
      | nil => cases length
      | cons info infos =>
          have shorter : infos.length = left := Nat.succ.inj length
          unfold socksPackLoop
          by_cases isOpen : sockinfoIsopen info = true
          · obtain ⟨closed, packed, none⟩ := ih shorter
            refine ⟨closed, ?_, none⟩
            rw [if_pos isOpen, List.filter_cons_of_pos isOpen, List.cons_append, ← packed]
          rw [if_neg isOpen, List.filter_cons_of_neg isOpen]
          cases search : socksPackFind infos with
          | none =>
              have allClosed := socksPackFind_eq_none.mp search
              obtain ⟨closed, packed, none⟩ := ih shorter
              rw [allClosed, List.nil_append] at packed
              refine ⟨info :: closed, by simp only [packed, allClosed, List.nil_append], ?_⟩
              rw [List.filter_cons_of_neg isOpen, none]
          | some pair =>
              obtain ⟨dst, rest⟩ := pair
              obtain ⟨_, same, split⟩ := socksPackFind_eq_some search
              obtain ⟨closed, packed, none⟩ := ih (same.trans shorter)
              refine ⟨closed, ?_, none⟩
              rw [split, List.cons_append, ← packed]

def FrontClosed (infos : List Sockinfo) : Prop :=
  ∀ info, infos.head? = some info → sockinfoIsopen info = false

theorem socksPackFind_frontClosed {infos rest : List Sockinfo} {dst : Sockinfo}
    (found : socksPackFind infos = some (dst, rest)) : FrontClosed rest := by
  cases infos with
  | nil => cases found
  | cons info infos =>
      unfold socksPackFind at found
      by_cases isOpen : sockinfoIsopen info = true
      · rw [if_pos isOpen] at found
        cases found
        intro front same
        cases same
        exact sockinfoMove_closed dst
      · rw [if_neg isOpen] at found
        obtain ⟨⟨moved, tail⟩, later, same⟩ := Option.map_eq_some_iff.mp found
        cases same
        intro front same
        cases same
        exact Bool.eq_false_iff.mpr isOpen

theorem frontClosed_of_filter {infos : List Sockinfo} (none : infos.filter sockinfoIsopen = []) :
    FrontClosed infos := by
  intro info front
  cases infos with
  | nil => cases front
  | cons first infos =>
      cases front
      exact Bool.eq_false_iff.mpr (List.filter_eq_nil_iff.mp none info List.mem_cons_self)

/-- After a closed entry nothing is counted any more. -/
theorem socksPackLoop_frontClosed (left : Nat) {infos : List Sockinfo}
    (closed : FrontClosed infos) : (socksPackLoop left infos).2 = 0 := by
  induction left generalizing infos with
  | zero => rfl
  | succ left ih =>
      cases infos with
      | nil => rfl
      | cons info infos =>
          unfold socksPackLoop
          rw [if_neg (Bool.eq_false_iff.mp (closed info rfl))]
          cases search : socksPackFind infos with
          | none => exact ih (frontClosed_of_filter (socksPackFind_eq_none.mp search))
          | some pair => exact ih (socksPackFind_frontClosed search)

/-- What is counted are the open entries before the first closed one. -/
theorem socksPackLoop_count (left : Nat) {infos : List Sockinfo} (length : infos.length = left) :
    (socksPackLoop left infos).2 = (infos.takeWhile sockinfoIsopen).length := by
  induction left generalizing infos with
  | zero =>
      cases List.length_eq_zero_iff.mp length
      rfl
  | succ left ih =>
      cases infos with
      | nil => cases length
      | cons info infos =>
          by_cases isOpen : sockinfoIsopen info = true
          · have later := ih (Nat.succ.inj length)
            rw [List.takeWhile_cons_of_pos isOpen, List.length_cons, ← later, socksPackLoop,
              if_pos isOpen]
          · rw [List.takeWhile_cons_of_neg isOpen]
            refine socksPackLoop_frontClosed (left + 1) fun front same => ?_
            cases same
            exact Bool.eq_false_iff.mpr isOpen

/-! ## Losing no open socket -/

/-- The entries in use are those that were open, and so many are reported. -/
structure PacksAll (socks : Socks) : Prop where
  entries : (socksPack socks).1.sockinfos = socks.sockinfos.filter sockinfoIsopen
  count : (socksPack socks).1.count = (socks.sockinfos.filter sockinfoIsopen).length
  returned : (socksPack socks).2 = (socks.sockinfos.filter sockinfoIsopen).length

def OpenFirst (infos : List Sockinfo) : Prop :=
  infos.Pairwise fun earlier later => sockinfoIsopen later = true → sockinfoIsopen earlier = true

theorem takeWhile_eq_filter_iff {α : Type} (p : α → Bool) (xs : List α) :
    (xs.takeWhile p).length = (xs.filter p).length ↔
      xs.Pairwise fun earlier later => p later = true → p earlier = true := by
  induction xs with
  | nil => exact iff_of_true rfl List.Pairwise.nil
  | cons x xs ih =>
      rw [List.pairwise_cons]
      by_cases holds : p x = true
      · rw [List.takeWhile_cons_of_pos holds, List.filter_cons_of_pos holds, List.length_cons,
          List.length_cons, Nat.succ_inj, ih]
        exact ⟨fun rest => ⟨fun _ _ _ => holds, rest⟩, And.right⟩
      · rw [List.takeWhile_cons_of_neg holds, List.filter_cons_of_neg holds]
        have nothing : ([] : List α).length = (xs.filter p).length ↔ ∀ y ∈ xs, ¬ p y = true := by
          rw [List.length_nil, eq_comm, List.length_eq_zero_iff, List.filter_eq_nil_iff]
        rw [nothing]
        constructor
        · intro none
          refine ⟨fun y member isOpen => absurd isOpen (none y member), ?_⟩
          refine List.pairwise_of_forall_mem_list fun _ _ y member isOpen => ?_
          exact absurd isOpen (none y member)
        · rintro ⟨before, _⟩ y member isOpen
          exact holds (before y member isOpen)

/-- Packing loses no socket exactly when there was nothing to be moved. -/
theorem packsAll_iff (socks : Socks) : PacksAll socks ↔ OpenFirst socks.sockinfos := by
  have counted := @socksPackLoop_count socks.count socks.sockinfos rfl
  have returned : (socksPack socks).2 = (socks.sockinfos.takeWhile sockinfoIsopen).length := counted
  rw [OpenFirst, ← takeWhile_eq_filter_iff sockinfoIsopen]
  constructor
  · intro packs
    rw [← returned, packs.returned]
  · intro same
    obtain ⟨closed, packed, _⟩ := @socksPackLoop_filter socks.count socks.sockinfos rfl
    have entries : (socksPack socks).1.sockinfos = socks.sockinfos.filter sockinfoIsopen := by
      simp only [socksPack, counted, same, packed]
      rw [List.take_left]
    exact ⟨entries, congrArg List.length entries, returned.trans same⟩

def closedThenOpen : Socks where
  sockinfos :=
    [ { type := .mfdNone, state := .mssNone, inEnd := sockendInit (-1), outEnd := sockendInit (-1),
        revents := Revents.none },
      { type := .mfdLstn, state := .mssLstn, inEnd := sockendInit 3, outEnd := sockendInit (-1),
        revents := Revents.none } ]
  spare := 14

/-- It is moved to the front and dropped. -/
theorem closedThenOpen_loses :
    (socksPack closedThenOpen).1.sockinfos = [] ∧ ¬ PacksAll closedThenOpen := by
  refine ⟨rfl, fun packs => ?_⟩
  have entries := packs.returned
  exact absurd entries (by decide)

end Middfs
