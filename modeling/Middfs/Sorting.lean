import Mathlib.Data.List.Sort

/-!
# Sorting and searching with a comparison function

What C says of qsort(3) and bsearch(3), for any comparison function that orders
its arguments.  Neither says which of several equal elements comes first, or
which of them is found.
-/

set_option autoImplicit false

namespace Middfs.Sorting

variable {α : Type}

/-- `cmp` orders its arguments: its sign says which comes first. -/
structure Consistent (cmp : α → α → Int) : Prop where
  antisymm : ∀ a b, cmp a b = -cmp b a
  trans : ∀ a b c, cmp a b ≤ 0 → cmp b c ≤ 0 → cmp a c ≤ 0

theorem Consistent.total {cmp : α → α → Int} (consistent : Consistent cmp) (a b : α) :
    cmp a b ≤ 0 ∨ cmp b a ≤ 0 := by
  have opposite := consistent.antisymm a b
  omega

theorem Consistent.comap {β : Type} {cmp : α → α → Int} (consistent : Consistent cmp) (key : β → α) :
    Consistent fun a b => cmp (key a) (key b) where
  antisymm := fun a b => consistent.antisymm (key a) (key b)
  trans := fun a b c => consistent.trans (key a) (key b) (key c)

def Sorted (cmp : α → α → Int) (vec : List α) : Prop := vec.Pairwise fun a b => cmp a b ≤ 0

/-- A qsort and a bsearch that do what they are specified to do. -/
structure Library (α : Type) where
  qsort : (α → α → Int) → List α → List α
  bsearch : (α → α → Int) → α → List α → Option α
  perm : ∀ cmp vec, (qsort cmp vec).Perm vec
  sorted : ∀ cmp vec, Consistent cmp → Sorted cmp (qsort cmp vec)
  found : ∀ cmp key vec c, bsearch cmp key vec = some c → c ∈ vec ∧ cmp key c = 0
  missing : ∀ cmp key vec, Consistent cmp → Sorted cmp vec → bsearch cmp key vec = none →
    ∀ c ∈ vec, cmp key c ≠ 0

/-- In a sorted array in which only `c` matches, `c` is what is found. -/
theorem Library.bsearch_unique (lib : Library α) {cmp : α → α → Int} {key c : α} {vec : List α}
    (consistent : Consistent cmp) (sorted : Sorted cmp vec) (held : c ∈ vec) (same : cmp key c = 0)
    (only : ∀ d ∈ vec, cmp key d = 0 → d = c) : lib.bsearch cmp key vec = some c := by
  cases search : lib.bsearch cmp key vec with
  | none => exact absurd same (lib.missing cmp key vec consistent sorted search c held)
  | some d =>
      obtain ⟨member, matching⟩ := lib.found cmp key vec d search
      rw [only d member matching]

/-- Nothing is found exactly when nothing matches. -/
theorem Library.bsearch_eq_none (lib : Library α) {cmp : α → α → Int} {key : α} {vec : List α}
    (consistent : Consistent cmp) (sorted : Sorted cmp vec) :
    lib.bsearch cmp key vec = none ↔ ∀ c ∈ vec, cmp key c ≠ 0 := by
  constructor
  · exact lib.missing cmp key vec consistent sorted
  · intro none
    cases search : lib.bsearch cmp key vec with
    | none => rfl
    | some d =>
        obtain ⟨member, matching⟩ := lib.found cmp key vec d search
        exact absurd matching (none d member)

def simpleLibrary (α : Type) : Library α where
  qsort := fun cmp vec => vec.insertionSort fun a b => cmp a b ≤ 0
  bsearch := fun cmp key vec => vec.find? fun c => cmp key c == 0
  perm := fun cmp vec => List.perm_insertionSort _ vec
  sorted := fun cmp vec consistent => by
    have : Std.Total fun a b => cmp a b ≤ 0 := ⟨consistent.total⟩
    have : IsTrans α fun a b => cmp a b ≤ 0 := ⟨consistent.trans⟩
    exact List.pairwise_insertionSort _ vec
  found := fun cmp key vec c search => by
    exact ⟨List.mem_of_find?_eq_some search, by simpa using List.find?_some search⟩
  missing := fun cmp key vec _ _ search c held => by
    have differs := List.find?_eq_none.mp search c held
    simpa using differs

end Middfs.Sorting
