import Mathlib.Data.List.Basic
import Mathlib.Logic.Function.Basic

/-!
# Stores through a pointer

What a function does to an array that it is handed a pointer to is a list of
stores, in their order: the index and the element.  The array has no bounds
here, so that a store outside of it is in the list like the others.
-/

set_option autoImplicit false

namespace Middfs.Stores

variable {β : Type}

def block : Nat → List β → List (Nat × β)
  | _, [] => []
  | i, b :: bs => (i, b) :: block (i + 1) bs

def apply (stores : List (Nat × β)) (mem : Nat → β) : Nat → β :=
  stores.foldl (fun mem store => Function.update mem store.1 store.2) mem

def front (mem : Nat → β) (n : Nat) : List β := (List.range n).map mem

theorem apply_snoc (stores : List (Nat × β)) (i : Nat) (b : β) (mem : Nat → β) :
    apply (stores ++ [(i, b)]) mem = Function.update (apply stores mem) i b :=
  List.foldl_append

theorem block_append (i : Nat) (bs cs : List β) :
    block i (bs ++ cs) = block i bs ++ block (i + bs.length) cs := by
  induction bs generalizing i with
  | nil => rfl
  | cons b bs ih =>
      have next : i + 1 + bs.length = i + (b :: bs).length := by
        rw [List.length_cons]
        omega
      rw [List.cons_append, block, block, ih, next]
      rfl

theorem block_bounds {i : Nat} {bs : List β} {store : Nat × β} (member : store ∈ block i bs) :
    i ≤ store.1 ∧ store.1 < i + bs.length := by
  induction bs generalizing i with
  | nil => cases member
  | cons b bs ih =>
      rw [List.length_cons]
      rcases List.mem_cons.mp member with rfl | later
      · exact ⟨Nat.le_refl i, by omega⟩
      · have bounds := ih later
        omega

theorem apply_block_below {i j : Nat} (below : j < i) (bs : List β) (mem : Nat → β) :
    apply (block i bs) mem j = mem j := by
  induction bs generalizing i mem with
  | nil => rfl
  | cons b bs ih =>
      show apply (block (i + 1) bs) (Function.update mem i b) j = mem j
      rw [ih (by omega), Function.update_of_ne (by omega)]

theorem apply_block (i : Nat) (bs : List β) (mem : Nat → β) (j : Nat) (inside : j < bs.length) :
    apply (block i bs) mem (i + j) = bs[j] := by
  induction bs generalizing i j mem with
  | nil => exact absurd inside (Nat.not_lt_zero j)
  | cons b bs ih =>
      show apply (block (i + 1) bs) (Function.update mem i b) (i + j) = _
      cases j with
      | zero =>
          rw [apply_block_below (by omega), Nat.add_zero, Function.update_self, List.getElem_cons_zero]
      | succ j =>
          have here : i + (j + 1) = i + 1 + j := by omega
          rw [here, ih _ _ j (Nat.lt_of_succ_lt_succ inside), List.getElem_cons_succ]

theorem front_block (bs : List β) (mem : Nat → β) : front (apply (block 0 bs) mem) bs.length = bs := by
  apply List.ext_getElem
  · rw [front, List.length_map, List.length_range]
  · intro j _ inside
    have value := apply_block 0 bs mem j inside
    rw [Nat.zero_add] at value
    simpa only [front, List.getElem_map, List.getElem_range] using value

theorem getElem?_of_front {mem : Nat → β} {n j : Nat} {bs : List β} (same : front mem n = bs)
    (inside : j < n) : bs[j]? = some (mem j) := by
  rw [← same, front, List.getElem?_map, List.getElem?_range inside]
  rfl

/-- Where the last store decides, the element is the one stored. -/
theorem front_snoc {stores : List (Nat × β)} {mem : Nat → β} {n i : Nat} {b : β} {bs : List β}
    (same : front (apply (stores ++ [(i, b)]) mem) n = bs) (inside : i < n) : bs[i]? = some b := by
  rw [getElem?_of_front same inside, apply_snoc, Function.update_self]

end Middfs.Stores
