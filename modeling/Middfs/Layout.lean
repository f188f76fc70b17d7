import Mathlib.Tactic

/-!
# Records laid out field by field

A record is printed into a buffer of `room` bytes one field after the other, and
the printer gives back how many bytes it takes.  A field of fixed length is
counted in full whether it fits or not.  A string is scanned no further than the
buffer goes, so that one that does not fit counts as one byte more than what is
left.
-/

set_option autoImplicit false

namespace Middfs.Layout

/-- A field, by its length; that of a string leaves out the terminator. -/
inductive Field where
  | fixed (len : Nat)
  | str (len : Nat)
  deriving DecidableEq, Repr

/-- How many bytes a field takes. -/
def Field.size : Field → Nat
  | .fixed len => len
  | .str len => len + 1

/-- How many bytes it is counted as, with `room` bytes left. -/
def Field.counted (room : Nat) : Field → Nat
  | .fixed len => len
  | .str len => min len room + 1

/-- How many bytes it is counted as when there is no room. -/
def Field.least : Field → Nat
  | .fixed len => len
  | .str _ => 1

def size (fields : List Field) : Nat := (fields.map Field.size).sum

def least (fields : List Field) : Nat := (fields.map Field.least).sum

/-- The count from `used` on, in a buffer of `room` bytes. -/
def counted (room : Nat) : Nat → List Field → Nat
  | used, [] => used
  | used, field :: fields => counted room (used + field.counted (room - used)) fields

/-- Where the last character of the last string that has one ends, when the
fields start at `off`; 0 if there is none. -/
def stringsEnd : Nat → List Field → Nat
  | _, [] => 0
  | off, .fixed len :: fields => stringsEnd (off + len) fields
  | off, .str len :: fields =>
      max (if len = 0 then 0 else off + len) (stringsEnd (off + (len + 1)) fields)

@[simp] theorem Field.size_fixed (len : Nat) : (Field.fixed len).size = len := rfl

@[simp] theorem size_nil : size [] = 0 := rfl

@[simp] theorem size_cons (field : Field) (fields : List Field) :
    size (field :: fields) = field.size + size fields := List.sum_cons

@[simp] theorem size_append (fields more : List Field) :
    size (fields ++ more) = size fields + size more := by
  simp [size]

@[simp] theorem least_nil : least [] = 0 := rfl

@[simp] theorem least_cons (field : Field) (fields : List Field) :
    least (field :: fields) = field.least + least fields := List.sum_cons

@[simp] theorem least_append (fields more : List Field) :
    least (fields ++ more) = least fields + least more := by
  simp [least]

theorem Field.counted_le_size (room : Nat) (field : Field) : field.counted room ≤ field.size := by
  cases field with
  | fixed len => exact Nat.le_refl len
  | str len =>
      simp only [Field.counted, Field.size]
      omega

theorem counted_append (room used : Nat) (fields more : List Field) :
    counted room used (fields ++ more) = counted room (counted room used fields) more := by
  induction fields generalizing used with
  | nil => rfl
  | cons field fields ih => exact ih _

/-- Counting from `used` on is counting from 0 in what is left. -/
theorem counted_shift (room used : Nat) (fields : List Field) :
    counted room used fields = used + counted (room - used) 0 fields := by
  induction fields generalizing room used with
  | nil => rfl
  | cons field fields ih =>
      have left : room - (used + field.counted (room - used)) =
          room - used - field.counted (room - used) := by omega
      unfold counted
      rw [ih, ih (room - used), Nat.sub_zero, Nat.zero_add, left, Nat.add_assoc]

theorem le_counted (room used : Nat) (fields : List Field) : used ≤ counted room used fields := by
  rw [counted_shift]
  exact Nat.le_add_right _ _

theorem counted_le_size (room used : Nat) (fields : List Field) :
    counted room used fields ≤ used + size fields := by
  induction fields generalizing used with
  | nil => exact Nat.le_refl used
  | cons field fields ih =>
      have head := field.counted_le_size (room - used)
      have tail := ih (used + field.counted (room - used))
      rw [size_cons]
      exact le_trans tail (by omega)

/-- What does not fit counts for little more than the buffer. -/
theorem counted_le_least (room used : Nat) (fields : List Field) :
    counted room used fields ≤ max used room + least fields := by
  induction fields generalizing used with
  | nil => exact le_max_left used room
  | cons field fields ih =>
      refine le_trans (ih _) ?_
      rw [least_cons]
      cases field with
      | fixed len =>
          simp only [Field.counted, Field.least]
          omega
      | str len =>
          simp only [Field.counted, Field.least]
          omega

/-- The count is right exactly when no character of a string was out of reach. -/
theorem counted_eq_size_iff (room used : Nat) (fields : List Field) :
    counted room used fields = used + size fields ↔ stringsEnd used fields ≤ room := by
  induction fields generalizing used with
  | nil => exact iff_of_true rfl (Nat.zero_le room)
  | cons field fields ih =>
      cases field with
      | fixed len =>
          have rest := ih (used + len)
          rw [size_cons, ← Nat.add_assoc]
          exact rest
      | str len =>
          rw [size_cons, stringsEnd, max_le_iff]
          by_cases reached : len = 0 ∨ used + len ≤ room
          · have counts : Field.counted (room - used) (.str len) = len + 1 := by
              simp only [Field.counted]
              omega
            have start : (if len = 0 then 0 else used + len) ≤ room := by
              split_ifs <;> omega
            have rest := ih (used + (len + 1))
            rw [Nat.add_assoc] at rest
            rw [counted, counts]
            exact ⟨fun whole => ⟨start, rest.mp whole⟩, fun both => rest.mpr both.2⟩
          · have counts : Field.counted (room - used) (.str len) < len + 1 := by
              simp only [Field.counted]
              omega
            have beyond : ¬ (if len = 0 then 0 else used + len) ≤ room := by
              split_ifs <;> omega
            have less := counted_le_size room (used + Field.counted (room - used) (.str len)) fields
            refine iff_of_false ?_ fun both => beyond both.1
            rw [counted, Field.size]
            omega

/-- A count that is within the buffer is right. -/
theorem counted_eq_of_le {room used : Nat} {fields : List Field}
    (within : counted room used fields ≤ room) : counted room used fields = used + size fields := by
  induction fields generalizing used with
  | nil => rfl
  | cons field fields ih =>
      have start := le_trans (le_counted room _ fields) within
      have counts : field.counted (room - used) = field.size := by
        cases field with
        | fixed len => rfl
        | str len =>
            simp only [Field.counted, Field.size] at start ⊢
            omega
      rw [counted, ih within, counts, size_cons, Nat.add_assoc]

end Middfs.Layout
