import Middfs.Client.Pkt

/-!
# Configured numbers

A number in the configuration goes through `strtoull` and is then cut down to
32 bits, and only its syntax is checked.
-/

set_option autoImplicit false

namespace Middfs

open Numeral

/-! ## The conversion -/

def ullOf (negative : Bool) (n : Nat) : UInt64 :=
  if 2 ^ 64 ≤ n then UInt64.ofNat (2 ^ 64 - 1)
  else if negative then -UInt64.ofNat n else UInt64.ofNat n

theorem strtoull_scanned {str rest : List UInt8} {negative : Bool} {n : Nat}
    (scanned : scan str = some (negative, n, rest)) : strtoull str = (ullOf negative n, rest) := by
  rw [strtoull, scanned, ullOf]
  simp only
  split_ifs <;> rfl

/-- `endptr` does not point into an integer that the string begins with. -/
theorem strtoull_longest {str front behind : List UInt8} {z : Int} (denotes : Denotes front z)
    (split : str = front ++ behind) : (strtoull str).2.length ≤ behind.length := by
  obtain ⟨negative, n, _, rest, scanned, _⟩ := scan_front denotes behind
  rw [← split] at scanned
  rw [strtoull_scanned scanned]
  exact scan_longest scanned denotes split

/-- Of what a `uint32_t` can hold, nothing is lost, and the rest is lost. -/
theorem ullOf_exact_iff (negative : Bool) (n : Nat) :
    ((ullOf negative n).toUInt32.toNat : Int) = signed negative n ↔
      0 ≤ signed negative n ∧ signed negative n < 2 ^ 32 := by
  have bound := (ullOf negative n).toUInt32.toNat_lt
  constructor
  · intro exact_
    omega
  · rintro ⟨nonnegative, small⟩
    cases negative with
    | false =>
        have short : n < 2 ^ 32 := by
          have value : signed false n = n := rfl
          omega
        have value : ullOf false n = UInt64.ofNat n := if_neg (by omega)
        rw [value, UInt64.toNat_toUInt32, UInt64.toNat_ofNat',
          Nat.mod_eq_of_lt (by omega : n < 2 ^ 64), Nat.mod_eq_of_lt short]
        rfl
    | true =>
        -- only a zero has a minus and is not negative
        have none_ : n = 0 := by
          have value : signed true n = -n := rfl
          omega
        rw [none_]
        rfl

/-! ## The configuration -/

/-- `s` is configured: `conf_get_uint32` says that it is no number it can return,
or it returns the number that `s` denotes. -/
def ExactOrRejected (s : CStr) : Prop :=
  ∀ malloc name errp (env : Env), env (confEnvvar name) = some s.val →
    (confGetUint32 malloc name errp env).2 = 1 ∨
      ∃ z, Denotes s.val z ∧ ((confGetUint32 malloc name errp env).1.toNat : Int) = z

section Configured
variable {malloc : Nat → Bool} {name : List UInt8} {errp : Int32} {env : Env} {s : CStr}

theorem confGetUint32_rejects (configured : env (confEnvvar name) = some s.val)
    (wordy : ∀ z, ¬ Denotes s.val z) : (confGetUint32 malloc name errp env).2 = 1 := by
  have rejected : s.val = [] ∨ (strtoull s.val).2 ≠ [] := by
    by_contra accepted
    obtain ⟨some_, ended⟩ := not_or.mp accepted
    cases scanned : scan s.val with
    | none =>
        rw [strtoull, scanned] at ended
        exact ended some_
    | some result =>
        obtain ⟨negative, n, rest⟩ := result
        rw [strtoull_scanned scanned] at ended
        have whole : rest = [] := not_not.mp ended
        rw [whole] at scanned
        exact wordy _ (denotes_iff.mpr ⟨negative, n, scanned, rfl⟩)
  unfold confGetUint32 confGetUll confGet confEnvvarAlloc
  split_ifs with granted
  · simp only [configured, if_pos rejected]
  · rfl

theorem confGetUint32_number (configured : env (confEnvvar name) = some s.val) {negative : Bool}
    {n : Nat} (scanned : scan s.val = some (negative, n, [])) :
    confGetUint32 malloc name errp env =
      if malloc ((confEnvvar name).length + 1) then ((ullOf negative n).toUInt32, errp) else (0, 1) := by
  have accepted : ¬ (s.val = [] ∨ ([] : List UInt8) ≠ []) := by
    rintro (empty | no)
    · rw [empty] at scanned
      cases scanned
    · exact no rfl
  unfold confGetUint32 confGetUll confGet confEnvvarAlloc
  split_ifs with granted
  · simp only [configured, strtoull_scanned scanned, if_neg accepted]
  · rfl

end Configured

theorem exactOrRejected_of_fits {s : CStr} (fits : ∀ z, Denotes s.val z → 0 ≤ z ∧ z < 2 ^ 32) :
    ExactOrRejected s := by
  intro malloc name errp env configured
  by_cases number : ∃ z, Denotes s.val z
  · obtain ⟨z, denotes⟩ := number
    obtain ⟨negative, n, scanned, rfl⟩ := denotes_iff.mp denotes
    rw [confGetUint32_number configured scanned]
    split_ifs
    · exact Or.inr ⟨_, denotes, (ullOf_exact_iff negative n).mpr (fits _ denotes)⟩
    · exact Or.inl rfl
  · exact Or.inl (confGetUint32_rejects configured fun z denotes => number ⟨z, denotes⟩)

theorem ExactOrRejected.fits {s : CStr} (promised : ExactOrRejected s) {z : Int}
    (denotes : Denotes s.val z) : 0 ≤ z ∧ z < 2 ^ 32 := by
  obtain ⟨negative, n, scanned, rfl⟩ := denotes_iff.mp denotes
  have returned := @confGetUint32_number (fun _ => true) [] 0 (fun _ => some s.val) s rfl negative n
    scanned
  rcases promised (fun _ => true) [] 0 (fun _ => some s.val) rfl with rejected | ⟨z, again, value⟩
  · rw [returned] at rejected
    cases rejected
  · obtain ⟨negative', n', scanned', rfl⟩ := denotes_iff.mp again
    rw [scanned] at scanned'
    cases scanned'
    rw [returned] at value
    exact (ullOf_exact_iff negative n).mp value

/-- The strings that are treated as they should be are those that are no number,
and the numbers that fit. -/
theorem exactOrRejected_iff (s : CStr) :
    ExactOrRejected s ↔ ∀ z, Denotes s.val z → 0 ≤ z ∧ z < 2 ^ 32 :=
  ⟨fun promised _ denotes => promised.fits denotes, exactOrRejected_of_fits⟩

/-- `-1` is taken for the largest number. -/
theorem minusOne_wraps :
    confGetUint32 (fun _ => true) [112] 0 (fun _ => some [45, 49]) = (4294967295, 0) ∧
      ¬ ExactOrRejected ⟨[45, 49], by decide⟩ := by
  have denotes : Denotes [45, 49] (-1) := denotes_iff.mpr ⟨true, 1, by decide, rfl⟩
  refine ⟨by decide, fun promised => ?_⟩
  exact absurd (promised.fits denotes).1 (by decide)

/-- The port that a client tells the server is the one that is configured, if
that fits. -/
theorem clientConnectPort_exact {malloc : Nat → Bool} {env : Env} {s : CStr} {port : UInt32}
    (configured : env (confEnvvar middfsConfLocalport) = some s.val)
    (fits : ∀ z, Denotes s.val z → 0 ≤ z ∧ z < 2 ^ 32)
    (told : clientConnectPort malloc env = some port) :
    ∃ z, Denotes s.val z ∧ (port.toNat : Int) = z := by
  unfold clientConnectPort at told
  simp only at told
  split_ifs at told with clean
  cases told
  rcases exactOrRejected_of_fits fits malloc middfsConfLocalport 0 env configured with rejected | found
  · rw [rejected] at clean
    exact absurd clean (by decide)
  · exact found

end Middfs
