import Mathlib.Data.List.TakeWhile
import Middfs.Prefix

/-!
# Sizes, C strings and crashes

`size_t` values are natural numbers; a sum that the code stores in a `size_t`
is reduced modulo `2 ^ 64` by `sizeAdd`.  A buffer argument `(buf, nbytes)` is
the list of its `nbytes` bytes.
-/

set_option autoImplicit false

namespace Middfs

/-- How the process dies.  `wild` stands for undefined behaviour: an access
through NULL or outside the object. -/
inductive Trap where
  | abort
  | assertFail
  | wild
  | doubleFree
  deriving DecidableEq, Repr

/-- What a failed call leaves in `errno`, a positive `int`. -/
abbrev Errno := {n : Nat // 0 < n ∧ n < 2 ^ 31}

def eperm : Int32 := 1

def enoent : Int32 := 2

def eio : Int32 := 5

def efault : Int32 := 14

def exdev : Int32 := 18

def einval : Int32 := 22

def eopnotsupp : Int32 := 95

def negErrno (errno : Errno) : Int32 := -Int32.ofNat errno.val

def sizeAdd (a b : Nat) : Nat := (a + b) % 2 ^ 64

def sizerem (nbytes used : Nat) : Nat := if nbytes ≥ used then nbytes - used else 0

def smin (s1 s2 : Nat) : Nat := if s1 < s2 then s1 else s2

def smax (s1 s2 : Nat) : Nat := if s1 < s2 then s2 else s1

theorem sizeAdd_of_lt {a b : Nat} (fits : a + b < 2 ^ 64) : sizeAdd a b = a + b :=
  Nat.mod_eq_of_lt fits

@[simp] theorem sizerem_eq_sub (nbytes used : Nat) : sizerem nbytes used = nbytes - used := by
  unfold sizerem
  split <;> omega

/-- A C string: its bytes, the terminating NUL left out. -/
abbrev CStr := {s : List UInt8 // (0 : UInt8) ∉ s}

abbrev Bytes := {bytes : List UInt8 // bytes.length < 2 ^ 63}

/-- `strnlen(buf, nbytes)`, where `buf` holds exactly the `nbytes` bytes. -/
def strnlen (buf : List UInt8) : Nat := (buf.takeWhile (· ≠ 0)).length

/-- The string that starts at `buf`, as `strdup` copies it. -/
def strAt (buf : List UInt8) : CStr :=
  ⟨buf.takeWhile (· ≠ 0), fun found => by simpa using List.mem_takeWhile_imp found⟩

theorem takeWhile_append_nul (s : CStr) (rest : List UInt8) :
    (s.val ++ 0 :: rest).takeWhile (· ≠ 0) = s.val := by
  have noNul : ∀ b ∈ s.val, decide (b ≠ 0) = true := by
    intro b found
    have differs : b ≠ 0 := fun same => s.property (same ▸ found)
    simpa using differs
  rw [List.takeWhile_append_of_pos noNul]
  simp

theorem strnlen_append (s : CStr) (rest : List UInt8) :
    strnlen (s.val ++ 0 :: rest) = s.val.length := by
  rw [strnlen, takeWhile_append_nul]

theorem strAt_append (s : CStr) (rest : List UInt8) : strAt (s.val ++ 0 :: rest) = s :=
  Subtype.ext (takeWhile_append_nul s rest)

theorem strnlen_of_not_mem {buf : List UInt8} (noNul : (0 : UInt8) ∉ buf) :
    strnlen buf = buf.length := by
  have every : ∀ b ∈ buf, decide (b ≠ 0) = true := by
    intro b found
    have differs : b ≠ 0 := fun same => noNul (same ▸ found)
    simpa using differs
  rw [strnlen, List.takeWhile_eq_self_iff.mpr every]

/-- `(uint64_t)(int32_t) v`: the low 32 bits, sign-extended. -/
def viaInt32 (v : UInt64) : UInt64 :=
  if v.toNat % 2 ^ 32 < 2 ^ 31 then UInt64.ofNat (v.toNat % 2 ^ 32)
  else UInt64.ofNat (v.toNat % 2 ^ 32 + (2 ^ 64 - 2 ^ 32))

theorem viaInt32_eq_self (v : UInt64) :
    viaInt32 v = v ↔ v.toNat < 2 ^ 31 ∨ 2 ^ 64 - 2 ^ 31 ≤ v.toNat := by
  have bound := v.toNat_lt
  unfold viaInt32
  rw [← UInt64.toNat_inj]
  split <;> simp only [UInt64.toNat_ofNat'] <;> omega

theorem viaInt32_idem (v : UInt64) : viaInt32 (viaInt32 v) = viaInt32 v := by
  have bound := v.toNat_lt
  rw [viaInt32_eq_self]
  unfold viaInt32
  split <;> simp only [UInt64.toNat_ofNat'] <;> omega

end Middfs
