import Middfs.RemoteErrors
import Middfs.Splitting

/-!
# The targets of symbolic links

`middfs_readlink` has the target copied to the buffer, which may fill it, and
then puts the terminator behind it.  The number of bytes goes through an `int`
on the way.
-/

set_option autoImplicit false

namespace Middfs

open Stores

/-! ## The promise -/

/-- The path is that of a symbolic link of the client's own, to `target`. -/
def LinksTo (conf : ClientConf) (links : CStr → Except Errno CStr) (path target : CStr) : Prop :=
  ∃ rsrc inside, clientRsrcInit conf path = .ok rsrc ∧ rsrc.mrType = .mrLocal ∧
    rsrc.mrRsrc.mrPath = some inside ∧ links (middfsLocalpathTmp conf inside) = .ok target

/-- As much of a target as there is room for, and the terminator. -/
def terminated (target : CStr) (size : Nat) : List UInt8 := target.val.take (size - 1) ++ [0]

/-- Nothing is stored outside of the buffer, and on success the buffer holds the
target. -/
def ReadsLink (conf : ClientConf) (links : CStr → Except Errno CStr) (errno : Option Errno)
    (closeResult : Except Errno Unit) (path : CStr) (size : Nat) : Prop :=
  ∃ retv stores, middfsReadlink conf links errno closeResult path size = .ok (retv, stores) ∧
    (∀ store ∈ stores, store.1 < size) ∧
    (0 ≤ retv → ∃ target, LinksTo conf links path target ∧
      ∀ mem, front (apply stores mem) (terminated target size).length = terminated target size)

/-- The target is shorter than the buffer, and its length is an `int`; or the
number of bytes copied is negative as an `int`, and is taken for a failure. -/
def FitsBuffer (errno : Option Errno) (target : CStr) (size : Nat) : Prop :=
  target.val.length < size ∧ target.val.length < 2 ^ 31 ∨
    2 ^ 31 ≤ min size target.val.length % 2 ^ 32 ∧ errno ≠ none

/-! ## Numbers as an `int` -/

theorem toInt_ofNat_wraps (n : Nat) :
    (Int32.ofNat n).toInt = if n % 2 ^ 32 < 2 ^ 31 then (n % 2 ^ 32 : Int) else n % 2 ^ 32 - 2 ^ 32 := by
  rw [Int32.toInt_ofNat', Int.bmod, Int32.size]
  split_ifs <;> omega

theorem ofNat_neg_iff (n : Nat) : Int32.ofNat n < 0 ↔ 2 ^ 31 ≤ n % 2 ^ 32 := by
  have zero : (0 : Int32).toInt = 0 := rfl
  rw [Int32.lt_iff_toInt_lt, toInt_ofNat_wraps, zero]
  split_ifs <;> omega

theorem toNat_ofNat_of_small {n : Nat} (small : n % 2 ^ 32 < 2 ^ 31) :
    (Int32.ofNat n).toNatClampNeg = n % 2 ^ 32 := by
  rw [Int32.toNatClampNeg, toInt_ofNat_wraps, if_pos small]
  omega

/-! ## What the function does -/

section Readlink
variable (conf : ClientConf) (links : CStr → Except Errno CStr) (errno : Option Errno)
variable (closeResult : Except Errno Unit) (size : Nat) {path : CStr}

def readlinkRetv (n : Nat) : Int32 :=
  if Int32.ofNat n < 0 then (errno.map negErrno).getD 0 else Int32.ofNat n

theorem middfsReadlink_linked {target : CStr} (linked : LinksTo conf links path target)
    (positive : 0 < size) :
    middfsReadlink conf links errno closeResult path size =
      .ok (if readlinkRetv errno (target.val.take size).length < 0 then
          (readlinkRetv errno (target.val.take size).length, block 0 (target.val.take size))
        else
          (0, block 0 (target.val.take size) ++
            [((readlinkRetv errno (target.val.take size).length).toNatClampNeg, 0)])) := by
  obtain ⟨rsrc, inside, init, own, below, found⟩ := linked
  have closed : clientRsrcDelete closeResult rsrc = 0 := by
    rw [clientRsrcDelete, (clientRsrcInit_ok init).2.unopened]
    rfl
  have read : clientRsrcReadlink conf links errno rsrc size =
      .ok (readlinkRetv errno (target.val.take size).length, block 0 (target.val.take size)) := by
    simp only [clientRsrcReadlink, own, localPath, below, readlink, if_neg positive.ne', found]
    rfl
  simp only [middfsReadlink, init, read, closed]
  split_ifs <;> rfl

theorem middfsReadlink_failed {rsrc : ClientRsrc} {retv : Int32}
    (init : clientRsrcInit conf path = .ok rsrc) (negative : retv < 0)
    (read : clientRsrcReadlink conf links errno rsrc size = .ok (retv, [])) :
    middfsReadlink conf links errno closeResult path size = .ok (retv, []) := by
  simp only [middfsReadlink, init, read, if_pos negative]

/-- Where no link is read, the function fails and the buffer is left alone. -/
theorem middfsReadlink_unlinked (positive : 0 < size)
    (unlinked : ∀ target, ¬ LinksTo conf links path target) :
    ∃ retv, retv < 0 ∧
      middfsReadlink conf links errno closeResult path size = .ok (retv, []) := by
  cases init : clientRsrcInit conf path with
  | error retv =>
      have relative : path.val.head? ≠ some slash := by
        intro absolute
        obtain ⟨rsrc, named, _⟩ := clientRsrcInit_names conf absolute
        rw [init] at named
        cases named
      rw [clientRsrcInit_relative conf relative] at init
      cases init
      refine ⟨-einval, by decide, ?_⟩
      simp only [middfsReadlink, clientRsrcInit_relative conf relative]
  | ok rsrc =>
      cases type : rsrc.mrType with
      | mrNetwork =>
          exact ⟨-eopnotsupp, by decide, middfsReadlink_failed _ _ _ _ _ init (by decide)
            (by simp only [clientRsrcReadlink, type])⟩
      | mrRoot =>
          exact ⟨-eopnotsupp, by decide, middfsReadlink_failed _ _ _ _ _ init (by decide)
            (by simp only [clientRsrcReadlink, type])⟩
      | mrLocal =>
          obtain ⟨owner, inside, parts⟩ := (clientRsrcInit_ok init).2.filled (by rw [type]; decide)
          have below : rsrc.mrRsrc.mrPath = some inside := by rw [parts]
          cases found : links (middfsLocalpathTmp conf inside) with
          | error errno =>
              exact ⟨negErrno errno, negErrno_neg errno,
                middfsReadlink_failed _ _ _ _ _ init (negErrno_neg errno)
                  (by simp only [clientRsrcReadlink, type, localPath, below, readlink,
                    if_neg positive.ne', found])⟩
          | ok target => exact absurd ⟨rsrc, inside, init, type, below, found⟩ (unlinked target)

/-! ## The buffer afterwards -/

theorem terminated_length (target : CStr) (size : Nat) :
    (terminated target size).length = min (size - 1) target.val.length + 1 := by
  rw [terminated, List.length_append, List.length_take, List.length_singleton]

/-- A terminator that is put before the end of what there is room for spoils the
target. -/
theorem terminator_behind {target : CStr} {size k : Nat} {stores : List (Nat × UInt8)}
    {mem : Nat → UInt8}
    (same : front (apply (stores ++ [(k, 0)]) mem) (terminated target size).length =
      terminated target size) : min (size - 1) target.val.length ≤ k := by
  by_contra short
  have inside : k < (terminated target size).length := by
    rw [terminated_length]
    omega
  have zero := front_snoc same inside
  rw [terminated, List.getElem?_append_left (by rw [List.length_take]; omega)] at zero
  exact target.property (List.mem_of_mem_take (List.mem_of_getElem? zero))

variable {conf links errno closeResult size}

theorem readsLink_of_fits {target : CStr} (linked : LinksTo conf links path target)
    (positive : 0 < size) (fits : FitsBuffer errno target size) :
    ReadsLink conf links errno closeResult path size := by
  have length := List.length_take (i := size) (l := target.val)
  have within : ∀ store ∈ block 0 (target.val.take size), store.1 < size := by
    intro store member
    have bounds := block_bounds member
    omega
  rcases fits with ⟨short, small⟩ | ⟨wraps, failure⟩
  · -- the whole target is copied, and the terminator goes behind it
    have whole : target.val.take size = target.val := List.take_of_length_le (by omega)
    have kept : target.val.take (size - 1) = target.val := List.take_of_length_le (by omega)
    have count : (Int32.ofNat target.val.length).toNatClampNeg = target.val.length :=
      Int32.toNatClampNeg_ofNat_of_lt small
    have positive' : ¬ Int32.ofNat target.val.length < 0 := by
      rw [ofNat_neg_iff]
      omega
    have read := middfsReadlink_linked conf links errno closeResult size linked positive
    rw [whole, readlinkRetv, if_neg positive', if_neg positive', count] at read
    refine ⟨_, _, read, ?_, fun _ => ⟨target, linked, fun mem => ?_⟩⟩
    · intro store member
      rcases List.mem_append.mp member with among | last
      · exact within store (whole.symm ▸ among)
      · rw [List.mem_singleton.mp last]
        exact short
    · have blocks := block_append 0 target.val [(0 : UInt8)]
      rw [Nat.zero_add] at blocks
      have stores : block 0 target.val ++ [(target.val.length, 0)] = block 0 (terminated target size) := by
        rw [terminated, kept, blocks]
        rfl
      rw [stores]
      exact front_block _ mem
  · -- the number of bytes is taken for a failure
    have negative : Int32.ofNat (target.val.take size).length < 0 := by
      rw [ofNat_neg_iff, length]
      exact wraps
    obtain ⟨errno, rfl⟩ := Option.ne_none_iff_exists'.mp failure
    have failed : readlinkRetv (some errno) (target.val.take size).length = negErrno errno := if_pos negative
    have read := middfsReadlink_linked conf links (some errno) closeResult size linked positive
    rw [failed, if_pos (negErrno_neg errno)] at read
    exact ⟨_, _, read, within, fun succeeded =>
      absurd (negErrno_neg errno) (Int32.not_lt.mpr succeeded)⟩

theorem LinksTo.unique {target other : CStr} (linked : LinksTo conf links path target)
    (again : LinksTo conf links path other) : target = other := by
  obtain ⟨rsrc, inside, init, _, below, found⟩ := linked
  obtain ⟨rsrc', inside', init', _, below', found'⟩ := again
  rw [init] at init'
  cases init'
  rw [below] at below'
  cases below'
  rw [found] at found'
  cases found'
  rfl

/-- On success the terminator is in the buffer, and not before the end. -/
theorem ReadsLink.terminator {target : CStr} {k : Nat} {stores : List (Nat × UInt8)}
    (reads : ReadsLink conf links errno closeResult path size)
    (linked : LinksTo conf links path target)
    (read : middfsReadlink conf links errno closeResult path size = .ok (0, stores ++ [(k, 0)])) :
    k < size ∧ min (size - 1) target.val.length ≤ k := by
  obtain ⟨retv, all, same, within, content⟩ := reads
  rw [read] at same
  cases same
  obtain ⟨other, again, holds⟩ := content (by decide)
  cases linked.unique again
  exact ⟨within (k, 0) (List.mem_append_right _ (List.mem_singleton.mpr rfl)),
    terminator_behind (holds fun _ => 0)⟩

theorem fits_of_readsLink {target : CStr} (linked : LinksTo conf links path target)
    (positive : 0 < size) (reads : ReadsLink conf links errno closeResult path size) : FitsBuffer errno target size := by
  have length := List.length_take (i := size) (l := target.val)
  have read := middfsReadlink_linked conf links errno closeResult size linked positive
  have sign := ofNat_neg_iff (target.val.take size).length
  by_cases wraps : 2 ^ 31 ≤ (target.val.take size).length % 2 ^ 32
  · cases errno with
    | some errno => exact Or.inr ⟨length ▸ wraps, Option.some_ne_none errno⟩
    | none =>
        -- a terminator in front of everything
        have zero : readlinkRetv none (target.val.take size).length = 0 := if_pos (sign.mpr wraps)
        rw [zero] at read
        have behind := (reads.terminator linked read).2
        have none_ : (0 : Int32).toNatClampNeg = 0 := rfl
        omega
  · have count : readlinkRetv errno (target.val.take size).length =
        Int32.ofNat (target.val.take size).length := if_neg (mt sign.mp wraps)
    rw [count, if_neg (mt sign.mp wraps), toNat_ofNat_of_small (by omega)] at read
    have behind := reads.terminator linked read
    refine Or.inl ?_
    omega

/-- The promise is kept exactly for the targets that leave room for the
terminator. -/
theorem readsLink_iff (positive : 0 < size) :
    ReadsLink conf links errno closeResult path size ↔
      ∀ target, LinksTo conf links path target → FitsBuffer errno target size := by
  refine ⟨fun reads target linked => fits_of_readsLink linked positive reads, fun fits => ?_⟩
  by_cases linked : ∃ target, LinksTo conf links path target
  · obtain ⟨target, linked⟩ := linked
    exact readsLink_of_fits linked positive (fits target linked)
  · obtain ⟨retv, negative, read⟩ := middfsReadlink_unlinked conf links errno closeResult size positive
      fun target found => linked ⟨target, found⟩
    exact ⟨retv, [], read, fun _ member => absurd member List.not_mem_nil,
      fun succeeded => absurd negative (Int32.not_lt.mpr succeeded)⟩

end Readlink

def linkConf : ClientConf := ⟨⟨[117], by decide⟩, emptyStr⟩

def linkPath : CStr := ⟨[slash, 117, slash, 108], by decide⟩

def linkTarget : CStr := ⟨[116], by decide⟩

theorem linkTarget_linked : LinksTo linkConf (fun _ => .ok linkTarget) linkPath linkTarget :=
  ⟨⟨.mrLocal, ⟨some ⟨[117], by decide⟩, some ⟨[slash, 108], by decide⟩⟩, -1⟩, ⟨[slash, 108], by decide⟩,
    by decide, rfl, rfl, rfl⟩

/-- With two bytes for it, `t` is read. -/
theorem readsLink_fitting :
    ReadsLink linkConf (fun _ => .ok linkTarget) none (.ok ()) linkPath 2 :=
  (readsLink_iff (by decide)).mpr fun _ linked =>
    (linkTarget_linked.unique linked) ▸ Or.inl ⟨by decide, by decide⟩

/-- With one, the terminator goes behind the buffer. -/
theorem readsLink_overruns :
    middfsReadlink linkConf (fun _ => .ok linkTarget) none (.ok ()) linkPath 1 =
        .ok (0, [(0, 116), (1, 0)]) ∧
      ¬ ReadsLink linkConf (fun _ => .ok linkTarget) none (.ok ()) linkPath 1 := by
  have read : middfsReadlink linkConf (fun _ => .ok linkTarget) none (.ok ()) linkPath 1 =
      .ok (0, [(0, 116), (1, 0)]) := by decide
  refine ⟨read, fun reads => ?_⟩
  have stored : middfsReadlink linkConf (fun _ => .ok linkTarget) none (.ok ()) linkPath 1 =
      .ok (0, [(0, 116)] ++ [(1, 0)]) := read
  exact absurd (reads.terminator linkTarget_linked stored).1 (by decide)

end Middfs
