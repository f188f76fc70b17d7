import Middfs.Encode
import Middfs.Lib.Buf

/-!
# What the buffer functions do to the contents

The contents of a buffer are a queue: `buffer_read` and `buffer_serialize` put
bytes at its end, `buffer_write` and `buffer_shift` take them from its front,
and whatever else happens (the memory moving, a failure) leaves it alone.
-/

set_option autoImplicit false

namespace Middfs

theorem Buffer.contents_length (buf : Buffer) : buf.contents.length = buf.ptr :=
  List.length_take_of_le buf.inside

theorem Buffer.bytes_length (buf : Buffer) : buf.bytes.length = buf.used := by
  rw [Buffer.bytes, Cell.vals, List.length_map, buf.contents_length, Buffer.used]

theorem Buffer.used_lt (buf : Buffer) : buf.used < 2 ^ 63 :=
  Nat.lt_of_le_of_lt buf.inside buf.small

theorem bufferIsempty_iff (buf : Buffer) : bufferIsempty buf = true ↔ buf.contents = [] := by
  rw [bufferIsempty, beq_iff_eq, ← List.length_eq_zero_iff, buf.contents_length, Buffer.used]

theorem bufferInit_contents : bufferInit.contents = [] := rfl

theorem Cell.vals_length (cells : List Cell) : (Cell.vals cells).length = cells.length :=
  List.length_map _

theorem Cell.vals_drop (cells : List Cell) (n : Nat) :
    Cell.vals (cells.drop n) = (Cell.vals cells).drop n := List.map_drop

/-! ## Room -/

/-- What a call leaves as it was. -/
structure Kept (buf buf' : Buffer) : Prop where
  contents : buf'.contents = buf.contents
  freed : buf'.freed = buf.freed

theorem Kept.refl (buf : Buffer) : Kept buf buf := ⟨rfl, rfl⟩

theorem Kept.trans {a b c : Buffer} (first : Kept a b) (second : Kept b c) : Kept a c :=
  ⟨second.contents.trans first.contents, second.freed.trans first.freed⟩

theorem Kept.bytes {buf buf' : Buffer} (kept : Kept buf buf') : buf'.bytes = buf.bytes := by
  rw [Buffer.bytes, kept.contents, Buffer.bytes]

theorem Kept.ptr {buf buf' : Buffer} (kept : Kept buf buf') : buf'.ptr = buf.ptr := by
  rw [← buf'.contents_length, kept.contents, buf.contents_length]

section Realloc
variable {realloc : Nat → Bool}

theorem bufferResize_kept {buf buf' : Buffer} {newsize : Nat}
    (resized : bufferResize realloc buf newsize = some buf') (enough : buf.used ≤ newsize) :
    Kept buf buf' ∧ buf'.rem = newsize - buf.used := by
  unfold bufferResize at resized
  split at resized
  · cases resized
    have inside := buf.inside
    have used : smin buf.used newsize = buf.used := by
      unfold smin
      split_ifs <;> omega
    refine ⟨⟨?_, rfl⟩, ?_⟩
    · simp only [Buffer.contents, used]
      unfold Buffer.used at enough ⊢
      rw [List.take_append_of_le_length (by rw [List.length_take]; omega), List.take_take,
        Nat.min_eq_left enough]
    · simp only [Buffer.rem, used, List.length_append, List.length_take, List.length_replicate]
      omega
  · cases resized

theorem bufferResize_eq_none {buf : Buffer} {newsize : Nat} :
    bufferResize realloc buf newsize = none ↔ (realloc newsize = true → 2 ^ 63 ≤ newsize) := by
  unfold bufferResize
  split
  · rename_i granted
    exact iff_of_false (nomatch ·) (fun none => Nat.not_lt_of_le (none granted.1) granted.2)
  · rename_i refused
    exact iff_of_true rfl fun granted => Nat.le_of_not_lt fun small => refused ⟨granted, small⟩

theorem bufferIncrease_kept {buf buf' : Buffer} (increased : bufferIncrease realloc buf = some buf') :
    Kept buf buf' ∧ 0 < buf'.rem := by
  unfold bufferIncrease at increased
  split at increased
  · rename_i full
    have inside := buf.inside
    have more : buf.used < smax 1 (buf.size * 2) := by
      unfold Buffer.rem at full
      unfold smax Buffer.size Buffer.used
      split_ifs <;> omega
    obtain ⟨kept, rem⟩ := bufferResize_kept increased (Nat.le_of_lt more)
    exact ⟨kept, by omega⟩
  · rename_i room
    cases increased
    exact ⟨Kept.refl _, Nat.pos_of_ne_zero room⟩

/-! ## The end of the queue -/

theorem Buffer.put_contents (buf : Buffer) (cells : List Cell) :
    Kept buf (buf.put cells) ∧ (buf.put cells).rem = buf.rem := by
  have inside := buf.inside
  have length := buf.contents_length
  refine ⟨⟨?_, rfl⟩, ?_⟩
  · simp only [Buffer.put, Buffer.contents, List.append_assoc]
    rw [List.take_append_of_le_length (by rw [List.length_take]; omega), List.take_take,
      Nat.min_self]
  · simp only [Buffer.put, Buffer.rem, List.length_append, length, List.length_take,
      List.length_drop]
    omega

theorem bufferAdvance_put {buf : Buffer} {stored : List Cell} {n : Nat} (le : n ≤ stored.length)
    (room : n ≤ buf.rem) :
    ∃ buf', bufferAdvance (buf.put stored) n = .ok buf' ∧
      buf'.contents = buf.contents ++ stored.take n ∧ buf'.freed = buf.freed := by
  have roomPut : n ≤ (buf.put stored).rem := by
    rw [(buf.put_contents stored).2]
    exact room
  refine ⟨_, dif_pos roomPut, ?_, rfl⟩
  have length := buf.contents_length
  have split : buf.ptr + n = buf.contents.length + n := by rw [length]
  simp only [Buffer.contents, Buffer.put] at length split ⊢
  rw [List.append_assoc, split, List.take_length_add_append]
  rw [List.take_append_of_le_length (by rw [List.length_take]; omega), List.take_take,
    Nat.min_eq_left room]

/-- The cells of bytes that come from `fd`. -/
def readFrom (fd : Int) (bytes : List UInt8) : List Cell := bytes.map fun val => { val, src := some fd }

theorem vals_readFrom (fd : Int) (bytes : List UInt8) : Cell.vals (readFrom fd bytes) = bytes := by
  induction bytes with
  | nil => rfl
  | cons b bytes ih => simpa [Cell.vals, readFrom] using ih

/-- `buffer_read` fails, or takes a non-empty front of what there is to read. -/
theorem bytes_of_read {buf buf' : Buffer} {fd : Int} {bytes : List UInt8}
    (contents : buf'.contents = buf.contents ++ readFrom fd bytes) : buf'.bytes = buf.bytes ++ bytes := by
  rw [Buffer.bytes, contents, Cell.vals, List.map_append]
  exact congrArg (buf.bytes ++ ·) (vals_readFrom fd bytes)

theorem bufferRead_cases (fd : Int) (result : ReadResult) (buf : Buffer) :
    (∃ buf', bufferRead realloc fd result buf = .ok (buf', none) ∧ Kept buf buf') ∨
      ∃ buf' bytes n, result = .bytes bytes ∧ 0 < n ∧
        bufferRead realloc fd result buf = .ok (buf', some (bytes.take n)) ∧
        buf'.contents = buf.contents ++ readFrom fd (bytes.take n) ∧ buf'.freed = buf.freed := by
  unfold bufferRead
  cases increased : bufferIncrease realloc buf with
  | none => exact Or.inl ⟨buf, rfl, Kept.refl buf⟩
  | some grown =>
      obtain ⟨kept, room⟩ := bufferIncrease_kept increased
      cases result with
      | error errno => exact Or.inl ⟨grown, rfl, kept⟩
      | bytes bytes =>
          have length : (readFrom fd (bytes.take grown.rem)).length =
              (bytes.take grown.rem).length := List.length_map _
          obtain ⟨buf', advanced, contents, freed⟩ := @bufferAdvance_put grown _ _
            (Nat.le_of_eq length.symm) (List.length_take_le _ _)
          rw [← length, List.take_length, kept.contents] at contents
          refine Or.inr ⟨buf', bytes, grown.rem, rfl, room, ?_, contents, freed.trans kept.freed⟩
          simp only [readFrom] at advanced
          simp only [advanced]

/-! ## The front of the queue -/

theorem bufferShift_contents (buf : Buffer) (shift : Nat) :
    (bufferShift buf shift).contents = buf.contents.drop shift ∧
      (bufferShift buf shift).freed = buf.freed := by
  have inside := buf.inside
  have length := buf.contents_length
  unfold bufferShift
  split
  · rename_i all
    refine ⟨?_, rfl⟩
    rw [List.drop_of_length_le (by rw [length]; exact all)]
    rfl
  · rename_i some
    refine ⟨?_, rfl⟩
    simp only [Buffer.contents, Buffer.used] at some ⊢
    rw [List.take_append_of_le_length (by simp only [List.length_take, List.length_drop]; omega),
      List.take_take, Nat.min_self, List.drop_take]

/-- A write that does not fail takes the front of the queue. -/
theorem bufferWrite_count (n : Nat) (buf : Buffer) :
    bufferWrite (.count n) buf =
        (bufferShift buf (min buf.used (max 1 n)), some (buf.bytes.take (max 1 n))) ∧
      (bufferShift buf (min buf.used (max 1 n))).contents = buf.contents.drop (max 1 n) := by
  refine ⟨?_, ?_⟩
  · simp only [bufferWrite, Prod.mk.injEq, Option.some.injEq, true_and]
    rw [← buf.bytes_length, Nat.min_comm, ← List.take_eq_take_min]
  · rw [(bufferShift_contents buf _).1]
    have length := buf.contents_length
    by_cases all : buf.used ≤ max 1 n
    · rw [List.drop_of_length_le (by rw [length, Nat.min_eq_left all]; exact Nat.le_refl _),
        List.drop_of_length_le (by rw [length]; exact all)]
    · rw [Nat.min_eq_right (by omega)]

/-- `buffer_write` fails and nothing changes, or the front of the queue is
written; something is, unless the queue is empty. -/
theorem bufferWrite_cases (result : WriteResult) (buf : Buffer) :
    bufferWrite result buf = (buf, none) ∨
      ∃ n, 0 < n ∧ bufferWrite result buf = (bufferShift buf (min buf.used n),
        some (buf.bytes.take n)) ∧
        (bufferShift buf (min buf.used n)).contents = buf.contents.drop n := by
  cases result with
  | error errno => exact Or.inl rfl
  | count n => exact Or.inr ⟨max 1 n, by omega, bufferWrite_count n buf⟩

/-! ## Encoding into a buffer -/

theorem bufferSerializeLoop_emits {f : Serialize} {bytes : List UInt8} (emits : Emits f bytes)
    (bound : bytes.length < 2 ^ 63) {fuel : Nat} {buf : Buffer}
    (enough : bytes.length < buf.rem + fuel) (pos : 0 < fuel) :
    (∃ buf', bufferSerializeLoop realloc f fuel buf buf.rem = .ok (buf', none) ∧ Kept buf buf' ∧
        ∃ n, n ≤ bytes.length ∧ (realloc (buf.used + n) = true → 2 ^ 63 ≤ buf.used + n)) ∨
      ∃ buf' stored, bufferSerializeLoop realloc f fuel buf buf.rem =
          .ok (Buffer.put buf' stored, some bytes.length) ∧
        Kept buf buf' ∧ bytes.length ≤ buf'.rem ∧ stored.take bytes.length = cells bytes ∧
        bytes.length ≤ stored.length := by
  induction fuel generalizing buf with
  | zero => exact absurd pos (Nat.lt_irrefl 0)
  | succ fuel ih =>
      obtain ⟨s, written, answer, emitted⟩ := emits (by omega) buf.rem
      have room := emitted.room
      have memLength : (Cell.vals (buf.mem.drop buf.ptr)).length = buf.rem := by
        rw [Cell.vals_length, List.length_drop, Buffer.rem]
      have stored := @Contig.storeAll _ _ _ emitted.contig (Cell.vals (buf.mem.drop buf.ptr)) (by omega)
      rw [List.take_zero, List.nil_append, Nat.zero_add] at stored
      unfold bufferSerializeLoop
      simp only [answer, stored]
      by_cases fits : bytes.length ≤ buf.rem
      · obtain ⟨used, rfl⟩ := emitted.fits fits
        rw [if_neg (by omega), used]
        refine Or.inr ⟨buf, _, rfl, Kept.refl buf, fits, ?_, ?_⟩
        · have length : (cells written).length = written.length := List.length_map _
          rw [← length]
          simp only [cells, List.map_append]
          rw [List.take_left]
        · simp only [cells, List.length_map, List.length_append]
          omega
      · obtain ⟨above, below⟩ := emitted.short (by omega)
        have usedLt := buf.used_lt
        rw [if_pos above]
        obtain ⟨keptPut, remPut⟩ := buf.put_contents
          (cells (written ++ (Cell.vals (buf.mem.drop buf.ptr)).drop written.length))
        have usedPut : (buf.put (cells (written ++
            (Cell.vals (buf.mem.drop buf.ptr)).drop written.length))).used = buf.used := keptPut.ptr
        rw [usedPut, sizeAdd_of_lt (by omega)]
        split
        · rename_i failed
          exact Or.inl ⟨_, rfl, keptPut, s.used, below, bufferResize_eq_none.mp failed⟩
        · rename_i grown resized
          obtain ⟨kept, rem⟩ := bufferResize_kept resized (by rw [usedPut]; omega)
          have remGrown : grown.rem = s.used := by
            rw [rem, usedPut]
            omega
          have usedGrown : grown.used = buf.used := kept.ptr.trans usedPut
          have later := @ih grown (by omega) (by omega)
          rw [remGrown, usedGrown] at later
          rcases later with ⟨buf', failed, kept', reason⟩ | ⟨buf', more, done, kept', rest⟩
          · exact Or.inl ⟨buf', failed, (keptPut.trans kept).trans kept', reason⟩
          · exact Or.inr ⟨buf', more, done, (keptPut.trans kept).trans kept', rest⟩

/-- `buffer_serialize` fails for want of memory, or appends the encoding. -/
theorem bufferSerialize_emits {f : Serialize} {bytes : List UInt8} (emits : Emits f bytes)
    (bound : bytes.length < 2 ^ 63) (buf : Buffer) :
    (∃ buf', bufferSerialize realloc f buf = .ok (buf', none) ∧ Kept buf buf' ∧
        ∃ n, n ≤ bytes.length ∧ (realloc (buf.used + n) = true → 2 ^ 63 ≤ buf.used + n)) ∨
      ∃ buf', bufferSerialize realloc f buf = .ok (buf', some bytes.length) ∧
        buf'.contents = buf.contents ++ cells bytes ∧ buf'.freed = buf.freed := by
  rcases @bufferSerializeLoop_emits realloc _ _ emits bound (2 ^ 64) buf
    (by omega) (by decide) with ⟨buf', failed, kept, reason⟩ | ⟨buf', stored, done, kept, room, rest⟩
  · exact Or.inl ⟨buf', by rw [bufferSerialize, failed], kept, reason⟩
  · obtain ⟨front, enough⟩ := rest
    obtain ⟨last, advanced, contents, freed⟩ := bufferAdvance_put enough room
    rw [front, kept.contents] at contents
    exact Or.inr ⟨last, by rw [bufferSerialize, done]; simp only [advanced], contents,
      freed.trans kept.freed⟩

end Realloc
end Middfs
