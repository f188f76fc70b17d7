import Middfs.Lib.Deserialize
import Middfs.Lib.Serialize

/-!
# Buffers

A `struct buffer` is the memory from `begin` to `end` with the offset of
`ptr`, which never leaves it; an empty memory stands for the NULL pointers of
`buffer_init`.  `realloc n` says whether a reallocation to `n` bytes succeeds;
no object has 2 ^ 63 bytes or more, so such a reallocation never does.
Two fields are ghosts, which no function looks at to decide anything: where
each byte came from, and whether the allocation was released.
-/

set_option autoImplicit false

namespace Middfs

/-- A byte and the descriptor it was read from; bytes that the process itself
wrote have none. -/
structure Cell where
  val : UInt8
  src : Option Int := none
  deriving DecidableEq, Repr

def cells (bytes : List UInt8) : List Cell := bytes.map fun val => { val }

def Cell.vals (cells : List Cell) : List UInt8 := cells.map Cell.val

@[simp] theorem vals_cells (bytes : List UInt8) : Cell.vals (cells bytes) = bytes := by
  induction bytes with
  | nil => rfl
  | cons b bytes ih => simpa [Cell.vals, cells] using ih

@[simp] theorem vals_append (xs ys : List Cell) :
    Cell.vals (xs ++ ys) = Cell.vals xs ++ Cell.vals ys := List.map_append

structure Buffer where
  mem : List Cell
  ptr : Nat
  inside : ptr ≤ mem.length
  small : mem.length < 2 ^ 63
  freed : Bool := false
  deriving DecidableEq

def bufferInit : Buffer := { mem := [], ptr := 0, inside := Nat.le_refl 0, small := by decide }

namespace Buffer
variable (buf : Buffer)

def size : Nat := buf.mem.length

def used : Nat := buf.ptr

def rem : Nat := buf.mem.length - buf.ptr

/-- The bytes between `begin` and `ptr`. -/
def contents : List Cell := buf.mem.take buf.ptr

def bytes : List UInt8 := Cell.vals buf.contents

end Buffer

def bufferResize (realloc : Nat → Bool) (buf : Buffer) (newsize : Nat) : Option Buffer :=
  if granted : realloc newsize = true ∧ newsize < 2 ^ 63 then
    some
      { mem := buf.mem.take newsize ++ List.replicate (newsize - buf.mem.length) { val := 0 }
        ptr := smin buf.used newsize
        inside := by
          have inside := buf.inside
          have used : smin buf.used newsize ≤ min buf.ptr newsize := by
            unfold smin Buffer.used
            split_ifs <;> omega
          simp only [List.length_append, List.length_take, List.length_replicate]
          omega
        small := by
          have fits := granted.2
          simp only [List.length_append, List.length_take, List.length_replicate]
          omega
        freed := buf.freed }
  else none

def bufferEmpty (buf : Buffer) : Buffer :=
  { buf with ptr := 0, inside := Nat.zero_le _ }

def bufferShift (buf : Buffer) (shift : Nat) : Buffer :=
  if shift ≥ buf.used then bufferEmpty buf
  else
    let newused := buf.used - shift
    { buf with
      mem := (buf.mem.drop shift).take newused ++ buf.mem.drop newused
      ptr := newused
      inside := by
        have inside := buf.inside
        have used : buf.used = buf.ptr := rfl
        simp only [List.length_append, List.length_take, List.length_drop, newused]
        omega
      small := by
        have small := buf.small
        simp only [List.length_append, List.length_take, List.length_drop, newused]
        omega }

def bufferIncrease (realloc : Nat → Bool) (buf : Buffer) : Option Buffer :=
  if buf.rem = 0 then bufferResize realloc buf (smax 1 (buf.size * 2)) else some buf

def bufferIsempty (buf : Buffer) : Bool := buf.used == 0

def bufferAdvance (buf : Buffer) (nbytes : Nat) : Except Trap Buffer :=
  if room : nbytes ≤ buf.rem then
    .ok
      { buf with
        ptr := buf.ptr + nbytes
        inside := by
          have inside := buf.inside
          unfold Buffer.rem at room
          omega }
  else .error .assertFail

def Buffer.put (buf : Buffer) (cells : List Cell) : Buffer :=
  let stored := cells.take buf.rem
  { buf with
    mem := buf.contents ++ stored ++ buf.mem.drop (buf.ptr + stored.length)
    inside := by
      have inside := buf.inside
      simp only [Buffer.contents, List.length_append, List.length_take]
      omega
    small := by
      have inside := buf.inside
      have small := buf.small
      simp only [stored, Buffer.contents, Buffer.rem, List.length_append, List.length_take,
        List.length_drop]
      omega }

def bufferDelete (buf : Buffer) : Except Trap Buffer :=
  if buf.freed ∧ buf.mem ≠ [] then .error .doubleFree else .ok { buf with freed := true }

/-! ## Input and output -/

/-- The result of a call to read(2), of which at most as many bytes are taken
as were asked for.  No bytes at all is the end of the stream. -/
inductive ReadResult where
  | error (errno : Errno)
  | bytes (bytes : List UInt8)
  deriving DecidableEq, Repr

/-- The result of a call to write(2), of which at most as many bytes count as
there are, and at least one if there are any. -/
inductive WriteResult where
  | error (errno : Errno)
  | count (n : Nat)
  deriving DecidableEq, Repr

/-- `none` is a failure; otherwise the bytes read, possibly none. -/
def bufferRead (realloc : Nat → Bool) (fd : Int) (result : ReadResult) (buf : Buffer) :
    Except Trap (Buffer × Option (List UInt8)) :=
  match bufferIncrease realloc buf with
  | none => .ok (buf, none)
  | some buf =>
      match result with
      | .error _ => .ok (buf, none)
      | .bytes bytes =>
          let bytes := bytes.take buf.rem
          let buf := buf.put (bytes.map fun val => { val, src := some fd })
          match bufferAdvance buf bytes.length with
          | .error trap => .error trap
          | .ok buf => .ok (buf, some bytes)

/-- `none` is a failure; otherwise the bytes written. -/
def bufferWrite (result : WriteResult) (buf : Buffer) : Buffer × Option (List UInt8) :=
  match result with
  | .error _ => (buf, none)
  | .count n =>
      let written := min buf.used (max 1 n)
      (bufferShift buf written, some (buf.bytes.take written))

/-- `none` is a failure, which leaves the buffer as it was. -/
def bufferCopy (realloc : Nat → Bool) (buf : Buffer) (bytes : List UInt8) :
    Except Trap (Option Buffer) :=
  let nbytes := bytes.length
  match (if buf.rem < nbytes then bufferResize realloc buf (sizeAdd buf.size nbytes)
    else some buf) with
  | none => .ok none
  | some buf =>
      if nbytes ≤ buf.rem then
        match bufferAdvance (buf.put (cells bytes)) nbytes with
        | .error trap => .error trap
        | .ok buf => .ok (some buf)
      else .error .wild

/-! ## Packets in buffers -/

/-- The loop of `buffer_serialize`, `fuel` iterations before a bound that is
never reached: `rem` grows and is a `size_t`. -/
def bufferSerializeLoop (realloc : Nat → Bool) (serialf : Serialize) :
    Nat → Buffer → Nat → Except Trap (Buffer × Option Nat)
  | 0, buf, _ => .ok (buf, none)
  | fuel + 1, buf, rem =>
      match serialf rem with
      | .error trap => .error trap
      | .ok s =>
          match storeAll (Cell.vals (buf.mem.drop buf.ptr)) s.writes with
          | none => .error .wild
          | some bytes =>
              let buf := buf.put (cells bytes)
              if s.used > rem then
                match bufferResize realloc buf (sizeAdd buf.used s.used) with
                | none => .ok (buf, none)
                | some buf => bufferSerializeLoop realloc serialf fuel buf s.used
              else .ok (buf, some s.used)

/-- The values of `rem` that this loop calls `serialf` with, from one on, as long
as no reallocation fails. -/
def serializerCalls (serialf : Serialize) : Nat → Nat → List Nat
  | 0, _ => []
  | fuel + 1, rem =>
      match serialf rem with
      | .error _ => [rem]
      | .ok s => if s.used > rem then rem :: serializerCalls serialf fuel s.used else [rem]

/-- `none` is a failure; otherwise the number of bytes. -/
def bufferSerialize (realloc : Nat → Bool) (serialf : Serialize) (buf : Buffer) :
    Except Trap (Buffer × Option Nat) :=
  match bufferSerializeLoop realloc serialf (2 ^ 64) buf buf.rem with
  | .error trap => .error trap
  | .ok (buf, none) => .ok (buf, none)
  | .ok (buf, some used) =>
      match bufferAdvance buf used with
      | .error trap => .error trap
      | .ok buf => .ok (buf, some used)

/-- `-1` on error, `1` if more bytes are needed, otherwise `0`. -/
def bufferDeserialize (malloc : Nat → Bool) (buf : Buffer) (out : Packet) :
    Except Trap (Int × Buffer × Packet) :=
  match deserializePkt malloc buf.bytes out 0 with
  | .error trap => .error trap
  | .ok s =>
      if s.err ≠ 0 then .ok (-1, buf, s.obj)
      else if s.used ≤ buf.used then .ok (0, bufferShift buf s.used, s.obj)
      else .ok (1, buf, s.obj)

end Middfs
