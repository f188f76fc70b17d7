import Middfs.Buffers
import Middfs.Runs

/-!
# A buffer is a queue

`QueueStep` is a queue without memory, pointers or failures.  Every call on a
buffer does to the bytes between `begin` and `ptr` what one such step does to a
queue, so that a buffer and a queue that start out empty stay the same.
-/

set_option autoImplicit false

namespace Middfs

/-! ## Queues -/

section Queue
variable {α : Type}

/-- What happens to a queue.  A failure is a step of its own. -/
inductive QueueStep (α : Type) where
  | push (xs : List α)
  | pop (n : Nat)
  | clear
  | keep
  | fail
  deriving DecidableEq

def QueueStep.apply : QueueStep α → List α → List α
  | .push xs, queue => queue ++ xs
  | .pop n, queue => queue.drop n
  | .clear, _ => []
  | .keep, queue => queue
  | .fail, queue => queue

end Queue

/-! ## Calls -/

inductive BufferOp where
  | read (fd : Int) (result : ReadResult)
  | write (result : WriteResult)
  | copy (bytes : Bytes)
  | shift (shift : Nat)
  | increase
  | empty
  | resize (newsize : Nat)

structure BufferCall where
  realloc : Nat → Bool
  op : BufferOp

/-- The buffer after a call, and what the value returned says was done: a count
of 0 written, which write(2) can give as well, is a shift by 0. -/
def BufferCall.run (call : BufferCall) (buf : Buffer) :
    Except Trap (Buffer × QueueStep UInt8) :=
  match call.op with
  | .read fd result =>
      match bufferRead call.realloc fd result buf with
      | .error trap => .error trap
      | .ok (buf, none) => .ok (buf, .fail)
      | .ok (buf, some bytes) => .ok (buf, .push bytes)
  | .write result =>
      match bufferWrite result buf with
      | (buf, none) => .ok (buf, .fail)
      | (buf, some bytes) => .ok (buf, .pop bytes.length)
  | .copy bytes =>
      match bufferCopy call.realloc buf bytes.val with
      | .error trap => .error trap
      | .ok none => .ok (buf, .fail)
      | .ok (some buf) => .ok (buf, .push bytes.val)
  | .shift shift => .ok (bufferShift buf shift, .pop shift)
  | .increase =>
      match bufferIncrease call.realloc buf with
      | none => .ok (buf, .fail)
      | some buf => .ok (buf, .keep)
  | .empty => .ok (bufferEmpty buf, .clear)
  | .resize newsize =>
      match bufferResize call.realloc buf newsize with
      | none => .ok (buf, .fail)
      | some buf => .ok (buf, .keep)

/-- A buffer is not made smaller than what is in it. -/
def BufferCall.Permitted (call : BufferCall) (buf : Buffer) : Prop :=
  ∀ newsize, call.op = .resize newsize → newsize ≠ 0 ∧ buf.used ≤ newsize

end Middfs
