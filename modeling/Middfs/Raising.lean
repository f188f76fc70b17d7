import Middfs.Lib.Serialize
import Middfs.Wire.Laws

/-!
# How the encoder can be brought down

The functions that encode read through pointers and do nothing else that can go
wrong; a response of a type that does not exist makes them abort.
-/

set_option autoImplicit false

namespace Middfs

/-- A function that is brought down is so by one of the `allowed` traps. -/
def Raises {α : Type} (allowed : Trap → Prop) (result : Except Trap α) : Prop :=
  ∀ trap, result = .error trap → allowed trap

variable {allowed : Trap → Prop}

theorem raises_ok {α : Type} (a : α) : Raises allowed (.ok a : Except Trap α) := fun _ no => by cases no

theorem raises_error {α : Type} {trap : Trap} (may : allowed trap) :
    Raises allowed (.error trap : Except Trap α) := fun _ same => by
  cases same
  exact may

theorem raises_bind {α β : Type} {x : Except Trap α} {f : α → Except Trap β}
    (first : Raises allowed x) (later : ∀ a, Raises allowed (f a)) : Raises allowed (x >>= f) := by
  cases x with
  | error trap => exact raises_error (first trap rfl)
  | ok a => exact later a

theorem Emit.call_raises (s : Emit) (nbytes : Nat) {f : Serialize} (raises : ∀ n, Raises allowed (f n)) :
    Raises allowed (s.call nbytes f) :=
  raises_bind (raises _) fun _ => raises_ok _

theorem Emit.callIf_raises (s : Emit) (cond : Bool) (nbytes : Nat) {f : Serialize}
    (raises : ∀ n, Raises allowed (f n)) : Raises allowed (s.callIf cond nbytes f) := by
  cases cond with
  | false => exact raises_ok s
  | true => exact s.call_raises nbytes raises

theorem serializeUint32_raises (uint : UInt32) (n : Nat) : Raises allowed (serializeUint32 uint n) :=
  raises_ok _

theorem serializeUint64_raises (uint : UInt64) (n : Nat) : Raises allowed (serializeUint64 uint n) :=
  raises_bind (Emit.call_raises _ n (serializeUint32_raises _)) fun s =>
    s.call_raises n (serializeUint32_raises _)

section Wild
variable (wild : allowed .wild)
include wild

theorem serializeStr_raises (str : Option CStr) (n : Nat) : Raises allowed (serializeStr str n) := by
  cases str with
  | none => exact raises_error wild
  | some str => exact raises_ok _

theorem serializeRsrc_raises (rsrc : Rsrc) (n : Nat) : Raises allowed (serializeRsrc rsrc n) :=
  raises_bind (Emit.call_raises _ n (serializeStr_raises wild _)) fun s =>
    raises_bind (s.call_raises n (serializeStr_raises wild _)) fun s => raises_ok s

theorem memcpyFrom_raises (src : Option (List UInt8)) (n : Nat) : Raises allowed (memcpyFrom src n) := by
  unfold memcpyFrom
  split_ifs
  · exact raises_ok _
  · cases src with
    | none => exact raises_error wild
    | some bytes =>
        simp only
        split_ifs
        · exact raises_ok _
        · exact raises_error wild

theorem serializeRaw_raises (src : Option (List UInt8)) (k n : Nat) :
    Raises allowed (serializeRaw src k n) := by
  unfold serializeRaw
  by_cases fits : n ≥ k
  · rw [if_pos fits]
    exact raises_bind (memcpyFrom_raises wild src k) fun _ => raises_ok _
  · rw [if_neg fits]
    exact raises_ok _

theorem serializeRequest_raises (req : Request) (n : Nat) :
    Raises allowed (serializeRequest req n) :=
  raises_bind (Emit.call_raises _ n (serializeUint32_raises _)) fun s =>
    raises_bind (s.call_raises n (serializeStr_raises wild _)) fun s =>
    raises_bind (s.call_raises n (serializeRsrc_raises wild _)) fun s =>
    raises_bind (s.callIf_raises _ n (serializeUint32_raises _)) fun s =>
    raises_bind (s.callIf_raises _ n (serializeUint64_raises _)) fun s =>
    raises_bind (s.callIf_raises _ n (serializeRsrc_raises wild _)) fun s =>
    raises_bind (s.callIf_raises _ n (serializeUint64_raises _)) fun s =>
    s.callIf_raises _ n (serializeRaw_raises wild _ _)

omit wild in
theorem serializeStat_raises (st : Stat) (n : Nat) : Raises allowed (serializeStat st n) :=
  raises_bind (Emit.call_raises _ n (serializeUint32_raises _)) fun s =>
    raises_bind (s.call_raises n (serializeUint64_raises _)) fun s =>
    raises_bind (s.call_raises n (serializeUint64_raises _)) fun s =>
    s.call_raises n (serializeUint64_raises _)

theorem serializeData_raises (data : Data) (n : Nat) : Raises allowed (serializeData data n) :=
  raises_bind (Emit.call_raises _ n (serializeUint64_raises _)) fun s =>
    s.call_raises n (serializeRaw_raises wild _ _)

theorem serializeDirent_raises (dirent : Dirent) (n : Nat) :
    Raises allowed (serializeDirent dirent n) :=
  raises_bind (Emit.call_raises _ n (serializeStr_raises wild _)) fun s =>
    s.call_raises n (serializeUint32_raises _)

theorem serializeDirents_raises (n left : Nat) (ents : List Dirent) (s : Emit) :
    Raises allowed (serializeDirents n left ents s) := by
  induction left generalizing ents s with
  | zero => exact raises_ok s
  | succ left ih =>
      cases ents with
      | nil => exact raises_error wild
      | cons ent ents =>
          exact raises_bind (s.call_raises n (serializeDirent_raises wild ent)) fun s =>
            ih ents s

theorem serializeDir_raises (dir : Dir) (n : Nat) : Raises allowed (serializeDir dir n) :=
  raises_bind (Emit.call_raises _ n (serializeUint64_raises _)) fun s =>
    serializeDirents_raises wild n _ _ s

theorem serializeRsp_raises (rsp : Response) (unknown : ¬ rsp.mrspType ≤ mrspErrorType → allowed .abort)
    (n : Nat) : Raises allowed (serializeRsp rsp n) := by
  refine raises_bind (Emit.call_raises _ n (serializeUint32_raises _)) fun s => ?_
  split_ifs with ok data stat dir error
  · exact raises_ok s
  · exact s.call_raises n (serializeData_raises wild _)
  · exact s.call_raises n (serializeStat_raises _)
  · exact s.call_raises n (serializeDir_raises wild _)
  · exact s.call_raises n (serializeUint32_raises _)
  · refine raises_error (unknown fun known => ?_)
    rcases rspType_cases known with type | type | type | type | type
    · exact ok type
    · exact data type
    · exact stat type
    · exact dir type
    · exact error type

theorem serializeConnect_raises (conn : Connect) (n : Nat) :
    Raises allowed (serializeConnect conn n) :=
  raises_bind (Emit.call_raises _ n (serializeUint32_raises _)) fun s =>
    s.call_raises n (serializeStr_raises wild _)

theorem serializePkt_raises (pkt : Packet)
    (unknown : pkt.mpktType = mpktResponseType → ¬ pkt.mpktResponse.mrspType ≤ mrspErrorType →
      allowed .abort) (n : Nat) : Raises allowed (serializePkt pkt n) := by
  refine raises_bind (Emit.call_raises _ n (serializeUint32_raises _)) fun s => ?_
  refine raises_bind (s.call_raises n (serializeUint32_raises _)) fun s => ?_
  split_ifs with _ response
  · exact s.call_raises n (serializeRequest_raises wild _)
  · exact s.call_raises n (serializeRsp_raises wild _ (unknown response))
  · exact s.call_raises n (serializeConnect_raises wild _)
  · exact raises_ok s

end Wild
end Middfs
