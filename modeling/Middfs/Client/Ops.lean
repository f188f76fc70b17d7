import Middfs.Client.Rsrc

/-!
# The operations that send requests

The eight operations of `middfs-client-rsrc.c` that make up a request when the
resource is not local, as one type, and the packets that they send.
-/

set_option autoImplicit false

namespace Middfs

abbrev FilledRsrc := {rsrc : Rsrc // rsrc.Filled}

/-- An operation with its arguments, the resource apart.  The target of `rename`
is of the kind of the resource; `junk` is what a packet holds that was not
initialised. -/
inductive NetOp where
  | openFile (flags mode : Int32)
  | lstat (junk : Packet)
  | access (mode : Int32)
  | truncate (size : Int64)
  | rename (dst : FilledRsrc)
  | read (size : UInt64) (offset : Int64)
  | write (junk : Packet) (buf : Bytes) (offset : Int64)
  | readdir (full : Nat → Bool)

def NetOp.expects : NetOp → UInt32
  | .openFile .. | .access .. | .truncate .. | .rename .. | .write .. => mrspOk
  | .lstat .. => mrspStatType
  | .read .. => mrspDataType
  | .readdir .. => mrspDirType

section Operations
variable {σ : Type} (conf : ClientConf) (os : Os σ) (xchg : Xchg σ) (malloc : Nat → Bool)

def NetOp.perform (rsrc : ClientRsrc) (files : σ) : NetOp → Except Trap (Int32 × σ)
  | .openFile flags mode =>
      (clientRsrcOpen conf os xchg rsrc flags mode files).map fun (retv, _, files) => (retv, files)
  | .lstat junk =>
      (clientRsrcLstat conf os xchg junk rsrc files).map fun (retv, _, files) => (retv, files)
  | .access mode => clientRsrcAccess conf os xchg rsrc mode files
  | .truncate size => clientRsrcTruncate conf os xchg rsrc size files
  | .rename dst => clientRsrcRename conf os xchg rsrc ⟨rsrc.mrType, dst.val, -1⟩ files
  | .read size offset =>
      (clientRsrcRead conf os xchg rsrc size offset files).map fun (retv, _, files) => (retv, files)
  | .write junk buf offset => clientRsrcWrite conf os xchg malloc junk rsrc buf.val offset files
  | .readdir full =>
      (clientRsrcReaddir conf os xchg full rsrc files).map fun (retv, _, _, files) => (retv, files)

end Operations

/-! ## The packets sent -/

/-- A `packet_xchg` that fails, and keeps what it was to send. -/
def keepSent : Xchg (List Packet) := fun outPkt inPkt sent => .ok ((-1, inPkt), sent ++ [outPkt])

def NetOp.sent (conf : ClientConf) (os : Os (List Packet)) (malloc : Nat → Bool) (rsrc : ClientRsrc)
    (op : NetOp) : List Packet :=
  match op.perform conf os keepSent malloc rsrc [] with
  | .error _ => []
  | .ok (_, sent) => sent

structure Packet.Requests (pkt : Packet) (rsrc : Rsrc) : Prop where
  type : pkt.mpktType = mpktRequestType
  request : pkt.mpktRequest.WellFormed
  rsrc : pkt.mpktRequest.mreqRsrc = rsrc

theorem requests_plain (conf : ClientConf) {type : UInt32} {rsrc : Rsrc} (filled : rsrc.Filled)
    (mode : Int32) (size off : UInt64) (noTarget : reqHasTo type = false)
    (noData : reqHasData type = false) :
    ({ requestPacket conf type rsrc with
      mpktRequest := { (requestPacket conf type rsrc).mpktRequest with
        mreqMode := mode, mreqSize := size, mreqOff := off } } : Packet).Requests rsrc where
  type := rfl
  request := ⟨rfl, filled, fun has => absurd (noTarget.symm.trans has) (by decide),
    fun has => absurd (noData.symm.trans has) (by decide)⟩
  rsrc := rfl

theorem requests_rename (conf : ClientConf) {rsrc : Rsrc} (filled : rsrc.Filled) (dst : FilledRsrc) :
    ({ requestPacket conf mreqRename rsrc with
      mpktRequest := { (requestPacket conf mreqRename rsrc).mpktRequest with
        mreqTo := dst.val } } : Packet).Requests rsrc where
  type := rfl
  request := ⟨rfl, filled, fun _ => dst.property,
    fun has => absurd has (show ¬ reqHasData mreqRename = true by decide)⟩
  rsrc := rfl

theorem requests_write (conf : ClientConf) {rsrc : Rsrc} (filled : rsrc.Filled) (buf : Bytes)
    (off : UInt64) :
    ({ requestPacket conf mreqWrite rsrc with
      mpktRequest := { (requestPacket conf mreqWrite rsrc).mpktRequest with
        mreqSize := UInt64.ofNat buf.val.length, mreqOff := off, mreqData := some buf.val } } :
          Packet).Requests rsrc where
  type := rfl
  request := by
    refine ⟨rfl, filled, fun has => absurd has (show ¬ reqHasTo mreqWrite = true by decide),
      fun _ => ⟨buf.val, rfl, ?_⟩⟩
    have small := buf.property
    rw [UInt64.toNat_ofNat', Nat.mod_eq_of_lt (by omega)]
  rsrc := rfl

theorem sent_requests (conf : ClientConf) (os : Os (List Packet)) (malloc : Nat → Bool)
    {rsrc : ClientRsrc} (remote : rsrc.mrType ≠ .mrLocal) (filled : rsrc.mrRsrc.Filled) (op : NetOp) :
    ∀ pkt ∈ op.sent conf os malloc rsrc, pkt.Requests rsrc.mrRsrc := by
  obtain ⟨type, rsrc, fd⟩ := rsrc
  have nothing : ∀ pkt ∈ ([] : List Packet), pkt.Requests rsrc := fun _ no => by cases no
  have single : ∀ {pkt : Packet}, pkt.Requests rsrc → ∀ other ∈ [pkt], other.Requests rsrc :=
    fun requests other member => List.mem_singleton.mp member ▸ requests
  cases type with
  | mrLocal => exact absurd rfl remote
  | mrNetwork =>
      cases op with
      | openFile flags mode => exact single (requests_plain conf filled flags 0 0 rfl rfl)
      | lstat junk => exact single (requests_plain conf filled 0 0 0 rfl rfl)
      | access mode => exact single (requests_plain conf filled mode 0 0 rfl rfl)
      | truncate size => exact single (requests_plain conf filled 0 size.toUInt64 0 rfl rfl)
      | rename dst => exact single (requests_rename conf filled dst)
      | read size offset =>
          exact single (requests_plain conf filled 0 size offset.toUInt64 rfl rfl)
      | readdir full => exact single (requests_plain conf filled 0 0 0 rfl rfl)
      | write junk buf offset =>
          rw [NetOp.sent, NetOp.perform, clientRsrcWrite]
          dsimp only
          split_ifs with unnamed copied
          · exact nothing
          · exact single (requests_write conf filled buf offset.toUInt64)
          · exact nothing
  | mrRoot =>
      cases op with
      | openFile flags mode => exact nothing
      | lstat junk => exact nothing
      | access mode => exact single (requests_plain conf filled mode 0 0 rfl rfl)
      | truncate size => exact single (requests_plain conf filled 0 size.toUInt64 0 rfl rfl)
      | rename dst => exact single (requests_rename conf filled dst)
      | read size offset => exact nothing
      | write junk buf offset => exact nothing
      | readdir full => exact single (requests_plain conf filled 0 0 0 rfl rfl)

end Middfs
