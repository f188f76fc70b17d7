import Middfs.Lib.Util

/-!
# Packets

The structures of `middfs-pkt.h` and `middfs-rsrc.h`.  A pointer is an
`Option`, `none` being NULL; an enum that is read from the wire is the 32-bit
number the code stores.  The members of a union stand side by side: the code
only reads the member that the tag next to the union selects, so `live` keeps
that member and clears the others.
-/

set_option autoImplicit false

namespace Middfs

abbrev mpktMagicNumber : UInt32 := 1800

abbrev mpktNone : UInt32 := 0
abbrev mpktConnectType : UInt32 := 1
abbrev mpktDisconnect : UInt32 := 2
abbrev mpktRequestType : UInt32 := 3
abbrev mpktResponseType : UInt32 := 4

abbrev mreqNone : UInt32 := 0
abbrev mreqGetattr : UInt32 := 1
abbrev mreqAccess : UInt32 := 2
abbrev mreqReadlink : UInt32 := 3
abbrev mreqMkdir : UInt32 := 4
abbrev mreqSymlink : UInt32 := 5
abbrev mreqUnlink : UInt32 := 6
abbrev mreqRmdir : UInt32 := 7
abbrev mreqRename : UInt32 := 8
abbrev mreqChmod : UInt32 := 9
abbrev mreqTruncate : UInt32 := 10
abbrev mreqOpen : UInt32 := 11
abbrev mreqCreate : UInt32 := 12
abbrev mreqRead : UInt32 := 13
abbrev mreqWrite : UInt32 := 14
abbrev mreqReaddir : UInt32 := 15

abbrev mrspOk : UInt32 := 0
abbrev mrspDataType : UInt32 := 1
abbrev mrspStatType : UInt32 := 2
abbrev mrspDirType : UInt32 := 3
abbrev mrspErrorType : UInt32 := 4

structure Rsrc where
  mrOwner : Option CStr := none
  mrPath : Option CStr := none
  deriving DecidableEq, Repr

structure Request where
  mreqType : UInt32 := 0
  mreqRequester : Option CStr := none
  mreqRsrc : Rsrc := {}
  mreqMode : Int32 := 0
  mreqSize : UInt64 := 0
  mreqTo : Rsrc := {}
  mreqOff : UInt64 := 0
  mreqData : Option (List UInt8) := none
  deriving DecidableEq, Repr

structure Stat where
  mstatMode : UInt32 := 0
  mstatSize : UInt64 := 0
  mstatBlocks : UInt64 := 0
  mstatBlksize : UInt64 := 0
  deriving DecidableEq, Repr

structure Data where
  mdataBuf : Option (List UInt8) := none
  mdataNbytes : UInt64 := 0
  deriving DecidableEq, Repr

structure Dirent where
  mdeName : Option CStr := none
  mdeMode : Int32 := 0
  deriving DecidableEq, Repr

structure Dir where
  mdirCount : UInt64 := 0
  mdirEnts : Option (List Dirent) := none
  deriving DecidableEq, Repr

structure Response where
  mrspType : UInt32 := 0
  mrspData : Data := {}
  mrspError : Int32 := 0
  mrspStat : Stat := {}
  mrspDir : Dir := {}
  deriving DecidableEq, Repr

structure Connect where
  name : Option CStr := none
  port : UInt32 := 0
  deriving DecidableEq, Repr

structure Packet where
  mpktMagic : UInt32 := 0
  mpktType : UInt32 := 0
  mpktRequest : Request := {}
  mpktResponse : Response := {}
  mpktConnect : Connect := {}
  deriving DecidableEq, Repr

/-- `struct middfs_packet pkt = {0}`. -/
def zeroPacket : Packet := {}

def reqHasMode (type : UInt32) : Bool :=
  type == mreqAccess || type == mreqChmod || type == mreqCreate || type == mreqOpen

def reqHasSize (type : UInt32) : Bool :=
  type == mreqReadlink || type == mreqTruncate || type == mreqRead || type == mreqWrite

def reqHasTo (type : UInt32) : Bool :=
  type == mreqSymlink || type == mreqRename

def reqHasOff (type : UInt32) : Bool :=
  type == mreqRead || type == mreqWrite

def reqHasData (type : UInt32) : Bool :=
  type == mreqWrite

theorem reqHasSize_of_reqHasData {type : UInt32} (has : reqHasData type = true) :
    reqHasSize type = true := by
  simp only [reqHasData, beq_iff_eq] at has
  subst has
  rfl

def responseError (rsp : Response) (error : Int32) : Response :=
  { rsp with mrspType := mrspErrorType, mrspError := error }

def packetError (pkt : Packet) (error : Int32) : Packet :=
  { pkt with
    mpktMagic := mpktMagicNumber
    mpktType := mpktResponseType
    mpktResponse := responseError pkt.mpktResponse error }

def responseInit (rsp : Response) (type : UInt32) : Response := { rsp with mrspType := type }

def packetInit (pkt : Packet) (type : UInt32) : Packet :=
  { pkt with mpktMagic := mpktMagicNumber, mpktType := type }

/-! ## The fields that mean something -/

def Request.live (req : Request) : Request where
  mreqType := req.mreqType
  mreqRequester := req.mreqRequester
  mreqRsrc := req.mreqRsrc
  mreqMode := if reqHasMode req.mreqType then req.mreqMode else 0
  mreqSize := if reqHasSize req.mreqType then req.mreqSize else 0
  mreqTo := if reqHasTo req.mreqType then req.mreqTo else {}
  mreqOff := if reqHasOff req.mreqType then req.mreqOff else 0
  mreqData := if reqHasData req.mreqType then req.mreqData else none

/-- The entries of a directory; NULL stands for an empty array. -/
def Dir.entries (dir : Dir) : List Dirent := (dir.mdirEnts.getD []).take dir.mdirCount.toNat

/-- The buffer of a DATA response counts up to its first `mdataNbytes` bytes,
the array of a DIR response up to its first `mdirCount` entries. -/
def Response.live (rsp : Response) : Response :=
  if rsp.mrspType = mrspDataType then
    { mrspType := rsp.mrspType
      mrspData :=
        { mdataNbytes := rsp.mrspData.mdataNbytes
          mdataBuf :=
            if rsp.mrspData.mdataNbytes = 0 then none
            else rsp.mrspData.mdataBuf.map (·.take rsp.mrspData.mdataNbytes.toNat) } }
  else if rsp.mrspType = mrspStatType then
    { mrspType := rsp.mrspType, mrspStat := rsp.mrspStat }
  else if rsp.mrspType = mrspDirType then
    { mrspType := rsp.mrspType
      mrspDir :=
        { mdirCount := rsp.mrspDir.mdirCount
          mdirEnts := some rsp.mrspDir.entries } }
  else if rsp.mrspType = mrspErrorType then
    { mrspType := rsp.mrspType, mrspError := rsp.mrspError }
  else { mrspType := rsp.mrspType }

theorem Response.live_type (rsp : Response) : rsp.live.mrspType = rsp.mrspType := by
  unfold Response.live
  split_ifs <;> rfl

def Packet.live (pkt : Packet) : Packet where
  mpktMagic := pkt.mpktMagic
  mpktType := pkt.mpktType
  mpktRequest := if pkt.mpktType = mpktRequestType then pkt.mpktRequest.live else {}
  mpktResponse := if pkt.mpktType = mpktResponseType then pkt.mpktResponse.live else {}
  mpktConnect := if pkt.mpktType = mpktConnectType then pkt.mpktConnect else {}

/-! ## Packets that can be sent -/

def Rsrc.Filled (rsrc : Rsrc) : Prop := rsrc.mrOwner.isSome ∧ rsrc.mrPath.isSome

structure Request.WellFormed (req : Request) : Prop where
  requester : req.mreqRequester.isSome
  rsrc : req.mreqRsrc.Filled
  target : reqHasTo req.mreqType = true → req.mreqTo.Filled
  data : reqHasData req.mreqType = true →
    ∃ bytes, req.mreqData = some bytes ∧ bytes.length = req.mreqSize.toNat

def Dir.Filled (dir : Dir) : Prop :=
  dir.entries.length = dir.mdirCount.toNat ∧ ∀ ent ∈ dir.entries, ent.mdeName.isSome

structure Response.WellFormed (rsp : Response) : Prop where
  known : rsp.mrspType ≤ mrspErrorType
  data : rsp.mrspType = mrspDataType → rsp.mrspData.mdataNbytes ≠ 0 →
    ∃ bytes, rsp.mrspData.mdataBuf = some bytes ∧
      bytes.length = rsp.mrspData.mdataNbytes.toNat
  dir : rsp.mrspType = mrspDirType → rsp.mrspDir.Filled

/-- Every string the encoder reads is there, every buffer has the length the
packet gives for it, and a response has one of the five types. -/
structure Packet.WellFormed (pkt : Packet) : Prop where
  request : pkt.mpktType = mpktRequestType → pkt.mpktRequest.WellFormed
  response : pkt.mpktType = mpktResponseType → pkt.mpktResponse.WellFormed
  connect : pkt.mpktType = mpktConnectType → pkt.mpktConnect.name.isSome

end Middfs
