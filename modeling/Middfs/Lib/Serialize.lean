import Middfs.BigEndian
import Middfs.Lib.Pkt

/-!
# The `serialize_*` functions

`serialize_*(val, buf, nbytes)` becomes, for each `val`, a function from
`nbytes` to the number the C function returns and the bytes it wrote, every
run of bytes with its offset from `buf`.  An empty run is not recorded.  The
statement `used += f(val, buf_ + used, sizerem(nbytes, used))` is `Emit.call`.
-/

set_option autoImplicit false

namespace Middfs

structure Emit where
  used : Nat
  writes : List (Nat × List UInt8)
  deriving DecidableEq, Repr

abbrev Serialize := Nat → Except Trap Emit

def Emit.none : Emit := ⟨0, []⟩

def Emit.call (s : Emit) (nbytes : Nat) (f : Serialize) : Except Trap Emit := do
  let r ← f (sizerem nbytes s.used)
  pure ⟨sizeAdd s.used r.used, s.writes ++ r.writes.map fun w => (s.used + w.1, w.2)⟩

def Emit.callIf (s : Emit) (cond : Bool) (nbytes : Nat) (f : Serialize) : Except Trap Emit :=
  if cond then s.call nbytes f else pure s

/-- `serialize_struct`: the members in order, the member pointers already
followed. -/
def serializeStruct (membs : List Serialize) : Serialize := fun nbytes =>
  membs.foldlM (fun s memb => s.call nbytes memb) Emit.none

/-! ## Numbers, strings and raw bytes -/

def htonl (uint : UInt32) : List UInt8 := BigEndian.toBytes 4 uint.toNat

def serializeUint32 (uint : UInt32) : Serialize := fun nbytes =>
  .ok ⟨4, if 4 ≤ nbytes then [(0, htonl uint)] else []⟩

def serializeInt32 (int32 : Int32) : Serialize := serializeUint32 int32.toUInt32

def serializeUint64 (uint : UInt64) : Serialize := fun nbytes => do
  let uint1 := (uint >>> 32).toUInt32
  let uint2 := (uint &&& 0xffffffff).toUInt32
  let s ← Emit.none.call nbytes (serializeUint32 uint1)
  s.call nbytes (serializeUint32 uint2)

/-- `strnlen` stops at `nbytes`, so a string that does not fit is reported as
one byte more than the room there is. -/
def serializeStr (str : Option CStr) : Serialize := fun nbytes =>
  match str with
  | none => .error .wild
  | some str =>
      let len := smin str.val.length nbytes
      .ok ⟨sizeAdd len 1, if len < nbytes then [(0, str.val ++ [0])] else []⟩

/-- The bytes of `memcpy(_, src, n)`. -/
def memcpyFrom (src : Option (List UInt8)) (n : Nat) : Except Trap (List UInt8) :=
  if n = 0 then .ok []
  else
    match src with
    | none => .error .wild
    | some bytes => if n ≤ bytes.length then .ok (bytes.take n) else .error .wild

/-- `n` raw bytes of `src`: copied when they fit, counted in any case. -/
def serializeRaw (src : Option (List UInt8)) (n : Nat) : Serialize := fun nbytes =>
  if nbytes ≥ n then do
    let bytes ← memcpyFrom src n
    pure ⟨n, if n = 0 then [] else [(0, bytes)]⟩
  else .ok ⟨n, []⟩

def serializeRsrc (rsrc : Rsrc) : Serialize :=
  serializeStruct [serializeStr rsrc.mrOwner, serializeStr rsrc.mrPath]

/-! ## Requests -/

def serializeRequest (req : Request) : Serialize := fun nbytes => do
  let type := req.mreqType
  let s ← Emit.none.call nbytes (serializeUint32 type)
  let s ← s.call nbytes (serializeStr req.mreqRequester)
  let s ← s.call nbytes (serializeRsrc req.mreqRsrc)
  let s ← s.callIf (reqHasMode type) nbytes (serializeInt32 req.mreqMode)
  let s ← s.callIf (reqHasSize type) nbytes (serializeUint64 (viaInt32 req.mreqSize))
  let s ← s.callIf (reqHasTo type) nbytes (serializeRsrc req.mreqTo)
  let s ← s.callIf (reqHasOff type) nbytes (serializeUint64 (viaInt32 req.mreqOff))
  s.callIf (reqHasData type) nbytes (serializeRaw req.mreqData req.mreqSize.toNat)

/-! ## Responses -/

def serializeStat (st : Stat) : Serialize := fun nbytes => do
  let s ← Emit.none.call nbytes (serializeUint32 st.mstatMode)
  let s ← s.call nbytes (serializeUint64 st.mstatSize)
  let s ← s.call nbytes (serializeUint64 st.mstatBlocks)
  s.call nbytes (serializeUint64 st.mstatBlksize)

def serializeData (data : Data) : Serialize := fun nbytes => do
  let s ← Emit.none.call nbytes (serializeUint64 data.mdataNbytes)
  s.call nbytes (serializeRaw data.mdataBuf data.mdataNbytes.toNat)

def serializeDirent (dirent : Dirent) : Serialize := fun nbytes => do
  let s ← Emit.none.call nbytes (serializeStr dirent.mdeName)
  s.call nbytes (serializeInt32 dirent.mdeMode)

/-- The loop of `serialize_dir`, `left` iterations before its end.  The list
holds the entries from `mdir_ents[i]` on. -/
def serializeDirents (nbytes : Nat) : Nat → List Dirent → Emit → Except Trap Emit
  | 0, _, s => .ok s
  | _ + 1, [], _ => .error .wild
  | left + 1, ent :: ents, s => do
      let s ← s.call nbytes (serializeDirent ent)
      serializeDirents nbytes left ents s

def serializeDir (dir : Dir) : Serialize := fun nbytes => do
  let s ← Emit.none.call nbytes (serializeUint64 dir.mdirCount)
  serializeDirents nbytes dir.mdirCount.toNat (dir.mdirEnts.getD []) s

def serializeRsp (rsp : Response) : Serialize := fun nbytes => do
  let s ← Emit.none.call nbytes (serializeInt32 (Int32.ofUInt32 rsp.mrspType))
  if rsp.mrspType = mrspOk then pure s
  else if rsp.mrspType = mrspDataType then s.call nbytes (serializeData rsp.mrspData)
  else if rsp.mrspType = mrspStatType then s.call nbytes (serializeStat rsp.mrspStat)
  else if rsp.mrspType = mrspDirType then s.call nbytes (serializeDir rsp.mrspDir)
  else if rsp.mrspType = mrspErrorType then s.call nbytes (serializeInt32 rsp.mrspError)
  else .error .abort

/-! ## Packets -/

def serializeConnect (conn : Connect) : Serialize := fun nbytes => do
  let s ← Emit.none.call nbytes (serializeUint32 conn.port)
  s.call nbytes (serializeStr conn.name)

def serializePkt (pkt : Packet) : Serialize := fun nbytes => do
  let s ← Emit.none.call nbytes (serializeUint32 pkt.mpktMagic)
  let s ← s.call nbytes (serializeUint32 pkt.mpktType)
  if pkt.mpktType = mpktRequestType then s.call nbytes (serializeRequest pkt.mpktRequest)
  else if pkt.mpktType = mpktResponseType then s.call nbytes (serializeRsp pkt.mpktResponse)
  else if pkt.mpktType = mpktConnectType then s.call nbytes (serializeConnect pkt.mpktConnect)
  else pure s

/-! ## What the writes do to memory -/

/-- `memcpy(mem + off, bytes)`; a write past the end of `mem` is `none`. -/
def store (mem : List UInt8) (write : Nat × List UInt8) : Option (List UInt8) :=
  if write.1 + write.2.length ≤ mem.length then
    some (mem.take write.1 ++ write.2 ++ mem.drop (write.1 + write.2.length))
  else none

def storeAll (mem : List UInt8) (writes : List (Nat × List UInt8)) : Option (List UInt8) :=
  writes.foldlM store mem

end Middfs
