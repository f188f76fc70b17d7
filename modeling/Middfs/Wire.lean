import Middfs.Lib.Deserialize
import Middfs.Lib.Serialize

/-!
# The wire format

What the packets look like on the wire, with unbounded lengths: `Packet.wire`
prints one and `readPkt` reads one off the front of a byte stream.  A packet
is a head, which gives the length of the payload, followed by the payload.

A reader fills in the fields of an object it is given, so that the fields it
does not read keep what they held.
-/

set_option autoImplicit false

namespace Middfs

open Prefix

/-- Why a stream is refused: a response type that does not exist, or a
directory too large to allocate. -/
inductive Refusal where
  | badType
  | noMemory
  deriving DecidableEq, Repr

abbrev Reader (σ : Type) := σ → Parser UInt8 Refusal σ

section Fill
variable {σ α : Type}

def fill (reader : Reader α) (get : σ → α) (set : α → σ → σ) : Reader σ :=
  fun obj => do
    let v ← reader (get obj)
    pure (set v obj)

def fillIf (cond : Bool) (reader : Reader α) (get : σ → α) (set : α → σ → σ) :
    Reader σ :=
  fun obj => if cond then fill reader get set obj else pure obj

theorem run_fill (K : Reader α) (get : σ → α) (set : α → σ → σ) (o : σ) (ts : List UInt8) :
    (fill K get set o).run ts = ((K (get o)).run ts).andThen fun v rest => .done (set v o) rest :=
  rfl

theorem fill_eq_done {K : Reader α} {get : σ → α} {set : α → σ → σ} {o o' : σ}
    {ts rest : List UInt8} :
    (fill K get set o).run ts = .done o' rest ↔
      ∃ v, (K (get o)).run ts = .done v rest ∧ o' = set v o := by
  rw [run_fill]
  constructor
  · intro read
    obtain ⟨v, mid, first, last⟩ := Res.andThen_eq_done read
    cases last
    exact ⟨v, first, rfl⟩
  · rintro ⟨v, first, rfl⟩
    rw [first]
    rfl

theorem fill_eq_need {K : Reader α} {get : σ → α} {set : α → σ → σ} {o : σ} {ts : List UInt8} :
    (fill K get set o).run ts = .need ↔ (K (get o)).run ts = .need := by
  rw [run_fill]
  cases (K (get o)).run ts <;> simp

theorem fill_eq_refuse {K : Reader α} {get : σ → α} {set : α → σ → σ} {o : σ} {ts : List UInt8}
    {why : Refusal} :
    (fill K get set o).run ts = .refuse why ↔ (K (get o)).run ts = .refuse why := by
  rw [run_fill]
  cases (K (get o)).run ts <;> simp

end Fill

/-! ## Fields -/

def readUint32 : Reader UInt32 := fun _ => do
  let bytes ← take 4
  pure (ntohl bytes)

def readInt32 : Reader Int32 := fun _ => do
  let v ← readUint32 0
  pure (Int32.ofUInt32 v)

def readUint64 : Reader UInt64 := fun _ => do
  let high ← readUint32 0
  let low ← readUint32 0
  pure (UInt64.ofNat (high.toNat * 2 ^ 32 + low.toNat))

def readStr : Reader (Option CStr) := fun _ => do
  let s ← line 0
  pure (some s)

def readRsrc : Reader Rsrc := fun rsrc =>
  fill readStr Rsrc.mrOwner (fun v rsrc => { rsrc with mrOwner := v }) rsrc >>=
    fill readStr Rsrc.mrPath (fun v rsrc => { rsrc with mrPath := v })

def htonll (v : UInt64) : List UInt8 :=
  htonl ((v >>> 32).toUInt32) ++ htonl ((v &&& 0xffffffff).toUInt32)

def htonlInt (v : Int32) : List UInt8 := htonl v.toUInt32

def strWire : Option CStr → List UInt8
  | none => []
  | some s => s.val ++ [0]

def Rsrc.wire (rsrc : Rsrc) : List UInt8 := strWire rsrc.mrOwner ++ strWire rsrc.mrPath

/-! ## Requests -/

def readRequestShared : Reader Request := fun req =>
  fill readUint32 Request.mreqType (fun v req => { req with mreqType := v }) req >>=
    fill readStr Request.mreqRequester (fun v req => { req with mreqRequester := v }) >>=
    fill readRsrc Request.mreqRsrc (fun v req => { req with mreqRsrc := v })

def readRequestFields (type : UInt32) : Reader Request := fun req =>
  fillIf (reqHasMode type) readInt32 Request.mreqMode
      (fun v req => { req with mreqMode := v }) req >>=
    fillIf (reqHasSize type) readUint64 Request.mreqSize
      (fun v req => { req with mreqSize := v }) >>=
    fillIf (reqHasTo type) readRsrc Request.mreqTo (fun v req => { req with mreqTo := v }) >>=
    fillIf (reqHasOff type) readUint64 Request.mreqOff (fun v req => { req with mreqOff := v })

def readRequestHead : Reader Request := fun req => do
  let req ← readRequestShared req
  readRequestFields req.mreqType req

def onlyIf (cond : Bool) (bytes : List UInt8) : List UInt8 := if cond then bytes else []

def Request.wireHead (req : Request) : List UInt8 :=
  htonl req.mreqType ++ strWire req.mreqRequester ++ req.mreqRsrc.wire ++
    onlyIf (reqHasMode req.mreqType) (htonlInt req.mreqMode) ++
    onlyIf (reqHasSize req.mreqType) (htonll req.mreqSize) ++
    onlyIf (reqHasTo req.mreqType) req.mreqTo.wire ++
    onlyIf (reqHasOff req.mreqType) (htonll req.mreqOff)

/-! ## Responses -/

def readStat : Reader Stat := fun st =>
  fill readUint32 Stat.mstatMode (fun v st => { st with mstatMode := v }) st >>=
    fill readUint64 Stat.mstatSize (fun v st => { st with mstatSize := v }) >>=
    fill readUint64 Stat.mstatBlocks (fun v st => { st with mstatBlocks := v }) >>=
    fill readUint64 Stat.mstatBlksize (fun v st => { st with mstatBlksize := v })

def Stat.wire (st : Stat) : List UInt8 :=
  htonl st.mstatMode ++ htonll st.mstatSize ++ htonll st.mstatBlocks ++ htonll st.mstatBlksize

def readDataHead : Reader Data :=
  fill readUint64 Data.mdataNbytes (fun v data => { data with mdataNbytes := v })

def readDirent : Reader Dirent := fun dirent =>
  fill readStr Dirent.mdeName (fun v dirent => { dirent with mdeName := v }) dirent >>=
    fill readInt32 Dirent.mdeMode (fun v dirent => { dirent with mdeMode := v })

def Dirent.wire (ent : Dirent) : List UInt8 := strWire ent.mdeName ++ htonlInt ent.mdeMode

/-- The entries go to the front of the array the object has, or of a new one. -/
def readDir (malloc : Nat → Bool) : Reader Dir := fun dir => do
  let dir ← fill readUint64 Dir.mdirCount (fun v dir => { dir with mdirCount := v }) dir
  match direntArray malloc dir with
  | none => refuse .noMemory
  | some ents => do
      let vs ← times (readDirent {}) dir.mdirCount.toNat
      pure { dir with mdirEnts := some (vs ++ ents.drop dir.mdirCount.toNat) }

def Dir.wire (dir : Dir) : List UInt8 :=
  htonll dir.mdirCount ++ dir.entries.flatMap Dirent.wire

def readRspUnion (malloc : Nat → Bool) : Reader Response := fun rsp =>
  if rsp.mrspType = mrspOk then pure rsp
  else if rsp.mrspType = mrspDataType then
    fill readDataHead Response.mrspData (fun v rsp => { rsp with mrspData := v }) rsp
  else if rsp.mrspType = mrspStatType then
    fill readStat Response.mrspStat (fun v rsp => { rsp with mrspStat := v }) rsp
  else if rsp.mrspType = mrspDirType then
    fill (readDir malloc) Response.mrspDir (fun v rsp => { rsp with mrspDir := v }) rsp
  else if rsp.mrspType = mrspErrorType then
    fill readInt32 Response.mrspError (fun v rsp => { rsp with mrspError := v }) rsp
  else refuse .badType

def readRspHead (malloc : Nat → Bool) : Reader Response := fun rsp =>
  fill readInt32 Response.typeInt32 Response.setTypeInt32 rsp >>= readRspUnion malloc

def Response.wireUnion (rsp : Response) : List UInt8 :=
  if rsp.mrspType = mrspOk then []
  else if rsp.mrspType = mrspDataType then htonll rsp.mrspData.mdataNbytes
  else if rsp.mrspType = mrspStatType then rsp.mrspStat.wire
  else if rsp.mrspType = mrspDirType then rsp.mrspDir.wire
  else htonlInt rsp.mrspError

def Response.wireHead (rsp : Response) : List UInt8 := htonl rsp.mrspType ++ rsp.wireUnion

/-! ## Packets -/

def readConnect : Reader Connect := fun conn =>
  fill readUint32 Connect.port (fun v conn => { conn with port := v }) conn >>=
    fill readStr Connect.name (fun v conn => { conn with name := v })

def Connect.wire (conn : Connect) : List UInt8 := htonl conn.port ++ strWire conn.name

def readPktShared : Reader Packet := fun pkt =>
  fill readUint32 Packet.mpktMagic (fun v pkt => { pkt with mpktMagic := v }) pkt >>=
    fill readUint32 Packet.mpktType (fun v pkt => { pkt with mpktType := v })

def readPktUnion (malloc : Nat → Bool) : Reader Packet := fun pkt =>
  if pkt.mpktType = mpktRequestType then
    fill readRequestHead Packet.mpktRequest (fun v pkt => { pkt with mpktRequest := v }) pkt
  else if pkt.mpktType = mpktResponseType then
    fill (readRspHead malloc) Packet.mpktResponse
      (fun v pkt => { pkt with mpktResponse := v }) pkt
  else if pkt.mpktType = mpktConnectType then
    fill readConnect Packet.mpktConnect (fun v pkt => { pkt with mpktConnect := v }) pkt
  else pure pkt

def readHead (malloc : Nat → Bool) : Reader Packet := fun pkt =>
  readPktShared pkt >>= readPktUnion malloc

def Packet.wireUnion (pkt : Packet) : List UInt8 :=
  if pkt.mpktType = mpktRequestType then pkt.mpktRequest.wireHead
  else if pkt.mpktType = mpktResponseType then pkt.mpktResponse.wireHead
  else if pkt.mpktType = mpktConnectType then pkt.mpktConnect.wire
  else []

def Packet.wireHead (pkt : Packet) : List UInt8 :=
  htonl pkt.mpktMagic ++ htonl pkt.mpktType ++ pkt.wireUnion

/-! ## Payloads -/

/-- What follows the head of a WRITE request. -/
def Request.payloadLength (req : Request) : Nat :=
  if reqHasData req.mreqType then req.mreqSize.toNat else 0

def Request.payload (req : Request) : List UInt8 :=
  if reqHasData req.mreqType then req.mreqData.getD [] else []

def Request.withPayload (bytes : List UInt8) (req : Request) : Request :=
  if reqHasData req.mreqType then { req with mreqData := some bytes } else req

def Data.payload (data : Data) : List UInt8 :=
  (data.mdataBuf.getD []).take data.mdataNbytes.toNat

/-- An empty DATA response keeps the buffer pointer it had. -/
def Data.withPayload (bytes : List UInt8) (data : Data) : Data :=
  if data.mdataNbytes = 0 then data else { data with mdataBuf := some bytes }

/-- What follows the head of a DATA response. -/
def Response.payloadLength (rsp : Response) : Nat :=
  if rsp.mrspType = mrspDataType then rsp.mrspData.mdataNbytes.toNat else 0

def Response.payload (rsp : Response) : List UInt8 :=
  if rsp.mrspType = mrspDataType then rsp.mrspData.payload else []

def Response.withPayload (bytes : List UInt8) (rsp : Response) : Response :=
  if rsp.mrspType = mrspDataType then { rsp with mrspData := rsp.mrspData.withPayload bytes }
  else rsp

def Packet.payloadLength (pkt : Packet) : Nat :=
  if pkt.mpktType = mpktRequestType then pkt.mpktRequest.payloadLength
  else if pkt.mpktType = mpktResponseType then pkt.mpktResponse.payloadLength
  else 0

def Packet.payload (pkt : Packet) : List UInt8 :=
  if pkt.mpktType = mpktRequestType then pkt.mpktRequest.payload
  else if pkt.mpktType = mpktResponseType then pkt.mpktResponse.payload
  else []

def Packet.withPayload (bytes : List UInt8) (pkt : Packet) : Packet :=
  if pkt.mpktType = mpktRequestType then
    { pkt with mpktRequest := pkt.mpktRequest.withPayload bytes }
  else if pkt.mpktType = mpktResponseType then
    { pkt with mpktResponse := pkt.mpktResponse.withPayload bytes }
  else pkt

def readPkt (malloc : Nat → Bool) : Reader Packet := fun pkt => do
  let pkt ← readHead malloc pkt
  let bytes ← take pkt.payloadLength
  pure (pkt.withPayload bytes)

def Packet.wire (pkt : Packet) : List UInt8 := pkt.wireHead ++ pkt.payload

end Middfs
