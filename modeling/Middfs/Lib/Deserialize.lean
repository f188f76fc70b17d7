import Middfs.BigEndian
import Middfs.Lib.Pkt

/-!
# The `deserialize_*` functions

A `deserialize_*` function gets `(buf, nbytes)`, the object to fill and
`*errp`, and gives back the number of bytes it reports, the object and
`*errp`.  The four statements `used += f(buf_ + used, sizerem(nbytes, used),
&obj->field, errp)` are `Cursor.call`: dropping `used` bytes from a list leaves
`sizerem(nbytes, used)` of them, none when `used` has run past the end.
`malloc` says whether an allocation of that many bytes succeeds.
-/

set_option autoImplicit false

namespace Middfs

structure Cursor (σ : Type) where
  used : Nat
  obj : σ
  err : Int
  deriving DecidableEq, Repr

abbrev Deserialize (α : Type) := List UInt8 → α → Int → Cursor α

def enomem : Int := 12

section Cursor
variable {σ α : Type}

def Cursor.call (s : Cursor σ) (buf : List UInt8) (f : Deserialize α) (get : σ → α)
    (set : α → σ → σ) : Cursor σ :=
  let r := f (buf.drop s.used) (get s.obj) s.err
  ⟨sizeAdd s.used r.used, set r.obj s.obj, r.err⟩

def Cursor.tryCall (s : Cursor σ) (buf : List UInt8)
    (f : List UInt8 → α → Int → Except Trap (Cursor α)) (get : σ → α) (set : α → σ → σ) :
    Except Trap (Cursor σ) :=
  match f (buf.drop s.used) (get s.obj) s.err with
  | .error trap => .error trap
  | .ok r => .ok ⟨sizeAdd s.used r.used, set r.obj s.obj, r.err⟩

/-- `deserialize_struct`: the members in order, each with its offset in the
object (here `get` and `set`) and its function. -/
def deserializeStruct (membs : List (List UInt8 → Cursor σ → Cursor σ)) : Deserialize σ :=
  fun buf obj err =>
    if err ≠ 0 then ⟨0, obj, err⟩
    else membs.foldl (fun s memb => memb buf s) ⟨0, obj, err⟩

def memb (get : σ → α) (set : α → σ → σ) (f : Deserialize α) :
    List UInt8 → Cursor σ → Cursor σ :=
  fun buf s => s.call buf f get set

end Cursor

/-! ## Numbers and strings -/

def ntohl (buf : List UInt8) : UInt32 := UInt32.ofNat (BigEndian.ofBytes (buf.take 4))

def deserializeUint32 : Deserialize UInt32 := fun buf uint err =>
  if err ≠ 0 then ⟨0, uint, err⟩
  else ⟨4, if 4 ≤ buf.length then ntohl buf else uint, err⟩

def deserializeInt32 : Deserialize Int32 := fun buf int32 err =>
  let r := deserializeUint32 buf int32.toUInt32 err
  ⟨r.used, Int32.ofUInt32 r.obj, r.err⟩

/-- The halves `uint1` and `uint2` start out uninitialised, here as 0; they are
used without having been read only after an error. -/
def deserializeUint64 : Deserialize UInt64 := fun buf uint err =>
  let s : Cursor (UInt32 × UInt32) := ⟨0, (0, 0), err⟩
  let s := s.call buf deserializeUint32 (·.1) (fun v halves => (v, halves.2))
  let s := s.call buf deserializeUint32 (·.2) (fun v halves => (halves.1, v))
  ⟨s.used,
    if s.used ≤ buf.length then UInt64.ofNat (s.obj.1.toNat * 2 ^ 32 + s.obj.2.toNat) else uint,
    s.err⟩

section Malloc
variable (malloc : Nat → Bool)

def deserializeStr : Deserialize (Option CStr) := fun buf strp err =>
  if err ≠ 0 then ⟨0, strp, err⟩
  else
    let len := strnlen buf
    if len < buf.length then
      if malloc (len + 1) then ⟨sizeAdd len 1, some (strAt buf), err⟩
      else ⟨0, strp, enomem⟩
    else ⟨sizeAdd (sizeAdd buf.length 1) 1, strp, err⟩

def deserializeRsrc : Deserialize Rsrc :=
  deserializeStruct
    [memb Rsrc.mrOwner (fun v rsrc => { rsrc with mrOwner := v }) (deserializeStr malloc),
      memb Rsrc.mrPath (fun v rsrc => { rsrc with mrPath := v }) (deserializeStr malloc)]

/-! ## Requests -/

/-- The members every request has. -/
def deserializeRequestShared (buf : List UInt8) (s : Cursor Request) : Cursor Request :=
  let s := s.call buf deserializeUint32 Request.mreqType (fun v req => { req with mreqType := v })
  let s := s.call buf (deserializeStr malloc) Request.mreqRequester
    (fun v req => { req with mreqRequester := v })
  s.call buf (deserializeRsrc malloc) Request.mreqRsrc (fun v req => { req with mreqRsrc := v })

/-- The members that only some types have, `mreqData` left out. -/
def deserializeRequestFields (type : UInt32) (buf : List UInt8) (s : Cursor Request) :
    Cursor Request :=
  let s :=
    if reqHasMode type then
      s.call buf deserializeInt32 Request.mreqMode (fun v req => { req with mreqMode := v })
    else s
  let s :=
    if reqHasSize type then
      s.call buf deserializeUint64 Request.mreqSize (fun v req => { req with mreqSize := v })
    else s
  let s :=
    if reqHasTo type then
      s.call buf (deserializeRsrc malloc) Request.mreqTo (fun v req => { req with mreqTo := v })
    else s
  if reqHasOff type then
    s.call buf deserializeUint64 Request.mreqOff (fun v req => { req with mreqOff := v })
  else s

/-- `mreqData`: copied when all of it is there, counted in any case. -/
def deserializeRequestData (buf : List UInt8) (s : Cursor Request) : Cursor Request :=
  let size := s.obj.mreqSize.toNat
  if sizerem buf.length s.used ≥ size then
    if malloc size then
      ⟨sizeAdd s.used size, { s.obj with mreqData := some ((buf.drop s.used).take size) }, s.err⟩
    else ⟨0, { s.obj with mreqData := none }, 1⟩
  else ⟨sizeAdd s.used size, s.obj, s.err⟩

def deserializeRequest : Deserialize Request := fun buf req err =>
  if err ≠ 0 then ⟨0, req, err⟩
  else
    let s := deserializeRequestShared malloc buf ⟨0, req, err⟩
    if s.used > buf.length then s
    else
      let type := s.obj.mreqType
      let s := deserializeRequestFields malloc type buf s
      if s.used > buf.length then s
      else
        let s := if reqHasData type then deserializeRequestData malloc buf s else s
        ⟨if s.err ≠ 0 then 0 else s.used, s.obj, s.err⟩

/-! ## Responses -/

def deserializeStat : Deserialize Stat := fun buf st err =>
  let s : Cursor Stat := ⟨0, st, err⟩
  let s := s.call buf deserializeUint32 Stat.mstatMode (fun v st => { st with mstatMode := v })
  let s := s.call buf deserializeUint64 Stat.mstatSize (fun v st => { st with mstatSize := v })
  let s := s.call buf deserializeUint64 Stat.mstatBlocks (fun v st => { st with mstatBlocks := v })
  s.call buf deserializeUint64 Stat.mstatBlksize (fun v st => { st with mstatBlksize := v })

def deserializeData : Deserialize Data := fun buf data err =>
  let s : Cursor Data := ⟨0, data, err⟩
  let s := s.call buf deserializeUint64 Data.mdataNbytes
    (fun v data => { data with mdataNbytes := v })
  if s.used > buf.length ∨ s.err ≠ 0 then s
  else
    let nbytes := s.obj.mdataNbytes.toNat
    if sizerem buf.length s.used ≥ nbytes ∧ nbytes > 0 then
      if malloc nbytes then
        ⟨sizeAdd s.used nbytes, { s.obj with mdataBuf := some ((buf.drop s.used).take nbytes) },
          s.err⟩
      else ⟨0, { s.obj with mdataBuf := none }, 1⟩
    else ⟨sizeAdd s.used nbytes, s.obj, s.err⟩

def deserializeDirent : Deserialize Dirent := fun buf dirent err =>
  let s : Cursor Dirent := ⟨0, dirent, err⟩
  let s := s.call buf (deserializeStr malloc) Dirent.mdeName
    (fun v dirent => { dirent with mdeName := v })
  s.call buf deserializeInt32 Dirent.mdeMode (fun v dirent => { dirent with mdeMode := v })

/-- The loop of `deserialize_dir`, `left` iterations before its end.  The list
holds the entries from `mdir_ents[i]` on; running out of them is a store past
the end of the array. -/
def deserializeDirents : Nat → List UInt8 → List Dirent → Nat → Int →
    Except Trap (Cursor (List Dirent))
  | 0, _, ents, used, err => .ok ⟨used, ents, err⟩
  | _ + 1, _, [], _, _ => .error .wild
  | left + 1, buf, ent :: ents, used, err =>
      let r := deserializeDirent malloc (buf.drop used) ent err
      match deserializeDirents left buf ents (sizeAdd used r.used) r.err with
      | .error trap => .error trap
      | .ok s => .ok ⟨s.used, r.obj :: s.obj, s.err⟩

def sizeofDirent : Nat := 16

/-- The array `mdir_ents` points to, allocated when it is NULL. -/
def direntArray (dir : Dir) : Option (List Dirent) :=
  match dir.mdirEnts with
  | some ents => some ents
  | none =>
      let count := dir.mdirCount.toNat
      if malloc (count * sizeofDirent) then some (List.replicate count {}) else none

def deserializeDir : List UInt8 → Dir → Int → Except Trap (Cursor Dir) := fun buf dir err =>
  let s : Cursor Dir := ⟨0, dir, err⟩
  let s := s.call buf deserializeUint64 Dir.mdirCount (fun v dir => { dir with mdirCount := v })
  if s.err ≠ 0 ∨ s.used > buf.length then .ok s
  else
    match direntArray malloc s.obj with
    | none => .ok ⟨0, s.obj, 1⟩
    | some ents =>
        match deserializeDirents malloc s.obj.mdirCount.toNat buf ents s.used s.err with
        | .error trap => .error trap
        | .ok r => .ok ⟨r.used, { s.obj with mdirEnts := some r.obj }, r.err⟩

/-- `(int32_t *) &rsp->mrsp_type`. -/
def Response.typeInt32 (rsp : Response) : Int32 := Int32.ofUInt32 rsp.mrspType

def Response.setTypeInt32 (v : Int32) (rsp : Response) : Response :=
  { rsp with mrspType := v.toUInt32 }

/-- The `switch` of `deserialize_rsp`. -/
def deserializeRspUnion (buf : List UInt8) (s : Cursor Response) : Except Trap (Cursor Response) :=
  if s.obj.mrspType = mrspOk then .ok s
  else if s.obj.mrspType = mrspDataType then
    .ok (s.call buf (deserializeData malloc) Response.mrspData
      (fun v rsp => { rsp with mrspData := v }))
  else if s.obj.mrspType = mrspStatType then
    .ok (s.call buf deserializeStat Response.mrspStat (fun v rsp => { rsp with mrspStat := v }))
  else if s.obj.mrspType = mrspDirType then
    s.tryCall buf (deserializeDir malloc) Response.mrspDir (fun v rsp => { rsp with mrspDir := v })
  else if s.obj.mrspType = mrspErrorType then
    .ok (s.call buf deserializeInt32 Response.mrspError (fun v rsp => { rsp with mrspError := v }))
  else .error .abort

def deserializeRsp : List UInt8 → Response → Int → Except Trap (Cursor Response) :=
  fun buf rsp err =>
    let s : Cursor Response := ⟨0, rsp, err⟩
    let s := s.call buf deserializeInt32 Response.typeInt32 Response.setTypeInt32
    if s.used > buf.length then .ok s else deserializeRspUnion malloc buf s

/-! ## Packets -/

def deserializeConnect : Deserialize Connect := fun buf conn err =>
  let s : Cursor Connect := ⟨0, conn, err⟩
  let s := s.call buf deserializeUint32 Connect.port (fun v conn => { conn with port := v })
  s.call buf (deserializeStr malloc) Connect.name (fun v conn => { conn with name := v })

/-- The `switch` of `deserialize_pkt`. -/
def deserializePktUnion (buf : List UInt8) (s : Cursor Packet) : Except Trap (Cursor Packet) :=
  if s.obj.mpktType = mpktRequestType then
    .ok (s.call buf (deserializeRequest malloc) Packet.mpktRequest
      (fun v pkt => { pkt with mpktRequest := v }))
  else if s.obj.mpktType = mpktResponseType then
    s.tryCall buf (deserializeRsp malloc) Packet.mpktResponse
      (fun v pkt => { pkt with mpktResponse := v })
  else if s.obj.mpktType = mpktConnectType then
    .ok (s.call buf (deserializeConnect malloc) Packet.mpktConnect
      (fun v pkt => { pkt with mpktConnect := v }))
  else .ok s

def deserializePkt : List UInt8 → Packet → Int → Except Trap (Cursor Packet) :=
  fun buf pkt err =>
    if err ≠ 0 then .ok ⟨0, pkt, err⟩
    else
      let s : Cursor Packet := ⟨0, pkt, err⟩
      let s := s.call buf deserializeUint32 Packet.mpktMagic
        (fun v pkt => { pkt with mpktMagic := v })
      let s := s.call buf deserializeUint32 Packet.mpktType
        (fun v pkt => { pkt with mpktType := v })
      if buf.length < s.used ∨ s.err ≠ 0 then .ok s
      else
        match deserializePktUnion malloc buf s with
        | .error trap => .error trap
        | .ok s => .ok (if s.err ≠ 0 then ⟨0, s.obj, s.err⟩ else s)

end Malloc
end Middfs
