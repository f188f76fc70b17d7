import Middfs.Lib.Conn
import Middfs.Lib.Serialize
import Middfs.Client.Rsrc

/-!
# The handlers of the client responder

`middfs-client-handler.c`.  The state of the handlers are the client's files,
which they reach through an `Os`.  There a directory does not change while it is
read; `handleRequestReaddirPasses` is the same function where it may.
-/

set_option autoImplicit false

namespace Middfs

/-- What an `off_t` is assigned. -/
def offT (n : UInt64) : Int64 := n.toInt64

def oRdonly : Int32 := 0

def oRdwr : Int32 := 2

def negEnomem : Int32 := -Int32.ofInt enomem

section Requests
variable {σ : Type} (conf : ClientConf) (os : Os σ) (malloc : Nat → Bool)

def handleRequestRead (fd : Int) (req : Request) (rsp : Response) (files : σ) :
    (Int32 × Response) × σ :=
  if malloc req.mreqSize.toNat then
    match os.pread fd req.mreqSize.toNat (offT req.mreqOff) files with
    | (.error errno, files) =>
        ((negErrno errno, { rsp with mrspError := Int32.ofNat errno.val }), files)
    | (.ok bytes, files) =>
        ((0,
          { rsp with
            mrspType := mrspDataType
            mrspData := { mdataNbytes := UInt64.ofNat bytes.length, mdataBuf := some bytes } }),
          files)
  else ((negEnomem, rsp), files)

/-- The bytes to be written, which may have to be fetched through NULL. -/
def writeSource (req : Request) : Option (List UInt8) :=
  if req.mreqSize = 0 then some [] else req.mreqData.map (·.take req.mreqSize.toNat)

/-- The number of bytes written is not looked at. -/
def handleRequestWrite (fd : Int) (req : Request) (rsp : Response) (files : σ) :
    (Int32 × Response) × σ :=
  match writeSource req with
  | none => ((-efault, rsp), files)
  | some buf =>
      match os.pwrite fd buf (offT req.mreqOff) files with
      | (.error errno, files) => ((negErrno errno, rsp), files)
      | (.ok _, files) => ((0, { rsp with mrspType := mrspOk }), files)

def handleRequestGetattr (path : CStr) (rsp : Response) (files : σ) : (Int32 × Response) × σ :=
  match os.stat path files with
  | (.error errno, files) => ((negErrno errno, rsp), files)
  | (.ok st, files) =>
      ((0,
        { rsp with
          mrspType := mrspStatType
          mrspStat :=
            { mstatMode := st.stMode
              mstatSize := st.stSize
              mstatBlocks := st.stBlocks
              mstatBlksize := st.stBlksize } }),
        files)

/-- The entries of a directory, as far as their names could be copied. -/
def handleRequestDirents : List (CStr × UInt8) → List Dirent × Bool
  | [] => ([], true)
  | (name, type) :: entries =>
      if malloc (name.val.length + 1) then
        let (dirents, done) := handleRequestDirents entries
        ({ mdeName := some name, mdeMode := Int32.ofNat (type.toNat <<< 12) } :: dirents, done)
      else ([], false)

def handleRequestReaddir (path : CStr) (rsp : Response) (files : σ) : (Int32 × Response) × σ :=
  let rsp := { rsp with mrspType := mrspDirType }
  match os.opendir path files with
  | (.error errno, files) => ((negErrno errno, rsp), files)
  | (.ok entries, files) =>
      let count := UInt64.ofNat entries.length
      if malloc (entries.length * sizeofDirent) then
        let (dirents, done) := handleRequestDirents malloc entries
        ((if done then 0 else negEnomem,
          { rsp with mrspDir := { mdirCount := count, mdirEnts := some dirents } }), files)
      else ((negEnomem, { rsp with mrspDir := { mdirCount := count, mdirEnts := none } }), files)

/-- The loop that fills the array, from the slot `mde` on.  It ends with the
directory or with a name that cannot be copied. -/
def readdirFill : List (CStr × UInt8) → List Dirent → Except Trap (List Dirent × Bool)
  | [], slots => .ok (slots, true)
  | _ :: _, [] => .error .wild
  | (name, type) :: entries, slot :: slots =>
      if malloc (name.val.length + 1) then
        match readdirFill entries slots with
        | .error trap => .error trap
        | .ok (slots, done) =>
            .ok
              ({ mdeName := some name, mdeMode := Int32.ofNat (type.toNat <<< 12) } :: slots, done)
      else .ok ({ slot with mdeName := none } :: slots, false)

/-- What follows `opendir`, when the directory has the entries `first` while they
are counted and `second` while they are copied. -/
def handleRequestReaddirPasses (rsp : Response) (first second : List (CStr × UInt8)) :
    Except Trap (Int32 × Response) :=
  let rsp := { rsp with mrspType := mrspDirType }
  let count := UInt64.ofNat first.length
  if malloc (first.length * sizeofDirent) then
    match readdirFill malloc second (List.replicate first.length {}) with
    | .error trap => .error trap
    | .ok (slots, done) =>
        .ok
          (if done then 0 else negEnomem,
            { rsp with mrspDir := { mdirCount := count, mdirEnts := some slots } })
  else .ok (negEnomem, { rsp with mrspDir := { mdirCount := count, mdirEnts := none } })

def handleRequestAccess (path : CStr) (req : Request) (rsp : Response) (files : σ) :
    (Int32 × Response) × σ :=
  match os.access path req.mreqMode files with
  | (.error errno, files) => ((negErrno errno, rsp), files)
  | (.ok _, files) => ((0, responseInit rsp mrspOk), files)

/-- `0666`. -/
def openMode : Int32 := 0o666

def handleRequestOpen (path : CStr) (req : Request) (rsp : Response) (files : σ) :
    (Int32 × Response) × σ :=
  match os.openFile path req.mreqMode openMode files with
  | (.error errno, files) => ((negErrno errno, rsp), files)
  | (.ok fd, files) => ((0, responseInit rsp mrspOk), os.close fd files)

def handleRequestTruncate (path : CStr) (req : Request) (rsp : Response) (files : σ) :
    (Int32 × Response) × σ :=
  match os.truncate path (offT req.mreqSize) files with
  | (.error errno, files) => ((negErrno errno, rsp), files)
  | (.ok _, files) => ((0, responseInit rsp mrspOk), files)

/-- Only the path of `mreq_to` is looked at. -/
def handleRequestRename (path : CStr) (req : Request) (rsp : Response) (files : σ) :
    Except Trap ((Int32 × Response) × σ) :=
  match req.mreqTo.mrPath with
  | none => .error .wild
  | some toPath =>
      match os.rename path (middfsLocalpathTmp conf toPath) files with
      | (.error errno, files) => .ok ((negErrno errno, rsp), files)
      | (.ok _, files) => .ok ((0, responseInit rsp mrspOk), files)

/-- The file is opened for READ and WRITE alike. -/
def handleRequestFd (path : CStr) (handler : Int → Request → Response → σ → (Int32 × Response) × σ)
    (req : Request) (rsp : Response) (files : σ) : (Int32 × Response) × σ :=
  match os.openFile path oRdwr 0 files with
  | (.error errno, files) => ((negErrno errno, rsp), files)
  | (.ok fd, files) =>
      let (answer, files) := handler fd req rsp files
      (answer, os.close fd files)

/-- The `switch`: `none` for the request types that are not implemented. -/
def handleRequestType (path : CStr) (req : Request) (rsp : Response) (files : σ) :
    Except Trap (Option ((Int32 × Response) × σ)) :=
  if req.mreqType = mreqGetattr then .ok (some (handleRequestGetattr os path rsp files))
  else if req.mreqType = mreqReaddir then .ok (some (handleRequestReaddir os malloc path rsp files))
  else if req.mreqType = mreqAccess then .ok (some (handleRequestAccess os path req rsp files))
  else if req.mreqType = mreqOpen then .ok (some (handleRequestOpen os path req rsp files))
  else if req.mreqType = mreqTruncate then .ok (some (handleRequestTruncate os path req rsp files))
  else if req.mreqType = mreqRename then
    match handleRequestRename conf os path req rsp files with
    | .error trap => .error trap
    | .ok answer => .ok (some answer)
  else if req.mreqType = mreqRead then
    .ok (some (handleRequestFd os path (handleRequestRead os malloc) req rsp files))
  else if req.mreqType = mreqWrite then
    .ok (some (handleRequestFd os path (handleRequestWrite os) req rsp files))
  else .ok none

/-- A request without a path cannot be made into one. -/
def handleRequest (inPkt outPkt : Packet) (files : σ) :
    Except Trap (HandlerE × Packet × σ) :=
  let req := inPkt.mpktRequest
  let outPkt := packetInit outPkt mpktResponseType
  match req.mreqRsrc.mrPath with
  | none => .error .wild
  | some mrPath =>
      match handleRequestType conf os malloc (middfsLocalpathTmp conf mrPath) req outPkt.mpktResponse
        files with
      | .error trap => .error trap
      | .ok none => .ok (.hsDel, outPkt, files)
      | .ok (some ((requestStatus, rsp), files)) =>
          let rsp := if requestStatus < 0 then responseError rsp (-requestStatus) else rsp
          .ok (.hsSuc, { outPkt with mpktResponse := rsp }, files)

def clientRdFin (calls : Calls) (info : Sockinfo) (inPkt : Packet) (files : σ) :
    Except Trap (Handled σ) :=
  if info.state = .mssReqrd then
    if inPkt.mpktType = mpktRequestType then
      match handleRequest conf os calls.malloc inPkt zeroPacket files with
      | .error trap => .error trap
      | .ok (retv, outPkt, files) =>
          if retv = .hsDel then .ok ⟨.hsDel, info, files, []⟩
          else
            match bufferSerialize calls.realloc (serializePkt outPkt) info.outEnd.buf with
            | .error trap => .error trap
            | .ok (buf, none) =>
                .ok ⟨.hsDel, { info with outEnd := { info.outEnd with buf := buf } }, files, []⟩
            | .ok (buf, some _) =>
                .ok
                  ⟨.hsSuc,
                    { info with
                      state := .mssRspwr
                      outEnd := { info.outEnd with buf := buf, fd := info.inEnd.fd }
                      inEnd := { info.inEnd with fd := -1 } },
                    files, []⟩
    else .ok ⟨.hsDel, info, files, []⟩
  else .error .assertFail

def clientWrFin (info : Sockinfo) (files : σ) : Except Trap (Handled σ) :=
  if info.state = .mssRspwr then .ok ⟨.hsDel, info, files, []⟩ else .error .assertFail

end Requests

def clientHi {σ : Type} (conf : ClientConf) (os : Os σ) : HandlerInfo σ where
  rdFin := clientRdFin conf os
  wrFin := fun _ => clientWrFin

end Middfs
