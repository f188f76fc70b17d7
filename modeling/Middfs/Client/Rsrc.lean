import Middfs.Lib.Deserialize
import Middfs.Lib.Serialize
import Middfs.Stores

/-!
# The resources of a client

`middfs-client-rsrc.c`: paths, the local and the network branch of the file
operations, `middfs_rename` and `middfs_readlink`.  The system calls that a
client makes on its own files are a structure `Os`, over the state `σ` of these
files, and so is `packet_xchg`.  Strings are duplicated without failing; an
`int` that is negated must not be the smallest one.
-/

set_option autoImplicit false

namespace Middfs

/-! ## The system -/

abbrev Sys (σ β : Type) := σ → Except Errno β × σ

structure Statbuf where
  stMode : UInt32 := 0
  stSize : UInt64 := 0
  stBlocks : UInt64 := 0
  stBlksize : UInt64 := 0
  stUid : UInt32 := 0
  stGid : UInt32 := 0
  stNlink : UInt64 := 0
  deriving DecidableEq

/-- A directory gives the names of its entries with their `d_type`. -/
structure Os (σ : Type) where
  openFile : CStr → Int32 → Int32 → Sys σ Int
  close : Int → σ → σ
  pread : Int → Nat → Int64 → Sys σ (List UInt8)
  pwrite : Int → List UInt8 → Int64 → Sys σ Nat
  stat : CStr → Sys σ Statbuf
  lstat : CStr → Sys σ Statbuf
  opendir : CStr → Sys σ (List (CStr × UInt8))
  fdopendir : Int → Sys σ (List (CStr × UInt8))
  access : CStr → Int32 → Sys σ Unit
  truncate : CStr → Int64 → Sys σ Unit
  ftruncate : Int → Int64 → Sys σ Unit
  rename : CStr → CStr → Sys σ Unit
  uid : UInt32
  gid : UInt32

def eacces : Errno := ⟨13, by decide⟩

def invalidArgument : Errno := ⟨22, by decide⟩

def failingOs {φ : Type} : Os φ where
  openFile := fun _ _ _ files => (.error eacces, files)
  close := fun _ files => files
  pread := fun _ _ _ files => (.error eacces, files)
  pwrite := fun _ _ _ files => (.error eacces, files)
  stat := fun _ files => (.error eacces, files)
  lstat := fun _ files => (.error eacces, files)
  opendir := fun _ files => (.error eacces, files)
  fdopendir := fun _ files => (.error eacces, files)
  access := fun _ _ files => (.error eacces, files)
  truncate := fun _ _ files => (.error eacces, files)
  ftruncate := fun _ _ files => (.error eacces, files)
  rename := fun _ _ files => (.error eacces, files)
  uid := 0
  gid := 0

/-- `0`, or the negated error code. -/
def statusOf {β : Type} : Except Errno β → Int32
  | .error errno => negErrno errno
  | .ok _ => 0

/-! ## Paths -/

structure ClientConf where
  username : CStr
  homepath : CStr

def slash : UInt8 := 47

def slashStr : CStr := ⟨[slash], by decide⟩

theorem localpath_noNul (conf : ClientConf) (path : CStr) :
    (0 : UInt8) ∉ conf.homepath.val ++ slash :: (conf.username.val ++ path.val) := by
  simp only [List.mem_append, List.mem_cons, not_or]
  exact ⟨conf.homepath.property, by decide, conf.username.property, path.property⟩

def middfsLocalpathTmp (conf : ClientConf) (middfsPath : CStr) : CStr :=
  ⟨conf.homepath.val ++ slash :: (conf.username.val ++ middfsPath.val),
    localpath_noNul conf middfsPath⟩

inductive ClientRsrcType where
  | mrNetwork
  | mrLocal
  | mrRoot
  deriving DecidableEq, Repr

structure ClientRsrc where
  mrType : ClientRsrcType
  mrRsrc : Rsrc
  mrFd : Int
  deriving DecidableEq

/-- The part of a string after the bytes that `keep` holds of. -/
def CStr.dropWhile (keep : UInt8 → Bool) (s : CStr) : CStr :=
  ⟨s.val.dropWhile keep, fun found => s.property ((List.dropWhile_sublist keep).subset found)⟩

def CStr.takeWhile (keep : UInt8 → Bool) (s : CStr) : CStr :=
  ⟨s.val.takeWhile keep, fun found => s.property ((List.takeWhile_sublist keep).subset found)⟩

def emptyStr : CStr := ⟨[], List.not_mem_nil⟩

def clientRsrcInit (conf : ClientConf) (path : CStr) : Except Int32 ClientRsrc :=
  let ownerBegin := CStr.dropWhile (· == slash) path
  if ownerBegin = path then .error (-einval)
  else if ownerBegin.val = [] then
    .ok { mrType := .mrRoot, mrRsrc := ⟨some emptyStr, some emptyStr⟩, mrFd := -1 }
  else
    let owner := CStr.takeWhile (· != slash) ownerBegin
    let ownerEnd := CStr.dropWhile (· != slash) ownerBegin
    let mrPath := if ownerEnd.val = [] then slashStr else ownerEnd
    .ok
      { mrType := if owner ≠ conf.username then .mrNetwork else .mrLocal
        mrRsrc := ⟨some owner, some mrPath⟩
        mrFd := -1 }

/-- The string of a resource that was initialised. -/
def localPath (conf : ClientConf) (rsrc : ClientRsrc) : Except Trap CStr :=
  match rsrc.mrRsrc.mrPath with
  | none => .error .wild
  | some path => .ok (middfsLocalpathTmp conf path)

/-! ## Requests and responses -/

/-- `-n`, which is undefined for the smallest `int`. -/
def negateInt (n : Int32) : Except Trap Int32 :=
  if n = Int32.minValue then .error .wild else .ok (-n)

def requestInit (conf : ClientConf) (req : Request) (type : UInt32) (rsrc : Rsrc) : Request :=
  { req with mreqType := type, mreqRequester := some conf.username, mreqRsrc := rsrc }

def responseValidate (pkt : Packet) (type : UInt32) : Except Trap Int32 :=
  if pkt.mpktMagic ≠ mpktMagicNumber then .ok (-eio)
  else if pkt.mpktType ≠ mpktResponseType then .ok (-eio)
  else if pkt.mpktResponse.mrspType ≠ type then
    if pkt.mpktResponse.mrspType = mrspErrorType then negateInt pkt.mpktResponse.mrspError
    else .ok (-eio)
  else .ok 0

/-- The member of the union for a `stat`.  The code of an ERROR response lies
where the mode does. -/
def Response.statMember (rsp : Response) : Stat :=
  if rsp.mrspType = mrspErrorType then
    { rsp.mrspStat with mstatMode := rsp.mrspError.toUInt32 }
  else rsp.mrspStat

/-- The member of the union for a directory, in a packet that was zeroed.  The
code of an ERROR response is then the low half of the count. -/
def Response.dirMember (rsp : Response) : Dir :=
  if rsp.mrspType = mrspErrorType then { mdirCount := rsp.mrspError.toUInt32.toUInt64 }
  else rsp.mrspDir

/-- `packet_xchg`, from the packet to send and what the other packet holds. -/
abbrev Xchg (σ : Type) := Packet → Packet → σ → Except Trap ((Int32 × Packet) × σ)

section Operations
variable {σ : Type} (conf : ClientConf) (os : Os σ) (xchg : Xchg σ)

def requestPacket (type : UInt32) (rsrc : Rsrc) : Packet :=
  { packetInit zeroPacket mpktRequestType with mpktRequest := requestInit conf {} type rsrc }

/-- An exchange after which the response must be of type OK. -/
def requestOk (outPkt : Packet) (files : σ) : Except Trap (Int32 × σ) :=
  match xchg outPkt zeroPacket files with
  | .error trap => .error trap
  | .ok ((retv, inPkt), files) =>
      if retv < 0 then .ok (-eio, files)
      else
        match responseValidate inPkt mrspOk with
        | .error trap => .error trap
        | .ok retv => .ok (if retv < 0 then retv else 0, files)

def oCreat : Int32 := 64

/-- `mode` is the argument after `flags`, if there is one. -/
def clientRsrcOpen (rsrc : ClientRsrc) (flags mode : Int32) (files : σ) :
    Except Trap (Int32 × ClientRsrc × σ) :=
  let mode := if flags &&& oCreat ≠ 0 then mode else 0
  match rsrc.mrType with
  | .mrNetwork =>
      let outPkt := requestPacket conf mreqOpen rsrc.mrRsrc
      let outPkt := { outPkt with mpktRequest := { outPkt.mpktRequest with mreqMode := flags } }
      match requestOk xchg outPkt files with
      | .error trap => .error trap
      | .ok (retv, files) => .ok (retv, rsrc, files)
  | .mrRoot => .ok (0, rsrc, files)
  | .mrLocal =>
      match localPath conf rsrc with
      | .error trap => .error trap
      | .ok path =>
          match os.openFile path flags mode files with
          | (.error errno, files) => .ok (negErrno errno, rsrc, files)
          | (.ok fd, files) => .ok (0, { rsrc with mrFd := fd }, files)

/-- `S_IFDIR | S_IRUSR | S_IRGRP | S_IROTH`. -/
def rootMode : UInt32 := 0o040444

/-- `in_pkt` is not initialised: it is `junk`. -/
def clientRsrcLstat (junk : Packet) (rsrc : ClientRsrc) (files : σ) :
    Except Trap (Int32 × Statbuf × σ) :=
  match rsrc.mrType with
  | .mrNetwork =>
      match xchg (requestPacket conf mreqGetattr rsrc.mrRsrc) junk files with
      | .error trap => .error trap
      | .ok ((retv, inPkt), files) =>
          if retv < 0 then .ok (retv, {}, files)
          else
            match responseValidate inPkt mrspStatType with
            | .error trap => .error trap
            | .ok retv =>
                if retv < 0 then .ok (retv, {}, files)
                else
                  let mstat := inPkt.mpktResponse.statMember
                  .ok
                    (0,
                      { stMode := mstat.mstatMode
                        stSize := mstat.mstatSize
                        stBlocks := mstat.mstatBlocks
                        stBlksize := mstat.mstatBlksize
                        stUid := os.uid
                        stGid := os.gid
                        stNlink := 1 },
                      files)
  | .mrRoot => .ok (0, { stMode := rootMode, stUid := os.uid, stGid := os.gid }, files)
  | .mrLocal =>
      match localPath conf rsrc with
      | .error trap => .error trap
      | .ok path =>
          match os.lstat path files with
          | (.error errno, files) => .ok (negErrno errno, {}, files)
          | (.ok st, files) => .ok (0, st, files)

def clientRsrcAccess (rsrc : ClientRsrc) (mode : Int32) (files : σ) : Except Trap (Int32 × σ) :=
  match rsrc.mrType with
  | .mrNetwork | .mrRoot =>
      let outPkt := requestPacket conf mreqAccess rsrc.mrRsrc
      requestOk xchg { outPkt with mpktRequest := { outPkt.mpktRequest with mreqMode := mode } } files
  | .mrLocal =>
      match localPath conf rsrc with
      | .error trap => .error trap
      | .ok path =>
          let (result, files) := os.access path mode files
          .ok (statusOf result, files)

def clientRsrcTruncate (rsrc : ClientRsrc) (size : Int64) (files : σ) :
    Except Trap (Int32 × σ) :=
  match rsrc.mrType with
  | .mrNetwork | .mrRoot =>
      let outPkt := requestPacket conf mreqTruncate rsrc.mrRsrc
      requestOk xchg
        { outPkt with mpktRequest := { outPkt.mpktRequest with mreqSize := size.toUInt64 } } files
  | .mrLocal =>
      if rsrc.mrFd ≥ 0 then
        let (result, files) := os.ftruncate rsrc.mrFd size files
        .ok (statusOf result, files)
      else
        match localPath conf rsrc with
        | .error trap => .error trap
        | .ok path =>
            let (result, files) := os.truncate path size files
            .ok (statusOf result, files)

def clientRsrcRename (src dst : ClientRsrc) (files : σ) : Except Trap (Int32 × σ) :=
  if src.mrType ≠ dst.mrType then .ok (-exdev, files)
  else
    match dst.mrType with
    | .mrNetwork | .mrRoot =>
        let outPkt := requestPacket conf mreqRename src.mrRsrc
        requestOk xchg { outPkt with mpktRequest := { outPkt.mpktRequest with mreqTo := dst.mrRsrc } }
          files
    | .mrLocal =>
        match localPath conf src with
        | .error trap => .error trap
        | .ok localFrom =>
            match localPath conf dst with
            | .error trap => .error trap
            | .ok localTo =>
                let (result, files) := os.rename localFrom localTo files
                .ok (statusOf result, files)

/-- The bytes put into `buf`, beside the value returned. -/
def clientRsrcRead (rsrc : ClientRsrc) (size : UInt64) (offset : Int64) (files : σ) :
    Except Trap (Int32 × List UInt8 × σ) :=
  match rsrc.mrType with
  | .mrNetwork =>
      let outPkt := requestPacket conf mreqRead rsrc.mrRsrc
      let req := { outPkt.mpktRequest with mreqSize := size, mreqOff := offset.toUInt64 }
      match xchg { outPkt with mpktRequest := req } zeroPacket files with
      | .error trap => .error trap
      | .ok ((retv, inPkt), files) =>
          if retv < 0 then .ok (retv, [], files)
          else if inPkt.mpktMagic ≠ mpktMagicNumber ∨ inPkt.mpktType ≠ mpktResponseType then
            .ok (-eio, [], files)
          else
            let rsp := inPkt.mpktResponse
            if rsp.mrspType = mrspDataType then
              let nbytes := min size.toNat rsp.mrspData.mdataNbytes.toNat
              match memcpyFrom rsp.mrspData.mdataBuf nbytes with
              | .error trap => .error trap
              | .ok bytes => .ok (Int32.ofNat nbytes, bytes, files)
            else if rsp.mrspType = mrspErrorType then
              match negateInt rsp.mrspError with
              | .error trap => .error trap
              | .ok retv => .ok (retv, [], files)
            else .ok (-eio, [], files)
  | .mrRoot => .ok (-eopnotsupp, [], files)
  | .mrLocal =>
      match os.pread rsrc.mrFd size.toNat offset files with
      | (.error errno, files) => .ok (negErrno errno, [], files)
      | (.ok bytes, files) => .ok (Int32.ofNat bytes.length, bytes, files)

/-- `buf` holds the `size` bytes to be written. -/
def clientRsrcWrite (malloc : Nat → Bool) (junk : Packet) (rsrc : ClientRsrc) (buf : List UInt8)
    (offset : Int64) (files : σ) : Except Trap (Int32 × σ) :=
  let size := UInt64.ofNat buf.length
  match rsrc.mrType with
  | .mrNetwork =>
      if conf.username.val = [] then .error .assertFail
      else if malloc (conf.username.val.length + 1) ∧ malloc buf.length then
        let outPkt := requestPacket conf mreqWrite rsrc.mrRsrc
        let req :=
          { outPkt.mpktRequest with
            mreqSize := size, mreqOff := offset.toUInt64, mreqData := some buf }
        match xchg { outPkt with mpktRequest := req } junk files with
        | .error trap => .error trap
        | .ok ((retv, inPkt), files) =>
            if retv < 0 then .ok (-1, files)
            else if inPkt.mpktMagic = mpktMagicNumber ∧ inPkt.mpktType = mpktResponseType ∧
                inPkt.mpktResponse.mrspType = mrspOk then
              .ok (Int32.ofNat size.toNat, files)
            else .error .assertFail
      else .ok (-Int32.ofInt enomem, files)
  | .mrRoot => .ok (-eopnotsupp, files)
  | .mrLocal =>
      match os.pwrite rsrc.mrFd buf offset files with
      | (.error errno, files) => .ok (negErrno errno, files)
      | (.ok count, files) => .ok (Int32.ofNat count, files)

/-- The calls of `filler` for the entries from number `i` on, `left` iterations
before the end, until the first one that says, by `full`, that there is no more
room: what it was called with. -/
def fillEntries {β : Type} (full : Nat → Bool) : Nat → Nat → List β → Except Trap (List β)
  | 0, _, _ => .ok []
  | _ + 1, _, [] => .error .wild
  | left + 1, i, entry :: entries =>
      if full i then .ok [entry]
      else
        match fillEntries full left (i + 1) entries with
        | .error trap => .error trap
        | .ok filled => .ok (entry :: filled)

/-- The entries that `filler` was called with, beside the value returned.  The
directory of a file descriptor is closed again. -/
def clientRsrcReaddir (full : Nat → Bool) (rsrc : ClientRsrc) (files : σ) :
    Except Trap (Int32 × List (Option CStr × Int32) × ClientRsrc × σ) :=
  match rsrc.mrType with
  | .mrNetwork | .mrRoot =>
      match xchg (requestPacket conf mreqReaddir rsrc.mrRsrc) zeroPacket files with
      | .error trap => .error trap
      | .ok ((retv, inPkt), files) =>
          if retv < 0 then .ok (retv, [], rsrc, files)
          else
            match responseValidate inPkt mrspDirType with
            | .error trap => .error trap
            | .ok retv =>
                if retv < 0 then .ok (retv, [], rsrc, files)
                else
                  let dir := inPkt.mpktResponse.dirMember
                  match fillEntries full dir.mdirCount.toNat 0 (dir.mdirEnts.getD []) with
                  | .error trap => .error trap
                  | .ok filled =>
                      .ok (retv, filled.map fun ent => (ent.mdeName, ent.mdeMode), rsrc, files)
  | .mrLocal =>
      match os.fdopendir rsrc.mrFd files with
      | (.error errno, files) => .ok (negErrno errno, [], rsrc, files)
      | (.ok entries, files) =>
          match fillEntries full entries.length 0 entries with
          | .error trap => .error trap
          | .ok filled =>
              let filled := filled.map fun ent => (some ent.1, Int32.ofNat (ent.2.toNat <<< 12))
              .ok (0, filled, { rsrc with mrFd := -1 }, files)

/-- A second path that is relative leaves a resource uninitialised, which is
then deleted. -/
def middfsRename (src dst : CStr) (files : σ) : Except Trap (Int32 × σ) :=
  match clientRsrcInit conf src with
  | .error retv => .ok (retv, files)
  | .ok src =>
      match clientRsrcInit conf dst with
      | .error _ => .error .wild
      | .ok dst => clientRsrcRename conf os xchg src dst files

end Operations

/-! ## Symbolic links -/

section Links
variable (conf : ClientConf) (links : CStr → Except Errno CStr)

/-- `readlink(2)`, where `links` gives the targets: the bytes that it copies, of
which it returns the number.  It takes no buffer of 0 bytes. -/
def readlink (path : CStr) (bufsize : Nat) : Except Errno (List UInt8) :=
  if bufsize = 0 then .error invalidArgument
  else
    match links path with
    | .error errno => .error errno
    | .ok target => .ok (target.val.take bufsize)

/-- The value returned, and what is stored in `buf`.  The number of bytes is
converted to an `int`; if that is negative, `errno` is what an earlier failure
left, `none` if there was none. -/
def clientRsrcReadlink (errno : Option Errno) (rsrc : ClientRsrc) (bufsize : Nat) :
    Except Trap (Int32 × List (Nat × UInt8)) :=
  match rsrc.mrType with
  | .mrNetwork | .mrRoot => .ok (-eopnotsupp, [])
  | .mrLocal =>
      match localPath conf rsrc with
      | .error trap => .error trap
      | .ok localpath =>
          match readlink links localpath bufsize with
          | .error errno => .ok (negErrno errno, [])
          | .ok bytes =>
              let retv := Int32.ofNat bytes.length
              let retv := if retv < 0 then (errno.map negErrno).getD 0 else retv
              .ok (retv, Stores.block 0 bytes)

/-- `closeResult` is what `close` returns for the descriptor, if there is one. -/
def clientRsrcDelete (closeResult : Except Errno Unit) (rsrc : ClientRsrc) : Int32 :=
  if rsrc.mrFd ≥ 0 then statusOf closeResult else 0

def middfsReadlink (errno : Option Errno) (closeResult : Except Errno Unit) (path : CStr)
    (size : Nat) : Except Trap (Int32 × List (Nat × UInt8)) :=
  match clientRsrcInit conf path with
  | .error retv => .ok (retv, [])
  | .ok rsrc =>
      match clientRsrcReadlink conf links errno rsrc size with
      | .error trap => .error trap
      | .ok (retv, stores) =>
          let stores := if retv < 0 then stores else stores ++ [(retv.toNatClampNeg, 0)]
          let res := clientRsrcDelete closeResult rsrc
          .ok (if retv < 0 then retv else res, stores)

end Links
end Middfs
