import Middfs.Client.Handler

/-!
# The file system of a client

`middfs-client-ops.c`, for FUSE 3, and the functions of `middfs-client-rsrc.c`
that it calls beside those of `Middfs.Client.Rsrc`.  The pointer `fi` is `none`
where it is NULL, and otherwise the file handle that it points to.  What is
printed is left out.
-/

set_option autoImplicit false

namespace Middfs

/-- The system calls that only the file system makes.  `closeResult` is what
`close` returns, and `links` gives the targets of symbolic links. -/
structure MountOs (σ : Type) extends Os σ where
  closeResult : Int → σ → Except Errno Unit
  links : σ → CStr → Except Errno CStr
  mkdir : CStr → UInt32 → Sys σ Unit
  unlink : CStr → Sys σ Unit
  rmdir : CStr → Sys σ Unit
  symlink : CStr → CStr → Sys σ Unit
  fchmod : Int → UInt32 → Sys σ Unit
  lchmod : CStr → UInt32 → Sys σ Unit
  statvfs : CStr → Sys σ Unit

/-- The files, and the resources that were allocated for open files, by their
addresses. -/
structure Mounted (σ : Type) where
  files : σ
  handles : List (Nat × ClientRsrc)

/-- `fi->fh` as a pointer, which must not have been freed. -/
def fileHandle (handles : List (Nat × ClientRsrc)) (fh : Nat) : Except Trap ClientRsrc :=
  match handles.lookup fh with
  | none => .error .wild
  | some rsrc => .ok rsrc

section Resources
variable {σ : Type} (conf : ClientConf) (os : MountOs σ)

/-- What `client_rsrc_delete` returns, and the files after it. -/
def clientRsrcClose (rsrc : ClientRsrc) (files : σ) : Int32 × σ :=
  (clientRsrcDelete (os.closeResult rsrc.mrFd files) rsrc,
    if rsrc.mrFd ≥ 0 then os.close rsrc.mrFd files else files)

/-- The operations that are for local resources only. -/
def onLocalPath (call : CStr → Sys σ Unit) (rsrc : ClientRsrc) (files : σ) :
    Except Trap (Int32 × σ) :=
  match rsrc.mrType with
  | .mrNetwork | .mrRoot => .ok (-eopnotsupp, files)
  | .mrLocal =>
      match localPath conf rsrc with
      | .error trap => .error trap
      | .ok localpath =>
          let (result, files) := call localpath files
          .ok (statusOf result, files)

def clientRsrcMkdir (rsrc : ClientRsrc) (mode : UInt32) : σ → Except Trap (Int32 × σ) :=
  onLocalPath conf (fun localpath => os.mkdir localpath mode) rsrc

def clientRsrcUnlink : ClientRsrc → σ → Except Trap (Int32 × σ) :=
  onLocalPath conf os.unlink

def clientRsrcRmdir : ClientRsrc → σ → Except Trap (Int32 × σ) :=
  onLocalPath conf os.rmdir

def clientRsrcSymlink (rsrc : ClientRsrc) (target : CStr) : σ → Except Trap (Int32 × σ) :=
  onLocalPath conf (fun localpath => os.symlink target localpath) rsrc

/-- Without the path where there is a descriptor. -/
def clientRsrcChmod (rsrc : ClientRsrc) (mode : UInt32) (files : σ) : Except Trap (Int32 × σ) :=
  if rsrc.mrType = .mrLocal ∧ rsrc.mrFd ≥ 0 then
    let (result, files) := os.fchmod rsrc.mrFd mode files
    .ok (statusOf result, files)
  else onLocalPath conf (fun localpath => os.lchmod localpath mode) rsrc files

end Resources

section Operations
variable {σ : Type} (conf : ClientConf) (os : MountOs σ) (xchg : Xchg σ)

/-- An operation on a resource that is made for it and deleted again. -/
def onTemporary (path : CStr) (op : ClientRsrc → σ → Except Trap (Int32 × σ))
    (mounted : Mounted σ) : Except Trap (Int32 × Mounted σ) :=
  match clientRsrcInit conf path with
  | .error retv => .ok (retv, mounted)
  | .ok tmp =>
      match op tmp mounted.files with
      | .error trap => .error trap
      | .ok (retv, files) =>
          let (res, files) := clientRsrcClose os tmp files
          .ok (if retv < 0 then retv else res, { mounted with files := files })

def onHandle (fh : Nat) (op : ClientRsrc → σ → Except Trap (Int32 × σ)) (mounted : Mounted σ) :
    Except Trap (Int32 × Mounted σ) :=
  match fileHandle mounted.handles fh with
  | .error trap => .error trap
  | .ok rsrc =>
      match op rsrc mounted.files with
      | .error trap => .error trap
      | .ok (retv, files) => .ok (retv, { mounted with files := files })

/-- What is put into `stbuf`, if something is. -/
def middfsGetattr (junk : Packet) (path : CStr) (fi : Option Nat) (mounted : Mounted σ) :
    Except Trap (Int32 × Option Statbuf × Mounted σ) :=
  match fi with
  | none =>
      match clientRsrcInit conf path with
      | .error retv => .ok (retv, none, mounted)
      | .ok tmp =>
          match clientRsrcLstat conf os.toOs xchg junk tmp mounted.files with
          | .error trap => .error trap
          | .ok (retv, stbuf, files) =>
              let (res, files) := clientRsrcClose os tmp files
              .ok (if retv < 0 then retv else res, some stbuf, { mounted with files := files })
  | some fh =>
      match fileHandle mounted.handles fh with
      | .error trap => .error trap
      | .ok rsrc =>
          match clientRsrcLstat conf os.toOs xchg junk rsrc mounted.files with
          | .error trap => .error trap
          | .ok (retv, stbuf, files) => .ok (retv, some stbuf, { mounted with files := files })

def middfsAccess (path : CStr) (mode : Int32) : Mounted σ → Except Trap (Int32 × Mounted σ) :=
  onTemporary conf os path fun tmp => clientRsrcAccess conf os.toOs xchg tmp mode

/-- The entries that `filler` was called with, beside the value returned. -/
def middfsReaddir (full : Nat → Bool) (path : CStr) (mounted : Mounted σ) :
    Except Trap (Int32 × List (Option CStr × Int32) × Mounted σ) :=
  match clientRsrcInit conf path with
  | .error retv => .ok (retv, [], mounted)
  | .ok rsrc =>
      match clientRsrcOpen conf os.toOs xchg rsrc oRdonly 0 mounted.files with
      | .error trap => .error trap
      | .ok (retv, rsrc, files) =>
          if retv < 0 then
            .ok (retv, [], { mounted with files := (clientRsrcClose os rsrc files).2 })
          else
            match clientRsrcReaddir conf os.toOs xchg full rsrc files with
            | .error trap => .error trap
            | .ok (retv, filled, rsrc, files) =>
                let (res, files) := clientRsrcClose os rsrc files
                .ok (if res < 0 ∧ retv ≥ 0 then res else retv, filled, { mounted with files := files })

def middfsMkdir (path : CStr) (mode : UInt32) : Mounted σ → Except Trap (Int32 × Mounted σ) :=
  onTemporary conf os path fun tmp => clientRsrcMkdir conf os tmp mode

def middfsUnlink (path : CStr) : Mounted σ → Except Trap (Int32 × Mounted σ) :=
  onTemporary conf os path (clientRsrcUnlink conf os)

def middfsRmdir (path : CStr) : Mounted σ → Except Trap (Int32 × Mounted σ) :=
  onTemporary conf os path (clientRsrcRmdir conf os)

/-- `res` only takes the place of a zero. -/
def middfsSymlink (target src : CStr) (mounted : Mounted σ) : Except Trap (Int32 × Mounted σ) :=
  match clientRsrcInit conf src with
  | .error retv => .ok (retv, mounted)
  | .ok tmp =>
      match clientRsrcSymlink conf os tmp target mounted.files with
      | .error trap => .error trap
      | .ok (retv, files) =>
          let (res, files) := clientRsrcClose os tmp files
          .ok (if retv = 0 then res else retv, { mounted with files := files })

def middfsLink : Mounted σ → Except Trap (Int32 × Mounted σ) := fun _ => .error .abort

/-- Whether the temporary resource could be deleted is not looked at. -/
def middfsChmod (path : CStr) (mode : UInt32) (fi : Option Nat) (mounted : Mounted σ) :
    Except Trap (Int32 × Mounted σ) :=
  match fi with
  | none =>
      match clientRsrcInit conf path with
      | .error retv => .ok (retv, mounted)
      | .ok tmp =>
          match clientRsrcChmod conf os tmp mode mounted.files with
          | .error trap => .error trap
          | .ok (retv, files) =>
              .ok (retv, { mounted with files := (clientRsrcClose os tmp files).2 })
  | some fh => onHandle fh (fun rsrc => clientRsrcChmod conf os rsrc mode) mounted

def middfsTruncate (path : CStr) (size : Int64) (fi : Option Nat) (mounted : Mounted σ) :
    Except Trap (Int32 × Mounted σ) :=
  match fi with
  | none => onTemporary conf os path (fun tmp => clientRsrcTruncate conf os.toOs xchg tmp size) mounted
  | some fh => onHandle fh (fun rsrc => clientRsrcTruncate conf os.toOs xchg rsrc size) mounted

/-- What `middfs_create` and `middfs_open` do with the resource at `address`, where
`malloc` has put it; it becomes the file handle. -/
def openHandle (address : Option Nat) (path : CStr) (flags mode : Int32) (mounted : Mounted σ) :
    Except Trap (Int32 × Option Nat × Mounted σ) :=
  match address with
  | none => .ok (negEnomem, none, mounted)
  | some address =>
      match clientRsrcInit conf path with
      | .error retv => .ok (retv, none, mounted)
      | .ok rsrc =>
          match clientRsrcOpen conf os.toOs xchg rsrc flags mode mounted.files with
          | .error trap => .error trap
          | .ok (retv, rsrc, files) =>
              if retv < 0 then
                .ok (retv, none, { mounted with files := (clientRsrcClose os rsrc files).2 })
              else .ok (retv, some address, ⟨files, (address, rsrc) :: mounted.handles⟩)

def middfsCreate (address : Option Nat) (path : CStr) (mode flags : Int32) :
    Mounted σ → Except Trap (Int32 × Option Nat × Mounted σ) :=
  openHandle conf os xchg address path flags mode

/-- There is no mode to be fetched: `client_rsrc_open` must not be asked to create
a file. -/
def middfsOpen (address : Option Nat) (path : CStr) (flags : Int32) (mounted : Mounted σ) :
    Except Trap (Int32 × Option Nat × Mounted σ) :=
  if address.isSome ∧ (clientRsrcInit conf path).isOk ∧ flags &&& oCreat ≠ 0 then .error .wild
  else
    match openHandle conf os xchg address path flags 0 mounted with
    | .error trap => .error trap
    | .ok (retv, fh, mounted) => .ok (if retv < 0 then retv else 0, fh, mounted)

/-- Without a file handle it returns what `client_rsrc_delete` does, even if
something was read; if the file could not be opened, that is given NULL. -/
def middfsRead (path : CStr) (size : UInt64) (offset : Int64) (fi : Option Nat)
    (mounted : Mounted σ) : Except Trap (Int32 × List UInt8 × Mounted σ) :=
  match fi with
  | none =>
      match clientRsrcInit conf path with
      | .error retv => .ok (retv, [], mounted)
      | .ok tmp =>
          match clientRsrcOpen conf os.toOs xchg tmp oRdonly 0 mounted.files with
          | .error trap => .error trap
          | .ok (retv, tmp, files) =>
              if retv < 0 then .ok (retv, [], { mounted with files := files })
              else
                match clientRsrcRead conf os.toOs xchg tmp size offset files with
                | .error trap => .error trap
                | .ok (retv, bytes, files) =>
                    let (res, files) := clientRsrcClose os tmp files
                    .ok (if retv < 0 then retv else res, bytes, { mounted with files := files })
  | some fh =>
      match fileHandle mounted.handles fh with
      | .error trap => .error trap
      | .ok rsrc =>
          match clientRsrcRead conf os.toOs xchg rsrc size offset mounted.files with
          | .error trap => .error trap
          | .ok (retv, bytes, files) => .ok (retv, bytes, { mounted with files := files })

def oWronly : Int32 := 1

/-- Without a file handle, the resource that was opened is not the one that is
written to: that is NULL. -/
def middfsWrite (malloc : Nat → Bool) (junk : Packet) (path : CStr) (buf : List UInt8)
    (offset : Int64) (fi : Option Nat) (mounted : Mounted σ) : Except Trap (Int32 × Mounted σ) :=
  match fi with
  | none =>
      match clientRsrcInit conf path with
      | .error retv => .ok (retv, mounted)
      | .ok tmp =>
          match clientRsrcOpen conf os.toOs xchg tmp oWronly 0 mounted.files with
          | .error trap => .error trap
          | .ok (retv, _, files) =>
              if retv < 0 then .ok (retv, { mounted with files := files }) else .error .wild
  | some fh =>
      onHandle fh (fun rsrc => clientRsrcWrite conf os.toOs xchg malloc junk rsrc buf offset) mounted

def middfsStatfs (path : CStr) (mounted : Mounted σ) : Except Trap (Int32 × Mounted σ) :=
  let (result, files) := os.statvfs path mounted.files
  .ok (statusOf result, { mounted with files := files })

/-- What `client_rsrc_delete` returns is not looked at. -/
def middfsRelease (fh : Nat) (mounted : Mounted σ) : Except Trap (Int32 × Mounted σ) :=
  match fileHandle mounted.handles fh with
  | .error trap => .error trap
  | .ok rsrc =>
      .ok (0, ⟨(clientRsrcClose os rsrc mounted.files).2, mounted.handles.eraseP (·.1 == fh)⟩)

end Operations

/-! ## The table of operations -/

/-- A call of one of the operations in `middfs_oper`, with its arguments and what it
finds in uninitialised memory. -/
inductive FuseCall where
  | getattr (junk : Packet) (path : CStr) (fi : Option Nat)
  | access (path : CStr) (mode : Int32)
  | readlink (errno : Option Errno) (path : CStr) (size : Nat)
  | mkdir (path : CStr) (mode : UInt32)
  | symlink (target src : CStr)
  | unlink (path : CStr)
  | rmdir (path : CStr)
  | rename (src dst : CStr)
  | link (src dst : CStr)
  | chmod (path : CStr) (mode : UInt32) (fi : Option Nat)
  | truncate (path : CStr) (size : Int64) (fi : Option Nat)
  | openFile (address : Option Nat) (path : CStr) (flags : Int32)
  | create (address : Option Nat) (path : CStr) (mode flags : Int32)
  | read (path : CStr) (size : UInt64) (offset : Int64) (fi : Option Nat)
  | write (malloc : Nat → Bool) (junk : Packet) (path : CStr) (buf : List UInt8) (offset : Int64)
      (fi : Option Nat)
  | statfs (path : CStr)
  | release (path : CStr) (fh : Nat)
  | readdir (full : Nat → Bool) (path : CStr)

inductive FuseData where
  | nothing
  | stbuf (st : Option Statbuf)
  | stores (at_ : List (Nat × UInt8))
  | bytes (buf : List UInt8)
  | entries (filled : List (Option CStr × Int32))
  | handle (fh : Option Nat)

structure FuseReply where
  retv : Int32
  data : FuseData

section Calls
variable {σ : Type} (conf : ClientConf) (os : MountOs σ) (xchg : Xchg σ)

def plainReply (result : Except Trap (Int32 × Mounted σ)) : Except Trap (FuseReply × Mounted σ) :=
  result.map fun (retv, mounted) => (⟨retv, .nothing⟩, mounted)

def dataReply {β : Type} (data : β → FuseData) (result : Except Trap (Int32 × β × Mounted σ)) :
    Except Trap (FuseReply × Mounted σ) :=
  result.map fun (retv, value, mounted) => (⟨retv, data value⟩, mounted)

def middfsOper (mounted : Mounted σ) : FuseCall → Except Trap (FuseReply × Mounted σ)
  | .getattr junk path fi => dataReply .stbuf (middfsGetattr conf os xchg junk path fi mounted)
  | .access path mode => plainReply (middfsAccess conf os xchg path mode mounted)
  | .readlink errno path size =>
      -- there is no descriptor to be closed
      (middfsReadlink conf (os.links mounted.files) errno (.ok ()) path size).map
        fun (retv, stores) => (⟨retv, .stores stores⟩, mounted)
  | .mkdir path mode => plainReply (middfsMkdir conf os path mode mounted)
  | .symlink target src => plainReply (middfsSymlink conf os target src mounted)
  | .unlink path => plainReply (middfsUnlink conf os path mounted)
  | .rmdir path => plainReply (middfsRmdir conf os path mounted)
  | .rename src dst =>
      (middfsRename conf os.toOs xchg src dst mounted.files).map
        fun (retv, files) => (⟨retv, .nothing⟩, { mounted with files := files })
  | .link _ _ => plainReply (middfsLink mounted)
  | .chmod path mode fi => plainReply (middfsChmod conf os path mode fi mounted)
  | .truncate path size fi => plainReply (middfsTruncate conf os xchg path size fi mounted)
  | .openFile address path flags =>
      dataReply .handle (middfsOpen conf os xchg address path flags mounted)
  | .create address path mode flags =>
      dataReply .handle (middfsCreate conf os xchg address path mode flags mounted)
  | .read path size offset fi => dataReply .bytes (middfsRead conf os xchg path size offset fi mounted)
  | .write malloc junk path buf offset fi =>
      plainReply (middfsWrite conf os xchg malloc junk path buf offset fi mounted)
  | .statfs path => plainReply (middfsStatfs os path mounted)
  | .release _ fh => plainReply (middfsRelease os fh mounted)
  | .readdir full path => dataReply .entries (middfsReaddir conf os xchg full path mounted)

end Calls
end Middfs
