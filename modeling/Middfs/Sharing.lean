import Middfs.RemoteCalls
import Middfs.Separation

/-!
# Sharing files

The file systems of all the clients over the network.  A call for a file of
another user comes to system calls on the machine of that user, whoever else
makes calls in between: what the wire format, the registry, the server and the
responders do is seen by nobody.  Where the owner makes the same system calls
himself, it does not matter who calls.
-/

set_option autoImplicit false

namespace Middfs

open Runs LexicalPath

/-! ## Files of others -/

def ClientRsrc.remote : ClientRsrc → Option RemoteFile
  | ⟨.mrNetwork, ⟨some owner, some path⟩, _⟩ => some ⟨owner, path⟩
  | _ => none

def pathFile (conf : ClientConf) (path : CStr) : Option RemoteFile :=
  match clientRsrcInit conf path with
  | .error _ => none
  | .ok rsrc => rsrc.remote

def handleFile (handles : List (Nat × ClientRsrc)) (fh : Nat) : Option RemoteFile :=
  match fileHandle handles fh with
  | .error _ => none
  | .ok rsrc => rsrc.remote

def fileOf (conf : ClientConf) (handles : List (Nat × ClientRsrc)) (path : CStr) :
    Option Nat → Option RemoteFile
  | none => pathFile conf path
  | some fh => handleFile handles fh

/-- The file of another user that a call is for, if it is for one. -/
def FuseCall.file (conf : ClientConf) (handles : List (Nat × ClientRsrc)) : FuseCall → Option RemoteFile
  | .getattr _ path fi | .chmod path _ fi | .truncate path _ fi | .read path _ _ fi
  | .write _ _ path _ _ fi => fileOf conf handles path fi
  | .access path _ | .readlink _ path _ | .mkdir path _ | .symlink _ path | .unlink path | .rmdir path
  | .rename path _ | .openFile _ path _ | .create _ path _ _ | .readdir _ path => pathFile conf path
  | .link _ _ | .statfs _ => none
  | .release _ fh => handleFile handles fh

/-! ## What the calls come to -/

section Remote
variable {φ : Type} (net : Net φ) (user : CStr) (os : MountOs (World φ)) (file : RemoteFile)

def replied {σ β : Type} (mounted : Mounted σ) (call : Sys σ β) (reply : Except Errno β → FuseReply) :
    Except Trap (FuseReply × Mounted σ) :=
  .ok (reply (call mounted.files).1, { mounted with files := (call mounted.files).2 })

/-- Opening a file of another user is only tried; nothing stays open on his machine. -/
def Net.opened (address : Option Nat) (flags : Int32) (mounted : Mounted (World φ)) :
    Except Trap (FuseReply × Mounted (World φ)) :=
  match address with
  | none => .ok (⟨negEnomem, .handle none⟩, mounted)
  | some address =>
      match net.tryOpen file flags mounted.files with
      | (.error errno, world) => .ok (⟨negErrno errno, .handle none⟩, { mounted with files := world })
      | (.ok _, world) =>
          .ok (⟨0, .handle (some address)⟩, ⟨world, (address, file.resource) :: mounted.handles⟩)

/-- What a call for a file of another user comes to.  There are no links and no file
system to be asked for. -/
def Net.remoteCall (mounted : Mounted (World φ)) : FuseCall → Except Trap (FuseReply × Mounted (World φ))
  | .getattr junk _ _ =>
      match net.stat file os.toOs junk mounted.files with
      | .error trap => .error trap
      | .ok (retv, st, world) => .ok (⟨retv, .stbuf (some st)⟩, { mounted with files := world })
  | .access _ mode => replied mounted (net.access file mode) fun result => ⟨statusOf result, .nothing⟩
  | .truncate _ size _ => replied mounted (net.truncate file size) fun result => ⟨statusOf result, .nothing⟩
  | .rename _ dst =>
      match clientRsrcInit (net.conf user) dst with
      | .error _ => .error .wild
      | .ok dst =>
          match dst.remote with
          | none => .ok (⟨-exdev, .nothing⟩, mounted)
          | some target =>
              replied mounted (net.rename file target) fun result => ⟨statusOf result, .nothing⟩
  | .readlink _ _ _ => .ok (⟨-eopnotsupp, .stores []⟩, mounted)
  | .mkdir _ _ | .symlink _ _ | .unlink _ | .rmdir _ | .chmod _ _ _ =>
      .ok (⟨-eopnotsupp, .nothing⟩, mounted)
  | .openFile address _ flags =>
      if address.isSome ∧ flags &&& oCreat ≠ 0 then .error .wild else net.opened file address flags mounted
  | .create address _ _ flags => net.opened file address flags mounted
  | .read _ size offset none =>
      match net.tryOpen file oRdonly mounted.files with
      | (.error errno, world) => .ok (⟨negErrno errno, .bytes []⟩, { mounted with files := world })
      | (.ok _, world) =>
          replied { mounted with files := world } (net.fetch file size offset) fun result =>
            ⟨statusOf result, .bytes (countOf size result).2⟩
  | .read _ size offset (some _) =>
      replied mounted (net.fetch file size offset) fun result =>
        ⟨(countOf size result).1, .bytes (countOf size result).2⟩
  | .write _ _ _ _ _ none =>
      match net.tryOpen file oWronly mounted.files with
      | (.error errno, world) => .ok (⟨negErrno errno, .nothing⟩, { mounted with files := world })
      | (.ok _, _) => .error .wild
  | .write malloc junk _ buf offset (some _) =>
      match net.store file user malloc junk buf offset mounted.files with
      | .error trap => .error trap
      | .ok (retv, world) => .ok (⟨retv, .nothing⟩, { mounted with files := world })
  | .release _ fh => .ok (⟨0, .nothing⟩, { mounted with handles := mounted.handles.eraseP (·.1 == fh) })
  | .readdir full _ =>
      match net.tryOpen file oRdonly mounted.files with
      | (.error errno, world) => .ok (⟨negErrno errno, .entries []⟩, { mounted with files := world })
      | (.ok _, world) =>
          replied { mounted with files := world } (net.list file) fun result =>
            ⟨statusOf result, .entries (listingOf full result)⟩
  | .link _ _ | .statfs _ => .error .abort

/-- The calls that are for nobody else's files are what they are. -/
def Net.call (mounted : Mounted (World φ)) (call : FuseCall) :
    Except Trap (FuseReply × Mounted (World φ)) :=
  match call.file (net.conf user) mounted.handles with
  | some file => net.remoteCall user os file mounted call
  | none => middfsOper (net.conf user) os net.xchg mounted call

end Remote

/-! ## The files that are found -/

/-- What a request can be made of: the path fits into memory, and the numbers are not
changed by the encoder. -/
def FuseCall.Sendable (call : FuseCall) : Prop :=
  call.path.val.length < 2 ^ 60 ∧
    match call with
    | .rename _ dst => dst.val.length < 2 ^ 60
    | .truncate _ size _ => FitsInt32 size.toUInt64
    | .read _ size offset _ => FitsInt32 size ∧ FitsInt32 offset.toUInt64
    | .write _ _ _ buf offset _ => buf.length < 2 ^ 31 ∧ FitsInt32 offset.toUInt64
    | _ => True

def RemoteHandles (handles : List (Nat × ClientRsrc)) : Prop :=
  ∀ handle ∈ handles, handle.2.mrType = .mrNetwork →
    ∃ file : RemoteFile, handle.2 = file.resource ∧ file.Brief

theorem remote_some {rsrc : ClientRsrc} {file : RemoteFile} (found : rsrc.remote = some file) :
    rsrc.mrType = .mrNetwork ∧ rsrc.mrRsrc = file.rsrc := by
  unfold ClientRsrc.remote at found
  split at found
  · cases found
    exact ⟨rfl, rfl⟩
  · cases found

def namedFile (path : CStr) : RemoteFile := ⟨pathOwner path, ownerPath path⟩

theorem namedFile_brief {path : CStr} (short : path.val.length < 2 ^ 60) : (namedFile path).Brief := by
  have first : (path.val.dropWhile (· == slash)).length ≤ path.val.length :=
    (List.dropWhile_sublist _).length_le
  refine ⟨ownerPath_ne_nil path, ?_, ?_⟩
  · have owner : (pathOwner path).val.length ≤ (path.val.dropWhile (· == slash)).length :=
      (List.takeWhile_sublist _).length_le
    exact Nat.lt_of_le_of_lt (owner.trans first) short
  · show (ownerPath path).val.length < 2 ^ 60
    unfold ownerPath
    simp only
    split_ifs with ended
    · decide
    · have rest : (CStr.dropWhile (· != slash) (CStr.dropWhile (· == slash) path)).val.length ≤
          (path.val.dropWhile (· == slash)).length := (List.dropWhile_sublist _).length_le
      exact Nat.lt_of_le_of_lt (rest.trans first) short

theorem made_brief {conf : ClientConf} {path : CStr} {rsrc : ClientRsrc} (short : path.val.length < 2 ^ 60)
    (made : clientRsrcInit conf path = .ok rsrc) (away : rsrc.mrType = .mrNetwork) :
    ∃ file : RemoteFile, rsrc = file.resource ∧ file.Brief := by
  refine ⟨namedFile path, ?_, namedFile_brief short⟩
  unfold clientRsrcInit at made
  simp only at made
  split at made
  · cases made
  split at made
  · cases made
    cases away
  · cases made
    have network : (if pathOwner path ≠ conf.username then ClientRsrcType.mrNetwork else .mrLocal) =
        .mrNetwork := away
    show ClientRsrc.mk (if pathOwner path ≠ conf.username then .mrNetwork else .mrLocal)
      (namedFile path).rsrc (-1) = _
    rw [network]
    rfl

theorem pathFile_some {conf : ClientConf} {path : CStr} {file : RemoteFile}
    (short : path.val.length < 2 ^ 60) (found : pathFile conf path = some file) :
    clientRsrcInit conf path = .ok file.resource ∧ file.Brief := by
  unfold pathFile at found
  split at found
  · cases found
  · rename_i rsrc made
    obtain ⟨other, rfl, brief⟩ := made_brief short made (remote_some found).1
    cases found
    exact ⟨made, brief⟩

theorem handleFile_some {handles : List (Nat × ClientRsrc)} {fh : Nat} {file : RemoteFile}
    (kept : RemoteHandles handles) (found : handleFile handles fh = some file) :
    fileHandle handles fh = .ok file.resource ∧ file.Brief := by
  unfold handleFile at found
  split at found
  · cases found
  · rename_i rsrc held
    obtain ⟨other, same, brief⟩ := kept _ (fileHandle_member held) (remote_some found).1
    simp only at same
    subst same
    cases found
    exact ⟨held, brief⟩

theorem resource_closed {σ : Type} (os : MountOs σ) (file : RemoteFile) (files : σ) :
    clientRsrcClose os file.resource files = (0, files) :=
  clientRsrcClose_none (show ¬ (0 : Int) ≤ -1 by decide) files

/-! ## One call -/

theorem countOf_settled (size : UInt64) {result : Except Errno (List UInt8)}
    (bounded : ∀ bytes, result = .ok bytes → bytes.length < 2 ^ 31) :
    (if (countOf size result).1 < 0 then (countOf size result).1 else 0) = statusOf result := by
  cases result with
  | error errno => exact if_pos (negErrno_neg errno)
  | ok bytes =>
      have short : (bytes.take size.toNat).length < 2 ^ 31 :=
        Nat.lt_of_le_of_lt (List.length_take_le' _ _) (bounded bytes rfl)
      exact if_neg fun negative => not_nonneg negative (readResult_nonneg short)

section Step
variable {φ : Type} {net : Net φ} (modest : net.Modest) {user : CStr} (named : user.val.length < 2 ^ 60)
variable (os : MountOs (World φ)) {mounted : Mounted (World φ)} {file : RemoteFile}
include modest named

theorem openHandle_remote {path : CStr} (made : clientRsrcInit (net.conf user) path = .ok file.resource)
    (brief : file.Brief) (address : Option Nat) (flags mode : Int32) :
    dataReply .handle (openHandle (net.conf user) os net.xchg address path flags mode mounted) =
      net.opened file address flags mounted := by
  cases address with
  | none => rfl
  | some address =>
      simp only [openHandle, made, tryOpen_remotely modest named brief os.toOs mounted.files flags mode,
        resource_closed, Net.opened]
      cases tried : net.tryOpen file flags mounted.files with
      | mk result world =>
          cases result with
          | error errno =>
              rw [if_pos (statusOf_error_neg errno)]
              rfl
          | ok _ =>
              rw [if_neg (statusOf_ok_nonneg ())]
              rfl

omit modest named in
theorem onTemporary_replied {path : CStr} {rsrc : ClientRsrc}
    (made : clientRsrcInit (net.conf user) path = .ok rsrc)
    {op : ClientRsrc → World φ → Except Trap (Int32 × World φ)} {call : Sys (World φ) Unit}
    (done : op rsrc mounted.files = .ok (statusOf (call mounted.files).1, (call mounted.files).2)) :
    plainReply (onTemporary (net.conf user) os path op mounted) =
      replied mounted call fun result => ⟨statusOf result, .nothing⟩ := by
  simp only [onTemporary, made, done, clientRsrcClose_none (made_own _ made), statusOf_settled]
  rfl

theorem open_remote {path : CStr} (made : clientRsrcInit (net.conf user) path = .ok file.resource)
    (brief : file.Brief) (address : Option Nat) (flags : Int32) :
    middfsOper (net.conf user) os net.xchg mounted (.openFile address path flags) =
      net.remoteCall user os file mounted (.openFile address path flags) := by
  simp only [middfsOper, middfsOpen, made, Net.remoteCall, Except.isOk, Except.toBool, true_and]
  split_ifs with creating
  · rfl
  · cases address with
    | none => rfl
    | some address =>
        simp only [openHandle, made, tryOpen_remotely modest named brief os.toOs mounted.files flags 0,
          resource_closed, Net.opened]
        cases tried : net.tryOpen file flags mounted.files with
        | mk result world =>
            cases result with
            | error errno =>
                simp only [if_pos (statusOf_error_neg errno)]
                rfl
            | ok _ => rfl

theorem rename_remote {path dst : CStr} (made : clientRsrcInit (net.conf user) path = .ok file.resource)
    (brief : file.Brief) (short : dst.val.length < 2 ^ 60) :
    middfsOper (net.conf user) os net.xchg mounted (.rename path dst) =
      net.remoteCall user os file mounted (.rename path dst) := by
  simp only [middfsOper, middfsRename, made, Net.remoteCall]
  cases targeted : clientRsrcInit (net.conf user) dst with
  | error retv => rfl
  | ok target =>
      simp only
      cases away : target.remote with
      | none =>
          have elsewhere : file.resource.mrType ≠ target.mrType := by
            intro network
            obtain ⟨other, rfl, _⟩ := made_brief short targeted network.symm
            cases away
          rw [clientRsrcRename, if_pos elsewhere]
          rfl
      | some other =>
          obtain ⟨other', rfl, brief'⟩ := made_brief short targeted (remote_some away).1
          cases away
          simp only [rename_remotely modest named brief os.toOs mounted.files brief']
          rfl

theorem read_remote {path : CStr} (made : clientRsrcInit (net.conf user) path = .ok file.resource)
    (brief : file.Brief) {size : UInt64} {offset : Int64} (sizeFits : FitsInt32 size)
    (offFits : FitsInt32 offset.toUInt64) :
    middfsOper (net.conf user) os net.xchg mounted (.read path size offset none) =
      net.remoteCall user os file mounted (.read path size offset none) := by
  simp only [middfsOper, middfsRead, made, Net.remoteCall,
    tryOpen_remotely modest named brief os.toOs mounted.files oRdonly 0]
  cases tried : net.tryOpen file oRdonly mounted.files with
  | mk result world =>
      cases result with
      | error errno =>
          rw [if_pos (statusOf_error_neg errno)]
          rfl
      | ok _ =>
          rw [if_neg (statusOf_ok_nonneg ())]
          simp only [fetch_remotely modest named brief os.toOs world sizeFits offFits, resource_closed]
          have settled : (if (countOf size (net.fetch file size offset world).1).1 < 0 then
              (countOf size (net.fetch file size offset world).1).1 else 0) =
                statusOf (net.fetch file size offset world).1 :=
            countOf_settled size fun bytes came =>
              fetched_ok (modest.os file.owner) (net.remotely_ok came)
          rw [settled]
          rfl

theorem write_remote {path : CStr} (made : clientRsrcInit (net.conf user) path = .ok file.resource)
    (brief : file.Brief) (malloc : Nat → Bool) (junk : Packet) (buf : List UInt8) (offset : Int64) :
    middfsOper (net.conf user) os net.xchg mounted (.write malloc junk path buf offset none) =
      net.remoteCall user os file mounted (.write malloc junk path buf offset none) := by
  simp only [middfsOper, middfsWrite, made, Net.remoteCall,
    tryOpen_remotely modest named brief os.toOs mounted.files oWronly 0]
  cases tried : net.tryOpen file oWronly mounted.files with
  | mk result world =>
      cases result with
      | error errno =>
          rw [if_pos (statusOf_error_neg errno)]
          rfl
      | ok _ =>
          rw [if_neg (statusOf_ok_nonneg ())]
          rfl

theorem readdir_remote {path : CStr} (made : clientRsrcInit (net.conf user) path = .ok file.resource)
    (brief : file.Brief) (full : Nat → Bool) :
    middfsOper (net.conf user) os net.xchg mounted (.readdir full path) =
      net.remoteCall user os file mounted (.readdir full path) := by
  simp only [middfsOper, middfsReaddir, made, Net.remoteCall,
    tryOpen_remotely modest named brief os.toOs mounted.files oRdonly 0]
  cases tried : net.tryOpen file oRdonly mounted.files with
  | mk result world =>
      cases result with
      | error errno =>
          rw [if_pos (statusOf_error_neg errno)]
          simp only [resource_closed]
          rfl
      | ok _ =>
          rw [if_neg (statusOf_ok_nonneg ())]
          simp only [list_remotely modest named brief os.toOs world full, resource_closed]
          rw [if_neg fun both => absurd both.1 (by decide)]
          rfl

theorem middfsOper_remote {call : FuseCall} (sendable : call.Sendable) (kept : RemoteHandles mounted.handles) :
    middfsOper (net.conf user) os net.xchg mounted call = net.call user os mounted call := by
  obtain ⟨short, fits⟩ := sendable
  unfold Net.call
  cases found : call.file (net.conf user) mounted.handles with
  | none => rfl
  | some file =>
      cases call with
      | access path mode =>
          obtain ⟨made, brief⟩ := @pathFile_some (net.conf user) path file short found
          exact onTemporary_replied os made
            (access_remotely modest named brief os.toOs mounted.files mode)
      | getattr junk path fi =>
          cases fi with
          | none =>
              obtain ⟨made, brief⟩ := @pathFile_some (net.conf user) path file short found
              simp only [middfsOper, middfsGetattr, made, resource_closed,
                stat_remotely modest named brief os.toOs mounted.files junk, Net.remoteCall]
              cases came : net.stat file os.toOs junk mounted.files with
              | error trap => rfl
              | ok reply =>
                  simp only [Net.attributes_settled came]
                  rfl
          | some fh =>
              obtain ⟨held, brief⟩ := handleFile_some kept found
              simp only [middfsOper, middfsGetattr, held,
                stat_remotely modest named brief os.toOs mounted.files junk, Net.remoteCall]
              cases net.stat file os.toOs junk mounted.files <;> rfl
      | readlink errno path size =>
          obtain ⟨made, brief⟩ := @pathFile_some (net.conf user) path file short found
          simp only [middfsOper, middfsReadlink, made]
          rfl
      | mkdir path mode | unlink path | rmdir path =>
          obtain ⟨made, brief⟩ := @pathFile_some (net.conf user) path file short found
          simp only [middfsOper, middfsMkdir, middfsUnlink, middfsRmdir, onTemporary, made]
          rfl
      | symlink target path =>
          obtain ⟨made, brief⟩ := @pathFile_some (net.conf user) path file short found
          simp only [middfsOper, middfsSymlink, made]
          rfl
      | chmod path mode fi =>
          cases fi with
          | none =>
              obtain ⟨made, brief⟩ := @pathFile_some (net.conf user) path file short found
              simp only [middfsOper, middfsChmod, made]
              rfl
          | some fh =>
              obtain ⟨held, brief⟩ := handleFile_some kept found
              simp only [middfsOper, middfsChmod, onHandle, held]
              rfl
      | truncate path size fi =>
          cases fi with
          | none =>
              obtain ⟨made, brief⟩ := @pathFile_some (net.conf user) path file short found
              exact onTemporary_replied os made
                (truncate_remotely modest named brief os.toOs mounted.files fits)
          | some fh =>
              obtain ⟨held, brief⟩ := handleFile_some kept found
              simp only [middfsOper, middfsTruncate, onHandle, held,
                truncate_remotely modest named brief os.toOs mounted.files fits]
              rfl
      | rename path dst =>
          obtain ⟨made, brief⟩ := @pathFile_some (net.conf user) path file short found
          exact rename_remote modest named os made brief fits
      | openFile address path flags =>
          obtain ⟨made, brief⟩ := @pathFile_some (net.conf user) path file short found
          exact open_remote modest named os made brief address flags
      | create address path mode flags =>
          obtain ⟨made, brief⟩ := @pathFile_some (net.conf user) path file short found
          exact openHandle_remote modest named os made brief address flags mode
      | read path size offset fi =>
          cases fi with
          | none =>
              obtain ⟨made, brief⟩ := @pathFile_some (net.conf user) path file short found
              exact read_remote modest named os made brief fits.1 fits.2
          | some fh =>
              obtain ⟨held, brief⟩ := handleFile_some kept found
              simp only [middfsOper, middfsRead, held,
                fetch_remotely modest named brief os.toOs mounted.files fits.1 fits.2]
              rfl
      | write malloc junk path buf offset fi =>
          cases fi with
          | none =>
              obtain ⟨made, brief⟩ := @pathFile_some (net.conf user) path file short found
              exact write_remote modest named os made brief malloc junk buf offset
          | some fh =>
              obtain ⟨held, brief⟩ := handleFile_some kept found
              simp only [middfsOper, middfsWrite, onHandle, held,
                store_remotely modest named brief os.toOs mounted.files malloc junk fits.1 fits.2, Net.remoteCall]
              cases net.store file user malloc junk buf offset mounted.files <;> rfl
      | release path fh =>
          obtain ⟨held, brief⟩ := handleFile_some kept found
          simp only [middfsOper, middfsRelease, held, resource_closed]
          rfl
      | readdir full path =>
          obtain ⟨made, brief⟩ := @pathFile_some (net.conf user) path file short found
          exact readdir_remote modest named os made brief full
      | link src dst | statfs path => cases found

end Step

/-! ## Runs -/

/-- The machines, the open files of every user, and the replies that were given. -/
structure Shared (φ : Type) where
  world : World φ
  handles : CStr → List (Nat × ClientRsrc)
  replies : List (CStr × FuseReply)

section Runs
variable {φ : Type}

def sharing (oper : CStr → Mounted (World φ) → FuseCall → Except Trap (FuseReply × Mounted (World φ)))
    (call : CStr × FuseCall) (s : Shared φ) : Except Trap (Shared φ) :=
  match oper call.1 ⟨s.world, s.handles call.1⟩ call.2 with
  | .error trap => .error trap
  | .ok (reply, mounted) =>
      .ok
        { world := mounted.files
          handles := Function.update s.handles call.1 mounted.handles
          replies := s.replies ++ [(call.1, reply)] }

theorem RemoteHandles.reopened {conf : ClientConf} {path : CStr} {handles handles' : List (Nat × ClientRsrc)}
    (kept : RemoteHandles handles) (short : path.val.length < 2 ^ 60)
    (reopened : Reopened conf path handles handles') : RemoteHandles handles' := by
  cases reopened with
  | kept => exact kept
  | opened address rsrc _ made =>
      intro handle member away
      rcases List.mem_cons.mp member with rfl | among
      · exact made_brief short (made away) away
      · exact kept handle among away
  | released fh => exact fun handle member => kept handle (List.eraseP_subset member)

/-- A call on one mount leaves the open files on all mounts as they should be. -/
theorem sharing_keeps {net : Net φ} {os : CStr → MountOs (World φ)} {call : CStr × FuseCall} {s s' : Shared φ}
    (sendable : call.2.Sendable) (kept : ∀ user, RemoteHandles (s.handles user))
    (done : sharing (fun user => middfsOper (net.conf user) (os user) net.xchg) call s = .ok s') (user : CStr) :
    RemoteHandles (s'.handles user) := by
  unfold sharing at done
  split at done
  · cases done
  · rename_i reply mounted performed
    cases done
    show RemoteHandles (Function.update s.handles call.1 mounted.handles user)
    by_cases caller : user = call.1
    · subst caller
      rw [Function.update_self]
      exact (kept call.1).reopened sendable.1 (middfsOper_reopened performed)
    · rw [Function.update_of_ne caller]
      exact kept user

/-- Whatever calls users make, one after the other, for their own files and for those of
others: over the network they come to what the system calls on the machines of the
owners come to. -/
theorem sharing_remotely {net : Net φ} (modest : net.Modest) (os : CStr → MountOs (World φ))
    {calls : List (CStr × FuseCall)}
    (sendable : ∀ call ∈ calls, call.1.val.length < 2 ^ 60 ∧ call.2.Sendable) (world : World φ) :
    steps (sharing fun user => middfsOper (net.conf user) (os user) net.xchg) calls ⟨world, fun _ => [], []⟩ =
      steps (sharing fun user => net.call user (os user)) calls ⟨world, fun _ => [], []⟩ := by
  refine @steps_congr (Shared φ) (CStr × FuseCall) Trap _ _ (fun s => ∀ user, RemoteHandles (s.handles user))
    calls ?_ ?_ _ fun _ _ no => by cases no
  · intro call member s s' kept done
    exact sharing_keeps (sendable call member).2 kept done
  · intro call member s kept
    obtain ⟨named, fits⟩ := sendable call member
    have same : middfsOper (net.conf call.1) (os call.1) net.xchg ⟨s.world, s.handles call.1⟩ call.2 =
        net.call call.1 (os call.1) ⟨s.world, s.handles call.1⟩ call.2 :=
      middfsOper_remote modest named (os call.1) fits (kept call.1)
    simp only [sharing, same]

end Runs

/-! ## Whoever calls -/

structure Net.Offers {φ : Type} (net : Net φ) (path : CStr) : Prop where
  absolute : path.val.head? = some slash
  named : components slash path.val ≠ []
  reached : net.refusal (pathOwner path) = none

/-- The operations by path for which the responder makes the system call that the owner
himself makes.  Attributes are not among them: of a link, one is asked for the target,
and the other for the link. -/
def Net.Alike {φ : Type} (net : Net φ) : FuseCall → Prop
  | .access path _ | .truncate path _ none => net.Offers path
  | .rename path dst => net.Offers path ∧ net.Offers dst ∧ pathOwner dst = pathOwner path
  | _ => False

section Whoever
variable {φ : Type} (net : Net φ)

def Net.ownersCall : FuseCall → Sys (World φ) Unit
  | .access path mode => net.access (namedFile path) mode
  | .truncate path size _ => net.truncate (namedFile path) size
  | .rename path dst => net.rename (namedFile path) (namedFile dst)
  | _ => fun world => (.ok (), world)

def Net.ownersCalls : List FuseCall → World φ → World φ × List FuseReply
  | [], world => (world, [])
  | call :: calls, world =>
      let (result, world) := net.ownersCall call world
      let (world, replies) := Net.ownersCalls calls world
      (world, ⟨statusOf result, .nothing⟩ :: replies)

variable {net} {path : CStr}

theorem Net.Offers.foreign (offers : net.Offers path) {user : CStr} (differs : pathOwner path ≠ user) :
    clientRsrcInit (net.conf user) path = .ok (namedFile path).resource := by
  rw [clientRsrcInit_named (net.conf user) offers.absolute offers.named,
    if_pos (show pathOwner path ≠ (net.conf user).username from differs)]
  rfl

theorem Net.Offers.own (offers : net.Offers path) :
    clientRsrcInit (net.conf (pathOwner path)) path = .ok ⟨.mrLocal, (namedFile path).rsrc, -1⟩ := by
  rw [clientRsrcInit_named (net.conf (pathOwner path)) offers.absolute offers.named, if_neg fun no => no rfl]
  rfl

theorem Net.Offers.remotely {β : Type} (offers : net.Offers path) (call : Sys φ β) :
    net.remotely (namedFile path).owner call = onMachine (namedFile path).owner call := by
  have reached : net.refusal (namedFile path).owner = none := offers.reached
  funext world
  rw [Net.remotely, reached]

theorem ownersCall_own {call : FuseCall} (alike : net.Alike call) (os : MountOs (World φ))
    (own : os.toOs = (net.os (pathOwner call.path)).on (pathOwner call.path)) (mounted : Mounted (World φ)) :
    middfsOper (net.conf (pathOwner call.path)) os net.xchg mounted call =
      replied mounted (net.ownersCall call) fun result => ⟨statusOf result, .nothing⟩ := by
  cases call with
  | access path mode =>
      have offers : net.Offers path := alike
      refine onTemporary_replied os offers.own ?_
      simp only [own, Net.ownersCall, Net.access, offers.remotely]
      rfl
  | truncate path size fi =>
      cases fi with
      | some fh => cases alike
      | none =>
          have offers : net.Offers path := alike
          refine onTemporary_replied os offers.own ?_
          simp only [own, Net.ownersCall, Net.truncate, offers.remotely]
          rfl
  | rename path dst =>
      obtain ⟨offers, offers', same⟩ := alike
      have made' := offers'.own
      rw [same] at made'
      simp only [middfsOper, middfsRename, FuseCall.path, offers.own, made', clientRsrcRename, localPath, own,
        ne_eq, not_true_eq_false, if_false, RemoteFile.rsrc, Net.ownersCall, Net.rename, offers.remotely]
      rfl
  | _ => cases alike

/-- Whoever makes the call, it comes to the system call on the machine of the owner. -/
theorem middfsOper_alike (modest : net.Modest) {user : CStr} (named : user.val.length < 2 ^ 60)
    (os : MountOs (World φ)) (own : os.toOs = (net.os user).on user) {call : FuseCall}
    (alike : net.Alike call) (sendable : call.Sendable) (mounted : Mounted (World φ)) :
    middfsOper (net.conf user) os net.xchg mounted call =
      replied mounted (net.ownersCall call) fun result => ⟨statusOf result, .nothing⟩ := by
  by_cases owns : pathOwner call.path = user
  · subst owns
    exact ownersCall_own alike os own mounted
  obtain ⟨short, fits⟩ := sendable
  cases call with
  | access path mode =>
      exact onTemporary_replied os (Net.Offers.foreign alike owns)
        (access_remotely modest named (namedFile_brief short) os.toOs mounted.files mode)
  | truncate path size fi =>
      cases fi with
      | some fh => cases alike
      | none =>
          exact onTemporary_replied os (Net.Offers.foreign alike owns)
            (truncate_remotely modest named (namedFile_brief short) os.toOs mounted.files fits)
  | rename path dst =>
      obtain ⟨offers, offers', same⟩ := alike
      have made := offers.foreign owns
      have made' := offers'.foreign fun no => owns (same.symm.trans no)
      rw [rename_remote modest named os made (namedFile_brief short) fits, Net.remoteCall]
      simp only [made', ClientRsrc.remote, RemoteFile.resource, RemoteFile.rsrc]
      rfl
  | _ => cases alike

def Shared.seen (s : Shared φ) : World φ × List FuseReply := (s.world, s.replies.map Prod.snd)

variable (modest : net.Modest) {os : CStr → MountOs (World φ)}
variable (mounts : ∀ user, (os user).toOs = (net.os user).on user)
include modest mounts

/-- A run of such calls is the run of the system calls on the machines of the owners. -/
theorem sharing_owners {calls : List (CStr × FuseCall)}
    (plain : ∀ call ∈ calls, call.1.val.length < 2 ^ 60 ∧ net.Alike call.2 ∧ call.2.Sendable) (s : Shared φ) :
    ∃ s', steps (sharing fun user => middfsOper (net.conf user) (os user) net.xchg) calls s = .ok s' ∧
      s'.seen = ((net.ownersCalls (calls.map Prod.snd) s.world).1,
        s.replies.map Prod.snd ++ (net.ownersCalls (calls.map Prod.snd) s.world).2) := by
  induction calls generalizing s with
  | nil => exact ⟨s, rfl, by rw [Shared.seen, List.map_nil, Net.ownersCalls, List.append_nil]⟩
  | cons call calls ih =>
      obtain ⟨named, alike, sendable⟩ := plain call List.mem_cons_self
      have performed := middfsOper_alike modest named (os call.1) (mounts call.1) alike sendable
        ⟨s.world, s.handles call.1⟩
      have next : sharing (fun user => middfsOper (net.conf user) (os user) net.xchg) call s =
          .ok
            { world := (net.ownersCall call.2 s.world).2
              handles := Function.update s.handles call.1 (s.handles call.1)
              replies := s.replies ++ [(call.1, ⟨statusOf (net.ownersCall call.2 s.world).1, .nothing⟩)] } := by
        rw [sharing, performed]
        rfl
      obtain ⟨last, ran, seen⟩ := ih (fun other member => plain other (List.mem_cons_of_mem call member)) _
      refine ⟨last, ?_, ?_⟩
      · rw [steps, next]
        exact ran
      · rw [seen, List.map_cons, Net.ownersCalls, List.map_append, List.append_assoc]
        rfl

/-- Whoever makes the calls, the owners of the files or others: the machines are left the
same, and the replies are the same. -/
theorem sharing_whoever {calls calls' : List (CStr × FuseCall)}
    (same : calls.map Prod.snd = calls'.map Prod.snd)
    (callers : ∀ call ∈ calls ++ calls', call.1.val.length < 2 ^ 60)
    (alike : ∀ call ∈ calls.map Prod.snd, net.Alike call ∧ call.Sendable) (world : World φ) :
    ∃ s s', steps (sharing fun user => middfsOper (net.conf user) (os user) net.xchg) calls
        ⟨world, fun _ => [], []⟩ = .ok s ∧
      steps (sharing fun user => middfsOper (net.conf user) (os user) net.xchg) calls'
        ⟨world, fun _ => [], []⟩ = .ok s' ∧
      s.seen = s'.seen := by
  have plain : ∀ call ∈ calls, call.1.val.length < 2 ^ 60 ∧ net.Alike call.2 ∧ call.2.Sendable :=
    fun call member => ⟨callers call (List.mem_append_left _ member), alike _ (List.mem_map_of_mem member)⟩
  have plain' : ∀ call ∈ calls', call.1.val.length < 2 ^ 60 ∧ net.Alike call.2 ∧ call.2.Sendable :=
    fun call member => ⟨callers call (List.mem_append_right _ member),
      alike _ (same ▸ List.mem_map_of_mem member)⟩
  obtain ⟨s, ran, seen⟩ := sharing_owners modest mounts plain ⟨world, fun _ => [], []⟩
  obtain ⟨s', ran', seen'⟩ := sharing_owners modest mounts plain' ⟨world, fun _ => [], []⟩
  exact ⟨s, s', ran, ran', by rw [seen, seen', same]⟩

end Whoever

/-! ## Three users -/

def registeredB : Net Bytewise := { bytewiseNet with malloc := fun _ => memory }

theorem registeredB_modest : registeredB.Modest where
  os := fun _ =>
    { pread := fun _ _ _ _ _ no => by cases no
      opendir := fun _ _ _ no => by cases no }
  objects := fun _ size granted => memory_large size granted

def mountOf (user : CStr) : MountOs (World Bytewise) where
  toOs := bytewiseOs.on user
  closeResult := fun _ _ => .ok ()
  links := fun _ _ => .error eacces
  mkdir := fun _ _ world => (.error eacces, world)
  unlink := fun _ world => (.error eacces, world)
  rmdir := fun _ world => (.error eacces, world)
  symlink := fun _ _ world => (.error eacces, world)
  fchmod := fun _ _ world => (.error eacces, world)
  lchmod := fun _ _ world => (.error eacces, world)
  statvfs := fun _ world => (.error eacces, world)

/-- `a` and `c` rename files of `b`, who then does so himself; `c` is not known. -/
def callsOnB : List (CStr × FuseCall) :=
  [(userA, .rename pathBF pathBG), (strAt [99], .rename pathBF pathBG), (userB, .rename pathBG pathBF),
    (userA, .openFile (some 100) pathBF 0), (userA, .rename pathCF pathBF)]

theorem sharing_remotely_callsOnB : ∃ s,
    steps (sharing fun user => middfsOper (registeredB.conf user) (mountOf user) registeredB.xchg) callsOnB
      ⟨fullWorld, fun _ => [], []⟩ = .ok s ∧
    s.replies.map (fun reply => reply.2.retv) = [0, -2, 0, -13, -2] := by
  have sendable : ∀ call ∈ callsOnB, call.1.val.length < 2 ^ 60 ∧ call.2.Sendable := by
    have f : pathBF.val.length < 2 ^ 60 := by decide
    have g : pathBG.val.length < 2 ^ 60 := by decide
    simp only [callsOnB, List.forall_mem_cons]
    exact ⟨⟨by decide, f, g⟩, ⟨by decide, f, g⟩, ⟨by decide, g, f⟩, ⟨by decide, f, trivial⟩,
      ⟨by decide, show pathCF.val.length < 2 ^ 60 by decide, f⟩, fun _ no => by cases no⟩
  rw [sharing_remotely registeredB_modest mountOf sendable fullWorld]
  exact ⟨_, rfl, by decide⟩

def othersOnB : List (CStr × FuseCall) :=
  [(userA, .rename pathBF pathBG), (strAt [99], .access pathBG 0), (userA, .truncate pathBF 0 none)]

/-- They might as well be calls of `b`. -/
theorem sharing_whoever_othersOnB : ∃ s s',
    steps (sharing fun user => middfsOper (registeredB.conf user) (mountOf user) registeredB.xchg) othersOnB
      ⟨fullWorld, fun _ => [], []⟩ = .ok s ∧
    steps (sharing fun user => middfsOper (registeredB.conf user) (mountOf user) registeredB.xchg)
      (othersOnB.map fun call => (userB, call.2)) ⟨fullWorld, fun _ => [], []⟩ = .ok s' ∧
    s.seen = s'.seen := by
  have offersF : registeredB.Offers pathBF := ⟨by decide, by decide, by decide⟩
  have offersG : registeredB.Offers pathBG := ⟨by decide, by decide, by decide⟩
  have f : pathBF.val.length < 2 ^ 60 := by decide
  have g : pathBG.val.length < 2 ^ 60 := by decide
  have mounts : ∀ user, (mountOf user).toOs = (registeredB.os user).on user := fun _ => rfl
  have same : othersOnB.map Prod.snd = (othersOnB.map fun call => (userB, call.2)).map Prod.snd := rfl
  have callers : ∀ call ∈ othersOnB ++ othersOnB.map fun call => (userB, call.2),
      call.1.val.length < 2 ^ 60 := by decide
  have alike : ∀ call ∈ othersOnB.map Prod.snd, registeredB.Alike call ∧ call.Sendable := by
    simp only [othersOnB, List.map_cons, List.map_nil, List.forall_mem_cons]
    exact ⟨⟨⟨offersF, offersG, by decide⟩, f, g⟩, ⟨offersG, g, trivial⟩, ⟨offersF, f, by decide⟩,
      fun _ no => by cases no⟩
  exact sharing_whoever registeredB_modest mounts same callers alike fullWorld

end Middfs
