import Middfs.LexicalPath
import Middfs.Client.Handler
import Middfs.Decode.Attempt

/-!
# What a client lets others reach

A client responder builds its paths out of strings that come from the network.
`Os.recording` notes down every path that is handed to the system; all of them
should resolve, lexically, to the public directory or to something below it.
-/

set_option autoImplicit false

namespace Middfs

open LexicalPath

def dot : UInt8 := 46

/-! ## Noting the paths down -/

def noted {σ β : Type} (paths : List CStr) (call : Sys σ β) : Sys (σ × List CStr) β :=
  fun world => ((call world.1).1, ((call world.1).2, world.2 ++ paths))

/-- The same system, which keeps a list of the paths it was handed. -/
def Os.recording {σ : Type} (os : Os σ) : Os (σ × List CStr) where
  openFile := fun path flags mode => noted [path] (os.openFile path flags mode)
  close := fun fd world => (os.close fd world.1, world.2)
  pread := fun fd size offset => noted [] (os.pread fd size offset)
  pwrite := fun fd buf offset => noted [] (os.pwrite fd buf offset)
  stat := fun path => noted [path] (os.stat path)
  lstat := fun path => noted [path] (os.lstat path)
  opendir := fun path => noted [path] (os.opendir path)
  fdopendir := fun fd => noted [] (os.fdopendir fd)
  access := fun path mode => noted [path] (os.access path mode)
  truncate := fun path size => noted [path] (os.truncate path size)
  ftruncate := fun fd size => noted [] (os.ftruncate fd size)
  rename := fun src dst => noted [src, dst] (os.rename src dst)
  uid := os.uid
  gid := os.gid

/-- The request types that are implemented. -/
def touchesFiles (type : UInt32) : Bool :=
  type == mreqGetattr || type == mreqReaddir || type == mreqAccess || type == mreqOpen ||
    type == mreqTruncate || type == mreqRename || type == mreqRead || type == mreqWrite

/-- The path beside the one of the resource. -/
def secondPaths (conf : ClientConf) (req : Request) : List CStr :=
  if req.mreqType = mreqRename then (req.mreqTo.mrPath.map (middfsLocalpathTmp conf)).toList else []

section Recorded
variable {σ : Type} (conf : ClientConf) (os : Os σ) (malloc : Nat → Bool)
variable (path : CStr) (req : Request) (rsp : Response) (files : σ) (log : List CStr)

theorem handleRequestRead_log (fd : Int) :
    (handleRequestRead os.recording malloc fd req rsp (files, log)).2.2 = log := by
  rw [handleRequestRead]
  split
  · simp only [Os.recording, noted]
    generalize os.pread fd req.mreqSize.toNat (offT req.mreqOff) files = called
    obtain ⟨_ | _, _⟩ := called <;> exact List.append_nil log
  · rfl

theorem handleRequestWrite_log (fd : Int) :
    (handleRequestWrite os.recording fd req rsp (files, log)).2.2 = log := by
  rw [handleRequestWrite]
  cases writeSource req with
  | none => rfl
  | some buf =>
      simp only [Os.recording, noted]
      generalize os.pwrite fd buf (offT req.mreqOff) files = called
      obtain ⟨_ | _, _⟩ := called <;> exact List.append_nil log

theorem handleRequestGetattr_log :
    (handleRequestGetattr os.recording path rsp (files, log)).2.2 = log ++ [path] := by
  simp only [handleRequestGetattr, Os.recording, noted]
  generalize os.stat path files = called
  obtain ⟨_ | _, _⟩ := called <;> rfl

theorem handleRequestReaddir_log :
    (handleRequestReaddir os.recording malloc path rsp (files, log)).2.2 = log ++ [path] := by
  simp only [handleRequestReaddir, Os.recording, noted]
  generalize os.opendir path files = called
  obtain ⟨_ | entries, _⟩ := called
  · rfl
  · simp only
    split <;> rfl

theorem handleRequestAccess_log :
    (handleRequestAccess os.recording path req rsp (files, log)).2.2 = log ++ [path] := by
  simp only [handleRequestAccess, Os.recording, noted]
  generalize os.access path req.mreqMode files = called
  obtain ⟨_ | _, _⟩ := called <;> rfl

theorem handleRequestOpen_log :
    (handleRequestOpen os.recording path req rsp (files, log)).2.2 = log ++ [path] := by
  simp only [handleRequestOpen, Os.recording, noted]
  generalize os.openFile path req.mreqMode openMode files = called
  obtain ⟨_ | _, _⟩ := called <;> rfl

theorem handleRequestTruncate_log :
    (handleRequestTruncate os.recording path req rsp (files, log)).2.2 = log ++ [path] := by
  simp only [handleRequestTruncate, Os.recording, noted]
  generalize os.truncate path (offT req.mreqSize) files = called
  obtain ⟨_ | _, _⟩ := called <;> rfl

theorem handleRequestRename_log {answer : (Int32 × Response) × σ × List CStr}
    (answered : handleRequestRename conf os.recording path req rsp (files, log) = .ok answer) :
    answer.2.2 = log ++ path :: (req.mreqTo.mrPath.map (middfsLocalpathTmp conf)).toList := by
  unfold handleRequestRename at answered
  cases second : req.mreqTo.mrPath with
  | none => simp only [second, reduceCtorEq] at answered
  | some toPath =>
      simp only [second, Os.recording, noted] at answered
      generalize os.rename path (middfsLocalpathTmp conf toPath) files = called at answered
      obtain ⟨_ | _, _⟩ := called <;> cases answered <;> rfl

theorem handleRequestFd_log
    (handler : Int → Request → Response → σ × List CStr → (Int32 × Response) × σ × List CStr)
    (silent : ∀ fd files log, (handler fd req rsp (files, log)).2.2 = log) :
    (handleRequestFd os.recording path handler req rsp (files, log)).2.2 = log ++ [path] := by
  simp only [handleRequestFd, Os.recording, noted]
  generalize os.openFile path oRdwr 0 files = called
  obtain ⟨_ | fd, files⟩ := called
  · rfl
  · exact silent fd files (log ++ [path])

theorem handleRequestType_log {answer : (Int32 × Response) × σ × List CStr}
    (answered : handleRequestType conf os.recording malloc path req rsp (files, log) =
      .ok (some answer)) :
    touchesFiles req.mreqType = true ∧ answer.2.2 = log ++ path :: secondPaths conf req := by
  have alone : ∀ type, req.mreqType = type → type ≠ mreqRename →
      secondPaths conf req = [] := fun type is other => if_neg (by rw [is]; exact other)
  unfold handleRequestType at answered
  split_ifs at answered with getattr readdir access open_ truncate rename read write
  · cases answered
    rw [getattr, alone _ getattr (by decide)]
    exact ⟨rfl, handleRequestGetattr_log os path rsp files log⟩
  · cases answered
    rw [readdir, alone _ readdir (by decide)]
    exact ⟨rfl, handleRequestReaddir_log os malloc path rsp files log⟩
  · cases answered
    rw [access, alone _ access (by decide)]
    exact ⟨rfl, handleRequestAccess_log os path req rsp files log⟩
  · cases answered
    rw [open_, alone _ open_ (by decide)]
    exact ⟨rfl, handleRequestOpen_log os path req rsp files log⟩
  · cases answered
    rw [truncate, alone _ truncate (by decide)]
    exact ⟨rfl, handleRequestTruncate_log os path req rsp files log⟩
  · cases renamed : handleRequestRename conf os.recording path req rsp (files, log) with
    | error trap => simp only [renamed, reduceCtorEq] at answered
    | ok result =>
        simp only [renamed, Except.ok.injEq, Option.some.injEq] at answered
        subst answered
        rw [secondPaths, if_pos rename, rename]
        exact ⟨rfl, handleRequestRename_log conf os path req rsp files log renamed⟩
  · cases answered
    rw [read, alone _ read (by decide)]
    exact ⟨rfl, handleRequestFd_log os path req rsp files log _
      fun fd files log => handleRequestRead_log os malloc req rsp files log fd⟩
  · cases answered
    rw [write, alone _ write (by decide)]
    exact ⟨rfl, handleRequestFd_log os path req rsp files log _
      fun fd files log => handleRequestWrite_log os req rsp files log fd⟩
  · cases answered

end Recorded

/-! ## The paths of a request -/

section Handed
variable {σ : Type} (conf : ClientConf) (os : Os σ) (malloc : Nat → Bool)

theorem handleRequestType_total (path : CStr) (req : Request) (rsp : Response) (files : σ)
    (target : req.mreqType = mreqRename → req.mreqTo.mrPath.isSome) :
    (touchesFiles req.mreqType = true ∧
        ∃ answer, handleRequestType conf os malloc path req rsp files = .ok (some answer)) ∨
      (touchesFiles req.mreqType = false ∧
        handleRequestType conf os malloc path req rsp files = .ok none) := by
  unfold handleRequestType
  split_ifs with getattr readdir access open_ truncate rename read write
  · exact Or.inl ⟨by rw [getattr]; rfl, _, rfl⟩
  · exact Or.inl ⟨by rw [readdir]; rfl, _, rfl⟩
  · exact Or.inl ⟨by rw [access]; rfl, _, rfl⟩
  · exact Or.inl ⟨by rw [open_]; rfl, _, rfl⟩
  · exact Or.inl ⟨by rw [truncate]; rfl, _, rfl⟩
  · obtain ⟨toPath, second⟩ := Option.isSome_iff_exists.mp (target rename)
    refine Or.inl ⟨by rw [rename]; rfl, ?_⟩
    simp only [handleRequestRename, second]
    generalize os.rename path (middfsLocalpathTmp conf toPath) files = called
    obtain ⟨_ | _, _⟩ := called <;> exact ⟨_, rfl⟩
  · exact Or.inl ⟨by rw [read]; rfl, _, rfl⟩
  · exact Or.inl ⟨by rw [write]; rfl, _, rfl⟩
  · refine Or.inr ⟨?_, rfl⟩
    simp only [touchesFiles, Bool.or_eq_false_iff, beq_eq_false_iff_ne]
    exact ⟨⟨⟨⟨⟨⟨⟨getattr, readdir⟩, access⟩, open_⟩, truncate⟩, rename⟩, read⟩, write⟩

def handedPaths (req : Request) : List CStr :=
  if touchesFiles req.mreqType then
    (req.mreqRsrc.mrPath.map (middfsLocalpathTmp conf)).toList ++ secondPaths conf req
  else []

theorem handleRequest_handed {inPkt outPkt : Packet} (files : σ)
    (path : inPkt.mpktRequest.mreqRsrc.mrPath.isSome)
    (target : inPkt.mpktRequest.mreqType = mreqRename → inPkt.mpktRequest.mreqTo.mrPath.isSome) :
    ∃ retv outPkt' files', handleRequest conf os.recording malloc inPkt outPkt (files, []) =
      .ok (retv, outPkt', files', handedPaths conf inPkt.mpktRequest) := by
  obtain ⟨mrPath, held⟩ := Option.isSome_iff_exists.mp path
  unfold handleRequest handedPaths
  simp only [held]
  rcases handleRequestType_total conf os.recording malloc (middfsLocalpathTmp conf mrPath)
    inPkt.mpktRequest (packetInit outPkt mpktResponseType).mpktResponse (files, []) target with
    ⟨touches, answer, answered⟩ | ⟨untouched, answered⟩
  · obtain ⟨_, log⟩ := handleRequestType_log conf os malloc _ _ _ files [] answered
    rw [answered, touches]
    obtain ⟨⟨status, rsp⟩, files', handed⟩ := answer
    simp only [List.nil_append] at log
    subst log
    exact ⟨_, _, _, rfl⟩
  · rw [answered, untouched]
    exact ⟨_, _, _, rfl⟩

end Handed

/-! ## Containment -/

def publicDir (conf : ClientConf) : List UInt8 := conf.homepath.val ++ slash :: conf.username.val

/-- All that is handed to the system for a packet stays in the public
directory. -/
def Contained (conf : ClientConf) (inPkt : Packet) : Prop :=
  ∀ (σ : Type) (os : Os σ) malloc files retv outPkt files' paths,
    handleRequest conf os.recording malloc inPkt zeroPacket (files, []) =
      .ok (retv, outPkt, files', paths) →
    ∀ path ∈ paths, Beneath dot slash (publicDir conf) path.val

/-- Followed from the home path, the user name with the path behind it leads up,
and then down again to the public directory and further. -/
def ComesBack (conf : ClientConf) (path : CStr) : Prop :=
  resolve dot slash (publicDir conf) <+:
    (climb dot (components slash (conf.username.val ++ path.val))).apply
      (resolve dot slash conf.homepath.val)

instance (conf : ClientConf) (path : CStr) : Decidable (ComesBack conf path) :=
  inferInstanceAs (Decidable (_ <+: _))

def PathsComeBack (conf : ClientConf) (req : Request) : Prop :=
  touchesFiles req.mreqType = true →
    (∀ path, req.mreqRsrc.mrPath = some path → ComesBack conf path) ∧
      (req.mreqType = mreqRename → ∀ path, req.mreqTo.mrPath = some path → ComesBack conf path)

theorem beneath_localpath (conf : ClientConf) (path : CStr) :
    Beneath dot slash (publicDir conf) (middfsLocalpathTmp conf path).val ↔ ComesBack conf path := by
  rw [Beneath, ComesBack, middfsLocalpathTmp, resolve_append]

/-- As every path does that starts with a slash and never goes up. -/
theorem comesBack_of_no_climb (conf : ClientConf) {path : CStr} {rest : List UInt8}
    (absolute : path.val = slash :: rest) (stays : (climb dot (components slash rest)).up = 0) :
    ComesBack conf path := by
  have whole : (middfsLocalpathTmp conf path).val = publicDir conf ++ slash :: rest := by
    simp only [middfsLocalpathTmp, publicDir, absolute, List.append_assoc, List.cons_append]
  rw [← beneath_localpath, whole]
  exact beneath_of_no_climb dot slash stays

theorem handedPaths_beneath (conf : ClientConf) (req : Request) :
    (∀ path ∈ handedPaths conf req, Beneath dot slash (publicDir conf) path.val) ↔
      PathsComeBack conf req := by
  unfold handedPaths PathsComeBack secondPaths
  cases touchesFiles req.mreqType with
  | false => simp
  | true =>
      simp only [if_true, List.mem_append, Option.mem_toList, Option.map_eq_some_iff, true_implies]
      constructor
      · intro beneath
        refine ⟨fun path held => ?_, fun rename path held => ?_⟩
        · exact (beneath_localpath conf path).mp (beneath _ (Or.inl ⟨path, held, rfl⟩))
        · refine (beneath_localpath conf path).mp (beneath _ (Or.inr ?_))
          simp only [rename, if_true, Option.mem_toList, Option.map_eq_some_iff]
          exact ⟨path, held, rfl⟩
      · rintro ⟨first, second⟩ handed (⟨path, held, rfl⟩ | other)
        · exact (beneath_localpath conf path).mpr (first path held)
        · by_cases rename : req.mreqType = mreqRename
          · simp only [rename, if_true, Option.mem_toList, Option.map_eq_some_iff] at other
            obtain ⟨path, held, rfl⟩ := other
            exact (beneath_localpath conf path).mpr (second rename path held)
          · simp only [rename, if_false, List.not_mem_nil] at other

/-- A request that was decoded from the network is served inside the public
directory exactly when its paths come back to it. -/
theorem contained_iff (conf : ClientConf) {malloc : Nat → Bool}
    (large : ∀ n, malloc n = true → n < 2 ^ 63) {buf : List UInt8} (bound : buf.length < 2 ^ 63)
    {s : Cursor Packet} (answer : deserializePkt malloc buf zeroPacket 0 = .ok s) (clean : s.err = 0)
    (whole : s.used ≤ buf.length) (request : s.obj.mpktType = mpktRequestType) :
    Contained conf s.obj ↔ PathsComeBack conf s.obj.mpktRequest := by
  have filled := (complete_filled large bound answer clean whole).request request
  have path : s.obj.mpktRequest.mreqRsrc.mrPath.isSome := filled.2.1.2
  have target : s.obj.mpktRequest.mreqType = mreqRename →
      s.obj.mpktRequest.mreqTo.mrPath.isSome := fun rename =>
    (filled.2.2 (by rw [rename]; rfl)).2
  rw [← handedPaths_beneath]
  constructor
  · intro contained
    obtain ⟨retv, outPkt, files', handled⟩ :=
      handleRequest_handed conf failingOs malloc () path target
    exact contained Unit failingOs malloc () retv outPkt files' _ handled
  · intro beneath σ os malloc' files retv outPkt files' paths handled
    obtain ⟨_, _, _, same⟩ := handleRequest_handed conf os malloc' files path target
    rw [handled] at same
    cases same
    exact beneath

/-! ## Two requests -/

def srvConf : ClientConf where
  username := strAt [97]
  homepath := strAt [47, 115, 114, 118]

/-- A GETATTR request for a path, with empty strings beside it. -/
def getattrOf (path : List UInt8) : Packet :=
  { mpktMagic := mpktMagicNumber
    mpktType := mpktRequestType
    mpktRequest :=
      { mreqType := mreqGetattr
        mreqRequester := some emptyStr
        mreqRsrc := ⟨some emptyStr, some (strAt path)⟩ } }

def detour : Packet := getattrOf [47, 120, 47, 46, 46]

theorem detour_contained : Contained srvConf detour := by
  refine (@contained_iff srvConf memory memory_large detour.wire (by decide)
    ⟨detour.wire.length, detour, 0⟩ (by decide +kernel) rfl (le_refl _) rfl).mpr fun _ => ⟨?_, ?_⟩
  · intro path held
    cases held
    decide
  · intro rename
    exact absurd rename (by decide)

def escape : Packet := getattrOf [47, 46, 46]

/-- A request that is decoded from the network and leads to `/srv`. -/
theorem escape_not_contained :
    deserializePkt memory escape.wire zeroPacket 0 = .ok ⟨escape.wire.length, escape, 0⟩ ∧
      ¬ Contained srvConf escape := by
  have decoded : deserializePkt memory escape.wire zeroPacket 0 =
      .ok ⟨escape.wire.length, escape, 0⟩ := by decide +kernel
  refine ⟨decoded, fun contained => ?_⟩
  obtain ⟨retv, outPkt, files', handled⟩ := @handleRequest_handed _ srvConf failingOs memory
    escape zeroPacket () rfl (fun rename => absurd rename (by decide))
  have beneath := contained Unit failingOs memory () retv outPkt files' _ handled
  exact absurd (beneath (middfsLocalpathTmp srvConf (strAt [47, 46, 46])) (by decide)) (by decide)

end Middfs
