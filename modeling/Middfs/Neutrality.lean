import Mathlib.Data.Finset.Basic
import Middfs.Client.Handler

/-!
# Descriptors of the responder

Serving a request opens at most one descriptor: for the file of an OPEN, a READ
or a WRITE request, which is closed whatever happens next, or for the stream of
a READDIR request, which is not.
-/

set_option autoImplicit false

namespace Middfs

section Descriptors
variable {σ : Type}

def Keeps (fds : σ → Finset Int) {β : Type} (call : Sys σ β) : Prop :=
  ∀ files, fds (call files).2 = fds files

/-- What the system calls do to the descriptors that are open: `open` and
`opendir` take one that is free when they succeed, `close` gives its own back,
whatever it returns, and the others leave them alone. -/
structure Accounts (os : Os σ) (fds : σ → Finset Int) : Prop where
  openFile : ∀ {path flags mode files fd files'},
    os.openFile path flags mode files = (.ok fd, files') →
      fd ∉ fds files ∧ fds files' = insert fd (fds files)
  openFileFails : ∀ {path flags mode files errno files'},
    os.openFile path flags mode files = (.error errno, files') → fds files' = fds files
  close : ∀ fd files, fds (os.close fd files) = (fds files).erase fd
  opendir : ∀ {path files entries files'}, os.opendir path files = (.ok entries, files') →
    ∃ fd, fd ∉ fds files ∧ fds files' = insert fd (fds files)
  opendirFails : ∀ {path files errno files'},
    os.opendir path files = (.error errno, files') → fds files' = fds files
  pread : ∀ fd size off, Keeps fds (os.pread fd size off)
  pwrite : ∀ fd buf off, Keeps fds (os.pwrite fd buf off)
  stat : ∀ path, Keeps fds (os.stat path)
  access : ∀ path mode, Keeps fds (os.access path mode)
  truncate : ∀ path size, Keeps fds (os.truncate path size)
  rename : ∀ path toPath, Keeps fds (os.rename path toPath)

variable {os : Os σ} {fds : σ → Finset Int} (accounts : Accounts os fds) (conf : ClientConf)
  (malloc : Nat → Bool) (path : CStr) (req : Request) (rsp : Response) (files : σ)

include accounts

theorem handleRequestRead_keeps (fd : Int) :
    fds (handleRequestRead os malloc fd req rsp files).2 = fds files := by
  unfold handleRequestRead
  split_ifs
  · have kept := accounts.pread fd req.mreqSize.toNat (offT req.mreqOff) files
    generalize os.pread fd req.mreqSize.toNat (offT req.mreqOff) files = called at kept
    obtain ⟨_ | _, _⟩ := called <;> exact kept
  · rfl

theorem handleRequestWrite_keeps (fd : Int) :
    fds (handleRequestWrite os fd req rsp files).2 = fds files := by
  unfold handleRequestWrite
  cases writeSource req with
  | none => rfl
  | some buf =>
      have kept := accounts.pwrite fd buf (offT req.mreqOff) files
      simp only
      generalize os.pwrite fd buf (offT req.mreqOff) files = called at kept
      obtain ⟨_ | _, _⟩ := called <;> exact kept

theorem handleRequestGetattr_keeps : fds (handleRequestGetattr os path rsp files).2 = fds files := by
  have kept := accounts.stat path files
  unfold handleRequestGetattr
  generalize os.stat path files = called at kept
  obtain ⟨_ | _, _⟩ := called <;> exact kept

theorem handleRequestAccess_keeps :
    fds (handleRequestAccess os path req rsp files).2 = fds files := by
  have kept := accounts.access path req.mreqMode files
  unfold handleRequestAccess
  generalize os.access path req.mreqMode files = called at kept
  obtain ⟨_ | _, _⟩ := called <;> exact kept

theorem handleRequestTruncate_keeps :
    fds (handleRequestTruncate os path req rsp files).2 = fds files := by
  have kept := accounts.truncate path (offT req.mreqSize) files
  unfold handleRequestTruncate
  generalize os.truncate path (offT req.mreqSize) files = called at kept
  obtain ⟨_ | _, _⟩ := called <;> exact kept

theorem handleRequestRename_keeps {answer : (Int32 × Response) × σ}
    (answered : handleRequestRename conf os path req rsp files = .ok answer) :
    fds answer.2 = fds files := by
  unfold handleRequestRename at answered
  cases target : req.mreqTo.mrPath with
  | none => simp only [target, reduceCtorEq] at answered
  | some toPath =>
      have kept := accounts.rename path (middfsLocalpathTmp conf toPath) files
      simp only [target] at answered
      generalize os.rename path (middfsLocalpathTmp conf toPath) files = called at answered kept
      obtain ⟨_ | _, _⟩ := called <;> cases answered <;> exact kept

theorem handleRequestOpen_keeps : fds (handleRequestOpen os path req rsp files).2 = fds files := by
  unfold handleRequestOpen
  cases called : os.openFile path req.mreqMode openMode files with
  | mk result files' =>
      cases result with
      | error errno => exact accounts.openFileFails called
      | ok fd =>
          obtain ⟨free, taken⟩ := accounts.openFile called
          rw [accounts.close, taken, Finset.erase_insert free]

/-- The file is closed after a handler that opens nothing. -/
theorem handleRequestFd_keeps {handler : Int → Request → Response → σ → (Int32 × Response) × σ}
    (keeps : ∀ fd files, fds (handler fd req rsp files).2 = fds files) :
    fds (handleRequestFd os path handler req rsp files).2 = fds files := by
  unfold handleRequestFd
  cases called : os.openFile path oRdwr 0 files with
  | mk result files' =>
      cases result with
      | error errno => exact accounts.openFileFails called
      | ok fd =>
          obtain ⟨free, taken⟩ := accounts.openFile called
          simp only
          rw [accounts.close, keeps, taken, Finset.erase_insert free]

omit accounts in
def Streams (os : Os σ) (path : CStr) (files : σ) : Prop :=
  ∃ entries files', os.opendir path files = (.ok entries, files')

theorem handleRequestReaddir_leaks :
    fds (handleRequestReaddir os malloc path rsp files).2 = fds files ↔ ¬ Streams os path files := by
  unfold handleRequestReaddir Streams
  cases called : os.opendir path files with
  | mk result files' =>
      cases result with
      | error errno =>
          refine iff_of_true (accounts.opendirFails called) ?_
          rintro ⟨entries, files'', other⟩
          cases other
      | ok entries =>
          obtain ⟨fd, free, taken⟩ := accounts.opendir called
          refine iff_of_false (fun same => ?_) (fun closed => closed ⟨_, _, rfl⟩)
          have after : fds files' = fds files := by
            simp only at same
            split_ifs at same <;> exact same
          rw [taken] at after
          exact free (after ▸ Finset.mem_insert_self fd _)

theorem handleRequestType_keeps (other : req.mreqType ≠ mreqReaddir)
    {answer : (Int32 × Response) × σ}
    (answered : handleRequestType conf os malloc path req rsp files = .ok (some answer)) :
    fds answer.2 = fds files := by
  unfold handleRequestType at answered
  split_ifs at answered
  · cases answered
    exact handleRequestGetattr_keeps accounts path rsp files
  · cases answered
    exact handleRequestAccess_keeps accounts path req rsp files
  · cases answered
    exact handleRequestOpen_keeps accounts path req rsp files
  · cases answered
    exact handleRequestTruncate_keeps accounts path req rsp files
  · cases renamed : handleRequestRename conf os path req rsp files with
    | error trap => simp only [renamed, reduceCtorEq] at answered
    | ok result =>
        simp only [renamed, Except.ok.injEq, Option.some.injEq] at answered
        subst answered
        exact handleRequestRename_keeps accounts conf path req rsp files renamed
  · cases answered
    exact handleRequestFd_keeps accounts path req rsp files fun fd files =>
      handleRequestRead_keeps accounts malloc req rsp files fd
  · cases answered
    exact handleRequestFd_keeps accounts path req rsp files fun fd files =>
      handleRequestWrite_keeps accounts req rsp files fd
  · cases answered

omit accounts in
theorem handleRequestType_readdir (readdir : req.mreqType = mreqReaddir) :
    handleRequestType conf os malloc path req rsp files =
      .ok (some (handleRequestReaddir os malloc path rsp files)) := by
  unfold handleRequestType
  rw [readdir]
  rfl

/-! ## The whole request -/

omit accounts in
/-- The descriptors that are open after `handle_request` returned are those that
were open before the call. -/
def Neutral (os : Os σ) (fds : σ → Finset Int) (conf : ClientConf) (malloc : Nat → Bool)
    (inPkt outPkt : Packet) (files : σ) : Prop :=
  ∀ retv pkt files', handleRequest conf os malloc inPkt outPkt files = .ok (retv, pkt, files') →
    fds files' = fds files

omit accounts in
def OpensStream (os : Os σ) (conf : ClientConf) (inPkt : Packet) (files : σ) : Prop :=
  inPkt.mpktRequest.mreqType = mreqReaddir ∧
    ∃ path, inPkt.mpktRequest.mreqRsrc.mrPath = some path ∧
      Streams os (middfsLocalpathTmp conf path) files

/-- Serving a request is neutral unless it opens the stream of a directory. -/
theorem handleRequest_neutral_iff (inPkt outPkt : Packet) :
    Neutral os fds conf malloc inPkt outPkt files ↔ ¬ OpensStream os conf inPkt files := by
  unfold Neutral handleRequest
  constructor
  · rintro neutral ⟨readdir, path, at_, streams⟩
    simp only [at_, handleRequestType_readdir conf malloc _ _ _ files readdir] at neutral
    have leaks := handleRequestReaddir_leaks accounts malloc (middfsLocalpathTmp conf path)
      (packetInit outPkt mpktResponseType).mpktResponse files
    exact leaks.mp (neutral _ _ _ rfl) streams
  · intro calm retv pkt files' returned
    cases at_ : inPkt.mpktRequest.mreqRsrc.mrPath with
    | none => simp only [at_, reduceCtorEq] at returned
    | some path =>
        simp only [at_] at returned
        cases handled : handleRequestType conf os malloc (middfsLocalpathTmp conf path)
            inPkt.mpktRequest (packetInit outPkt mpktResponseType).mpktResponse files with
        | error trap => simp only [handled, reduceCtorEq] at returned
        | ok answer =>
            cases answer with
            | none =>
                simp only [handled, Except.ok.injEq, Prod.mk.injEq] at returned
                exact returned.2.2 ▸ rfl
            | some answer =>
                simp only [handled, Except.ok.injEq, Prod.mk.injEq] at returned
                rw [← returned.2.2]
                by_cases readdir : inPkt.mpktRequest.mreqType = mreqReaddir
                · rw [handleRequestType_readdir conf malloc _ _ _ files readdir] at handled
                  cases handled
                  exact (handleRequestReaddir_leaks accounts malloc _ _ files).mpr fun streams =>
                    calm ⟨readdir, path, at_, streams⟩
                · exact handleRequestType_keeps accounts conf malloc _ _ _ files readdir handled

end Descriptors

/-! ## A system with one descriptor to give away -/

def emfile : Errno := ⟨24, by decide⟩

/-- Everything can be opened, as long as descriptor 3 is free. -/
def oneDescriptor : Os (Finset Int) :=
  { failingOs with
    openFile := fun _ _ _ fds => if 3 ∈ fds then (.error emfile, fds) else (.ok 3, insert 3 fds)
    close := fun fd fds => fds.erase fd
    opendir := fun _ fds => if 3 ∈ fds then (.error emfile, fds) else (.ok [], insert 3 fds) }

theorem oneDescriptor_accounts : Accounts oneDescriptor id where
  openFile := by
    intro path flags mode files fd files' opened
    simp only [oneDescriptor] at opened
    split_ifs at opened with taken
    · cases opened
    · cases opened
      exact ⟨taken, rfl⟩
  openFileFails := by
    intro path flags mode files errno files' failed
    simp only [oneDescriptor] at failed
    split_ifs at failed
    · cases failed
      rfl
    · cases failed
  close := fun _ _ => rfl
  opendir := by
    intro path files entries files' opened
    simp only [oneDescriptor] at opened
    split_ifs at opened with taken
    · cases opened
    · cases opened
      exact ⟨3, taken, rfl⟩
  opendirFails := by
    intro path files errno files' failed
    simp only [oneDescriptor] at failed
    split_ifs at failed
    · cases failed
      rfl
    · cases failed
  pread := fun _ _ _ _ => rfl
  pwrite := fun _ _ _ _ => rfl
  stat := fun _ _ => rfl
  access := fun _ _ _ => rfl
  truncate := fun _ _ _ => rfl
  rename := fun _ _ _ => rfl

def requestOf (type : UInt32) : Packet :=
  { mpktMagic := mpktMagicNumber
    mpktType := mpktRequestType
    mpktRequest :=
      { mreqType := type
        mreqRequester := some emptyStr
        mreqRsrc := ⟨some emptyStr, some slashStr⟩ } }

theorem openRequest_neutral :
    Neutral oneDescriptor id ⟨emptyStr, emptyStr⟩ (fun _ => true) (requestOf mreqOpen) zeroPacket
      {0, 1, 2} :=
  (handleRequest_neutral_iff oneDescriptor_accounts _ _ _ _ _).mpr fun opens =>
    absurd opens.1 (show ¬ mreqOpen = mreqReaddir by decide)

/-- READDIR is not: descriptor 3 stays open. -/
theorem readdirRequest_leaks :
    ¬ Neutral oneDescriptor id ⟨emptyStr, emptyStr⟩ (fun _ => true) (requestOf mreqReaddir)
      zeroPacket {0, 1, 2} := by
  intro neutral
  have same := neutral _ _ _ rfl
  exact absurd same (by decide)

end Middfs
