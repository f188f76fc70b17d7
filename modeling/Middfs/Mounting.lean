import Middfs.Client.Fuse
import Middfs.Client.Pkt
import Middfs.Ledger
import Middfs.Neutrality
import Middfs.RemoteErrors
import Middfs.Runs

/-!
# Descriptors of the file system

Every open file of a client's own holds one descriptor, and no other call of the
file system leaves one open, whatever fails; except that `inet_connect` does not
close a socket that cannot be connected.  Every exchange that finds no server
loses a descriptor.
-/

set_option autoImplicit false

namespace Middfs

open Ledger Runs

/-! ## Sockets -/

def onFirst {σ ν β : Type} (call : Sys σ β) : Sys (σ × ν) β := fun s =>
  ((call s.1).1, ((call s.1).2, s.2))

def MountOs.first {σ ν : Type} (os : MountOs σ) : MountOs (σ × ν) where
  openFile := fun path flags mode => onFirst (os.openFile path flags mode)
  close := fun fd s => (os.close fd s.1, s.2)
  pread := fun fd size offset => onFirst (os.pread fd size offset)
  pwrite := fun fd buf offset => onFirst (os.pwrite fd buf offset)
  stat := fun path => onFirst (os.stat path)
  lstat := fun path => onFirst (os.lstat path)
  opendir := fun path => onFirst (os.opendir path)
  fdopendir := fun fd => onFirst (os.fdopendir fd)
  access := fun path mode => onFirst (os.access path mode)
  truncate := fun path size => onFirst (os.truncate path size)
  ftruncate := fun fd size => onFirst (os.ftruncate fd size)
  rename := fun src dst => onFirst (os.rename src dst)
  uid := os.uid
  gid := os.gid
  closeResult := fun fd s => os.closeResult fd s.1
  links := fun s => os.links s.1
  mkdir := fun path mode => onFirst (os.mkdir path mode)
  unlink := fun path => onFirst (os.unlink path)
  rmdir := fun path => onFirst (os.rmdir path)
  symlink := fun target path => onFirst (os.symlink target path)
  fchmod := fun fd mode => onFirst (os.fchmod fd mode)
  lchmod := fun path mode => onFirst (os.lchmod path mode)
  statvfs := fun path => onFirst (os.statvfs path)

/-- The system calls of an exchange: whether the server's address and port are
configured, `socket` and `connect`, and what comes of the writes and reads of a
packet that is sent. -/
structure Dialer (σ : Type) where
  configured : Bool
  socket : Sys σ Int
  connect : Int → Sys σ Unit
  traffic : Int → Packet → σ → (List WriteResult × List ReadResult) × σ

section Sockets
variable {σ : Type} (dialer : Dialer σ)

/-- `inet_connect`, with the list of the sockets that it did not close. -/
def inetConnectOn : Sys (σ × List Int) Int := fun s =>
  match dialer.socket s.1 with
  | (.error errno, files) => (.error errno, (files, s.2))
  | (.ok fd, files) =>
      match dialer.connect fd files with
      | (.error errno, files) => (.error errno, (files, fd :: s.2))
      | (.ok _, files) => (.ok fd, (files, s.2))

def packetXchgOn (close : Int → σ → σ) (malloc realloc : Nat → Bool) : Xchg (σ × List Int) :=
  fun outPkt inPkt s =>
    if dialer.configured then
      match inetConnectOn dialer s with
      | (.error errno, s) => .ok ((negErrno errno, inPkt), s)
      | (.ok fd, s) =>
          let ((writes, reads), files) := dialer.traffic fd outPkt s.1
          match packetXchg malloc realloc ⟨true, .ok fd, writes⟩ reads outPkt inPkt with
          | .error trap => .error trap
          -- more would have to come in: it does not return
          | .ok none => .error .wild
          | .ok (some (retv, inPkt)) => .ok ((Int32.ofInt retv, inPkt), (close fd files, s.2))
    else .error .assertFail

end Sockets

/-! ## Resources -/

def ClientRsrc.held (rsrc : ClientRsrc) : Multiset Int := if rsrc.mrFd ≥ 0 then {rsrc.mrFd} else 0

theorem ClientRsrc.held_none {rsrc : ClientRsrc} (shut : rsrc.mrFd = -1) : rsrc.held = 0 := by
  rw [ClientRsrc.held, shut]
  rfl

theorem clientRsrcInit_fd {conf : ClientConf} {path : CStr} {rsrc : ClientRsrc}
    (made : clientRsrcInit conf path = .ok rsrc) : rsrc.mrFd = -1 := by
  dsimp only [clientRsrcInit] at made
  split_ifs at made <;> cases made <;> rfl

/-- What the system calls do to the descriptors that are open, beside those of the
responder. -/
structure MountAccounts {σ : Type} (os : MountOs σ) (dialer : Dialer σ) (fds : σ → Finset Int) : Prop
    extends Accounts os.toOs fds where
  nonneg : ∀ {path flags mode files fd files'},
    os.openFile path flags mode files = (.ok fd, files') → 0 ≤ fd
  lstat : ∀ path, Keeps fds (os.lstat path)
  ftruncate : ∀ fd size, Keeps fds (os.ftruncate fd size)
  fdopendir : ∀ {fd files entries files'}, os.fdopendir fd files = (.ok entries, files') →
    fds files' = (fds files).erase fd
  fdopendirFails : ∀ {fd files errno files'}, os.fdopendir fd files = (.error errno, files') →
    fds files' = fds files
  mkdir : ∀ path mode, Keeps fds (os.mkdir path mode)
  unlink : ∀ path, Keeps fds (os.unlink path)
  rmdir : ∀ path, Keeps fds (os.rmdir path)
  symlink : ∀ target path, Keeps fds (os.symlink target path)
  fchmod : ∀ fd mode, Keeps fds (os.fchmod fd mode)
  lchmod : ∀ path mode, Keeps fds (os.lchmod path mode)
  statvfs : ∀ path, Keeps fds (os.statvfs path)
  socket : ∀ {files fd files'}, dialer.socket files = (.ok fd, files') →
    fd ∉ fds files ∧ fds files' = insert fd (fds files)
  socketFails : ∀ {files errno files'}, dialer.socket files = (.error errno, files') →
    fds files' = fds files
  connect : ∀ fd, Keeps fds (dialer.connect fd)
  traffic : ∀ fd pkt files, fds (dialer.traffic fd pkt files).2 = fds files

section Moves
variable {σ : Type}

/-- With the sockets that were lost, the descriptors `before` became `after`; and no
socket was lost if all is `reliable`. -/
structure Moves (fds : σ → Finset Int) (reliable : Prop) (s s' : σ × List Int)
    (before after : Multiset Int) : Prop where
  transfers : Transfers (fds s.1) (fds s'.1) (before + s.2) (after + s'.2)
  lost : reliable → s'.2 = s.2

variable {fds : σ → Finset Int} {reliable : Prop} {s s' s'' : σ × List Int}
variable {before between after : Multiset Int}

theorem Moves.trans (first : Moves fds reliable s s' before between)
    (second : Moves fds reliable s' s'' between after) : Moves fds reliable s s'' before after where
  transfers := first.transfers.trans second.transfers
  lost := fun all => (second.lost all).trans (first.lost all)

theorem Moves.frame (moves : Moves fds reliable s s' before after) (frame : Multiset Int) :
    Moves fds reliable s s' (frame + before) (frame + after) := by
  have framed := moves.transfers.frame frame
  rw [← Multiset.add_assoc, ← Multiset.add_assoc] at framed
  exact ⟨framed, moves.lost⟩

/-- A call that leaves the descriptors alone may be made with any at hand. -/
theorem Moves.beside (moves : Moves fds reliable s s' 0 0) (held : Multiset Int) :
    Moves fds reliable s s' held held := by
  have framed := moves.frame held
  rwa [Multiset.add_zero] at framed

theorem moves_refl (s : σ × List Int) (held : Multiset Int) : Moves fds reliable s s held held :=
  ⟨transfers_refl _ _, fun _ => rfl⟩

theorem moves_first {files' : σ} (same : fds files' = fds s.1) :
    Moves fds reliable s (files', s.2) 0 0 := ⟨transfers_same same _, fun _ => rfl⟩

theorem moves_keeps {β : Type} {call : Sys σ β} (keeps : Keeps fds call) (s : σ × List Int) :
    Moves fds reliable s (onFirst call s).2 0 0 := moves_first (keeps s.1)

theorem moves_take {files' : σ} {fd : Int} (free : fd ∉ fds s.1) (taken : fds files' = insert fd (fds s.1)) :
    Moves fds reliable s (files', s.2) 0 {fd} := by
  have took := transfers_take free taken (s.2 : Multiset Int)
  refine ⟨?_, fun _ => rfl⟩
  rwa [Multiset.zero_add, Multiset.singleton_add]

theorem moves_give {files' : σ} {fd : Int} (given : fds files' = (fds s.1).erase fd) :
    Moves fds reliable s (files', s.2) {fd} 0 := by
  have gave := transfers_give given (s.2 : Multiset Int)
  refine ⟨?_, fun _ => rfl⟩
  rwa [Multiset.zero_add, Multiset.singleton_add]

end Moves

/-! ## Exchanges -/

section Exchanging
variable {σ β γ : Type}

/-- What comes of an operation that makes one exchange, and reads off the answer what
it returns. -/
def exchanging (xchg : Xchg σ) (outPkt inPkt : Packet) (rest : Int32 × Packet → Except Trap β)
    (put : β → σ → γ) (s : σ) : Except Trap γ :=
  match xchg outPkt inPkt s with
  | .error trap => .error trap
  | .ok (answer, s) => (rest answer).map (put · s)

theorem exchanging_ok {xchg : Xchg σ} {outPkt inPkt : Packet} {rest : Int32 × Packet → Except Trap β}
    {put : β → σ → γ} {s : σ} {out : γ} (done : exchanging xchg outPkt inPkt rest put s = .ok out) :
    ∃ answer s' read, xchg outPkt inPkt s = .ok (answer, s') ∧ rest answer = .ok read ∧ put read s' = out := by
  unfold exchanging at done
  split at done
  · cases done
  · rename_i answer s' exchanged
    cases read : rest answer with
    | error trap =>
        rw [read] at done
        cases done
    | ok value =>
        rw [read] at done
        exact ⟨answer, s', value, exchanged, read, Except.ok.inj done⟩

end Exchanging

def givenAnswer (answer : Int32 × Packet) : Xchg Unit := fun _ _ _ => .ok (answer, ())

section Away
variable (conf : ClientConf) {rsrc : ClientRsrc}

theorem requestOk_exchanging (outPkt : Packet) : ∃ rest, ∀ {σ : Type} (xchg : Xchg σ) (s : σ),
    requestOk xchg outPkt s = exchanging xchg outPkt zeroPacket rest Prod.mk s := by
  refine ⟨fun answer => (requestOk (givenAnswer answer) outPkt ()).map Prod.fst, fun xchg s => ?_⟩
  unfold requestOk exchanging givenAnswer
  cases xchg outPkt zeroPacket s with
  | error trap => rfl
  | ok both =>
      obtain ⟨⟨received, inPkt⟩, files⟩ := both
      simp only
      split_ifs
      · rfl
      · cases responseValidate inPkt mrspOk <;> rfl

theorem clientRsrcLstat_exchanging (junk : Packet) (type : rsrc.mrType = .mrNetwork) (uid gid : UInt32) :
    ∃ rest, ∀ {σ : Type} (os : Os σ) (xchg : Xchg σ) (s : σ), os.uid = uid → os.gid = gid →
      clientRsrcLstat conf os xchg junk rsrc s =
        exchanging xchg (requestPacket conf mreqGetattr rsrc.mrRsrc) junk rest
          (fun (both : Int32 × Statbuf) s => (both.1, both.2, s)) s := by
  refine ⟨fun answer => (clientRsrcLstat conf { (failingOs : Os Unit) with uid := uid, gid := gid }
    (givenAnswer answer) junk rsrc ()).map fun both => (both.1, both.2.1), fun os xchg s same same' => ?_⟩
  subst same same'
  simp only [clientRsrcLstat, type, exchanging, givenAnswer]
  cases xchg (requestPacket conf mreqGetattr rsrc.mrRsrc) junk s with
  | error trap => rfl
  | ok both =>
      obtain ⟨⟨received, inPkt⟩, files⟩ := both
      simp only
      split_ifs
      · rfl
      · cases responseValidate inPkt mrspStatType with
        | error trap => rfl
        | ok retv =>
            simp only
            split_ifs <;> rfl

theorem clientRsrcRead_exchanging (size : UInt64) (offset : Int64) (type : rsrc.mrType = .mrNetwork) :
    ∃ outPkt rest, ∀ {σ : Type} (os : Os σ) (xchg : Xchg σ) (s : σ),
      clientRsrcRead conf os xchg rsrc size offset s =
        exchanging xchg outPkt zeroPacket rest (fun (both : Int32 × List UInt8) s => (both.1, both.2, s)) s := by
  let req :=
    { (requestPacket conf mreqRead rsrc.mrRsrc).mpktRequest with
      mreqSize := size, mreqOff := offset.toUInt64 }
  refine ⟨{ requestPacket conf mreqRead rsrc.mrRsrc with mpktRequest := req },
    fun answer => (clientRsrcRead conf failingOs (givenAnswer answer) rsrc size offset ()).map
      fun both => (both.1, both.2.1),
    fun os xchg s => ?_⟩
  simp only [clientRsrcRead, type, exchanging, givenAnswer]
  generalize xchg _ zeroPacket s = exchanged
  cases exchanged with
  | error trap => rfl
  | ok both =>
      obtain ⟨⟨received, inPkt⟩, files⟩ := both
      simp only
      split_ifs
      · rfl
      · rfl
      · generalize memcpyFrom _ _ = copied
        cases copied <;> rfl
      · cases negateInt inPkt.mpktResponse.mrspError <;> rfl
      · rfl

/-- A write is not sent without a user name, or without memory for its copies. -/
theorem clientRsrcWrite_exchanging (malloc : Nat → Bool) (junk : Packet) (buf : List UInt8) (offset : Int64)
    (type : rsrc.mrType = .mrNetwork) :
    (∃ outPkt rest, ∀ {σ : Type} (os : Os σ) (xchg : Xchg σ) (s : σ),
        clientRsrcWrite conf os xchg malloc junk rsrc buf offset s =
          exchanging xchg outPkt junk rest Prod.mk s) ∨
      ∃ result : Except Trap Int32, ∀ {σ : Type} (os : Os σ) (xchg : Xchg σ) (s : σ),
        clientRsrcWrite conf os xchg malloc junk rsrc buf offset s = result.map (·, s) := by
  by_cases unnamed : conf.username.val = []
  · refine Or.inr ⟨.error .assertFail, fun os xchg s => ?_⟩
    simp only [clientRsrcWrite, type, if_pos unnamed]
    rfl
  by_cases granted : malloc (conf.username.val.length + 1) ∧ malloc buf.length
  · let req :=
      { (requestPacket conf mreqWrite rsrc.mrRsrc).mpktRequest with
        mreqSize := UInt64.ofNat buf.length, mreqOff := offset.toUInt64, mreqData := some buf }
    refine Or.inl ⟨{ requestPacket conf mreqWrite rsrc.mrRsrc with mpktRequest := req },
      fun answer =>
        (clientRsrcWrite conf failingOs (givenAnswer answer) malloc junk rsrc buf offset ()).map Prod.fst,
      fun os xchg s => ?_⟩
    simp only [clientRsrcWrite, type, exchanging, givenAnswer, if_neg unnamed, if_pos granted]
    generalize xchg _ junk s = exchanged
    cases exchanged with
    | error trap => rfl
    | ok both =>
        obtain ⟨⟨received, inPkt⟩, files⟩ := both
        simp only
        split_ifs <;> rfl
  · refine Or.inr ⟨.ok (-Int32.ofInt enomem), fun os xchg s => ?_⟩
    simp only [clientRsrcWrite, type, if_neg unnamed, if_neg granted]
    rfl

theorem clientRsrcReaddir_exchanging (full : Nat → Bool) (type : rsrc.mrType ≠ .mrLocal) :
    ∃ rest, ∀ {σ : Type} (os : Os σ) (xchg : Xchg σ) (s : σ),
      clientRsrcReaddir conf os xchg full rsrc s =
        exchanging xchg (requestPacket conf mreqReaddir rsrc.mrRsrc) zeroPacket rest
          (fun (both : Int32 × List (Option CStr × Int32)) s => (both.1, both.2, rsrc, s)) s := by
  refine ⟨fun answer => (clientRsrcReaddir conf failingOs (givenAnswer answer) full rsrc ()).map
    fun both => (both.1, both.2.1), fun os xchg s => ?_⟩
  cases away : rsrc.mrType with
  | mrLocal => exact absurd away type
  | mrNetwork | mrRoot =>
      simp only [clientRsrcReaddir, away, exchanging, givenAnswer]
      cases xchg (requestPacket conf mreqReaddir rsrc.mrRsrc) zeroPacket s with
      | error trap => rfl
      | ok both =>
          obtain ⟨⟨received, inPkt⟩, files⟩ := both
          simp only
          split_ifs
          · rfl
          · cases responseValidate inPkt mrspDirType with
            | error trap => rfl
            | ok retv =>
                simp only
                split_ifs
                · rfl
                · generalize fillEntries full _ 0 _ = filled
                  cases filled <;> rfl

end Away

/-! ## Operations -/

section Operations
variable {σ : Type} {os : MountOs σ} {dialer : Dialer σ} {fds : σ → Finset Int} {reliable : Prop}
variable (accounts : MountAccounts os dialer fds) (conf : ClientConf) {s s' : σ × List Int}
include accounts

theorem packetXchgOn_moves {malloc realloc : Nat → Bool} {outPkt inPkt : Packet} {answer : Int32 × Packet}
    (connects : reliable → ∀ fd files errno, (dialer.connect fd files).1 ≠ .error errno)
    (done : packetXchgOn dialer os.close malloc realloc outPkt inPkt s = .ok (answer, s')) :
    Moves fds reliable s s' 0 0 := by
  unfold packetXchgOn inetConnectOn at done
  split_ifs at done
  cases created : dialer.socket s.1 with
  | mk result files =>
      cases result with
      | error errno =>
          simp only [created] at done
          cases done
          exact moves_first (accounts.socketFails created)
      | ok fd =>
          obtain ⟨free, taken⟩ := accounts.socket created
          have keeps := accounts.connect fd files
          simp only [created] at done
          cases connected : dialer.connect fd files with
          | mk result files' =>
              rw [connected] at keeps
              simp only [connected] at done
              cases result with
              | error errno =>
                  cases done
                  -- the socket is lost
                  have lost := transfers_take free (keeps.trans taken) (s.2 : Multiset Int)
                  refine ⟨?_, fun all => absurd (congrArg Prod.fst connected) (connects all fd files errno)⟩
                  rwa [Multiset.zero_add, Multiset.zero_add]
              | ok _ =>
                  have quiet := accounts.traffic fd outPkt files'
                  simp only at done
                  split at done
                  · cases done
                  · cases done
                  · cases done
                    have took : Moves fds reliable s (files', s.2) 0 {fd} :=
                      moves_take free (keeps.trans taken)
                    have gave : Moves fds reliable ((dialer.traffic fd outPkt files').2, s.2)
                        (os.close fd (dialer.traffic fd outPkt files').2, s.2) {fd} 0 :=
                      moves_give (accounts.close fd _)
                    exact took.trans (((moves_first quiet).beside {fd}).trans gave)

omit accounts in
/-- An exchange after which the descriptors are as they were, but for lost sockets. -/
def Quiet (fds : σ → Finset Int) (reliable : Prop) (xchg : Xchg (σ × List Int)) : Prop :=
  ∀ {outPkt inPkt s answer s'}, xchg outPkt inPkt s = .ok (answer, s') → Moves fds reliable s s' 0 0

variable {xchg : Xchg (σ × List Int)} (quiet : Quiet fds reliable xchg) {rsrc rsrc' : ClientRsrc} {retv : Int32}

omit accounts in
include quiet in
theorem exchanging_moves {β γ : Type} {outPkt inPkt : Packet} {rest : Int32 × Packet → Except Trap β}
    {put : β → σ × List Int → γ} {out : γ} (done : exchanging xchg outPkt inPkt rest put s = .ok out) :
    ∃ read s', put read s' = out ∧ Moves fds reliable s s' 0 0 := by
  obtain ⟨_, s', read, exchanged, _, same⟩ := exchanging_ok done
  exact ⟨read, s', same, quiet exchanged⟩

omit accounts in
include quiet in
theorem requestOk_moves {outPkt : Packet} (done : requestOk xchg outPkt s = .ok (retv, s')) :
    Moves fds reliable s s' 0 0 := by
  obtain ⟨rest, made⟩ := requestOk_exchanging outPkt
  rw [made] at done
  obtain ⟨_, _, same, moves⟩ := exchanging_moves quiet done
  cases same
  exact moves

structure Opening (fds : σ → Finset Int) (reliable : Prop) (s : σ × List Int) (rsrc rsrc' : ClientRsrc)
    (retv : Int32) (s' : σ × List Int) : Prop where
  moves : Moves fds reliable s s' 0 rsrc'.held
  type : rsrc'.mrType = rsrc.mrType
  holds : 0 ≤ rsrc'.mrFd ↔ 0 ≤ retv ∧ rsrc.mrType = .mrLocal

include quiet in
theorem clientRsrcOpen_opens {flags mode : Int32} (shut : rsrc.mrFd = -1)
    (done : clientRsrcOpen conf os.first.toOs xchg rsrc flags mode s = .ok (retv, rsrc', s')) :
    Opening fds reliable s rsrc rsrc' retv s' := by
  have none_ : ¬ 0 ≤ rsrc.mrFd := by rw [shut]; decide
  have held := ClientRsrc.held_none shut
  cases type : rsrc.mrType with
  | mrNetwork =>
      simp only [clientRsrcOpen, type] at done
      split at done
      · cases done
      · rename_i exchanged
        cases done
        exact ⟨held ▸ requestOk_moves quiet exchanged, rfl, by simp [none_, type]⟩
  | mrRoot =>
      simp only [clientRsrcOpen, type] at done
      cases done
      refine ⟨?_, rfl, by simp [none_, type]⟩
      rw [held]
      exact moves_refl s 0
  | mrLocal =>
      simp only [clientRsrcOpen, type] at done
      split at done
      · cases done
      · rename_i path _
        simp only [MountOs.first, onFirst] at done
        generalize (if flags &&& oCreat ≠ 0 then mode else 0) = mode' at done
        cases opened : os.openFile path flags mode' s.1 with
        | mk result files =>
            simp only [opened] at done
            cases result with
            | error errno =>
                cases done
                refine ⟨?_, rfl, by simp [none_, Int32.not_le.mpr (negErrno_neg errno)]⟩
                rw [held]
                exact moves_first (accounts.openFileFails opened)
            | ok fd =>
                cases done
                have nonneg := accounts.nonneg opened
                obtain ⟨free, taken⟩ := accounts.openFile opened
                refine ⟨?_, type.symm, by simp [nonneg, type]⟩
                rw [ClientRsrc.held, if_pos nonneg]
                exact moves_take free taken

theorem clientRsrcClose_moves (rsrc : ClientRsrc) (s : σ × List Int) :
    Moves fds reliable s (clientRsrcClose os.first rsrc s).2 rsrc.held 0 := by
  unfold clientRsrcClose ClientRsrc.held
  split_ifs
  · exact moves_give (accounts.close rsrc.mrFd s.1)
  · exact moves_refl s 0

/-- A temporary resource holds nothing. -/
theorem clientRsrcClose_shut (shut : rsrc.mrFd = -1) (s : σ × List Int) :
    Moves fds reliable s (clientRsrcClose os.first rsrc s).2 0 0 := by
  have closed : Moves fds reliable s (clientRsrcClose os.first rsrc s).2 rsrc.held 0 :=
    clientRsrcClose_moves accounts rsrc s
  rwa [ClientRsrc.held_none shut] at closed

include quiet in
theorem clientRsrcLstat_moves {junk : Packet} {stbuf : Statbuf}
    (done : clientRsrcLstat conf os.first.toOs xchg junk rsrc s = .ok (retv, stbuf, s')) :
    Moves fds reliable s s' 0 0 := by
  cases type : rsrc.mrType with
  | mrNetwork =>
      obtain ⟨rest, made⟩ := clientRsrcLstat_exchanging conf junk type os.uid os.gid
      rw [made os.first.toOs _ _ rfl rfl] at done
      obtain ⟨_, _, same, moves⟩ := exchanging_moves quiet done
      cases same
      exact moves
  | mrRoot =>
      simp only [clientRsrcLstat, type] at done
      cases done
      exact moves_refl s 0
  | mrLocal =>
      simp only [clientRsrcLstat, type] at done
      split at done
      · cases done
      · rename_i path _
        have keeps : Moves fds reliable s (onFirst (os.lstat path) s).2 0 0 :=
          moves_keeps (accounts.lstat path) s
        simp only [MountOs.first] at done
        generalize onFirst (os.lstat path) s = called at done keeps
        obtain ⟨_ | _, _⟩ := called <;> cases done <;> exact keeps

include quiet in
theorem clientRsrcAccess_moves {mode : Int32}
    (done : clientRsrcAccess conf os.first.toOs xchg rsrc mode s = .ok (retv, s')) :
    Moves fds reliable s s' 0 0 := by
  cases type : rsrc.mrType with
  | mrNetwork | mrRoot =>
      simp only [clientRsrcAccess, type] at done
      exact requestOk_moves quiet done
  | mrLocal =>
      simp only [clientRsrcAccess, type] at done
      split at done
      · cases done
      · cases done
        exact moves_keeps (accounts.access _ mode) s

include quiet in
theorem clientRsrcTruncate_moves {size : Int64}
    (done : clientRsrcTruncate conf os.first.toOs xchg rsrc size s = .ok (retv, s')) :
    Moves fds reliable s s' 0 0 := by
  cases type : rsrc.mrType with
  | mrNetwork | mrRoot =>
      simp only [clientRsrcTruncate, type] at done
      exact requestOk_moves quiet done
  | mrLocal =>
      simp only [clientRsrcTruncate, type] at done
      split_ifs at done
      · cases done
        exact moves_keeps (accounts.ftruncate rsrc.mrFd size) s
      · split at done
        · cases done
        · cases done
          exact moves_keeps (accounts.truncate _ size) s

include quiet in
theorem clientRsrcRename_moves {dst : ClientRsrc}
    (done : clientRsrcRename conf os.first.toOs xchg rsrc dst s = .ok (retv, s')) :
    Moves fds reliable s s' 0 0 := by
  unfold clientRsrcRename at done
  split_ifs at done
  · cases done
    exact moves_refl s 0
  · cases type : dst.mrType with
    | mrNetwork | mrRoot =>
        simp only [type] at done
        exact requestOk_moves quiet done
    | mrLocal =>
        simp only [type] at done
        split at done
        · cases done
        · split at done
          · cases done
          · cases done
            exact moves_keeps (accounts.rename _ _) s

omit accounts in
theorem onLocalPath_moves {call : CStr → Sys σ Unit} (keeps : ∀ path, Keeps fds (call path))
    (done : onLocalPath conf (fun path => onFirst (call path)) rsrc s = .ok (retv, s')) :
    Moves fds reliable s s' 0 0 := by
  cases type : rsrc.mrType with
  | mrNetwork | mrRoot =>
      simp only [onLocalPath, type] at done
      cases done
      exact moves_refl s 0
  | mrLocal =>
      simp only [onLocalPath, type] at done
      split at done
      · cases done
      · cases done
        exact moves_keeps (keeps _) s

theorem clientRsrcChmod_moves {mode : UInt32}
    (done : clientRsrcChmod conf os.first rsrc mode s = .ok (retv, s')) : Moves fds reliable s s' 0 0 := by
  unfold clientRsrcChmod at done
  split_ifs at done
  · cases done
    exact moves_keeps (accounts.fchmod rsrc.mrFd mode) s
  · exact onLocalPath_moves conf (fun path => accounts.lchmod path mode) done

include quiet in
theorem clientRsrcRead_moves {size : UInt64} {offset : Int64} {bytes : List UInt8}
    (done : clientRsrcRead conf os.first.toOs xchg rsrc size offset s = .ok (retv, bytes, s')) :
    Moves fds reliable s s' 0 0 := by
  cases type : rsrc.mrType with
  | mrNetwork =>
      obtain ⟨outPkt, rest, made⟩ := clientRsrcRead_exchanging conf size offset type
      rw [made] at done
      obtain ⟨_, _, same, moves⟩ := exchanging_moves quiet done
      cases same
      exact moves
  | mrRoot =>
      simp only [clientRsrcRead, type] at done
      cases done
      exact moves_refl s 0
  | mrLocal =>
      have keeps : Moves fds reliable s (onFirst (os.pread rsrc.mrFd size.toNat offset) s).2 0 0 :=
        moves_keeps (accounts.pread rsrc.mrFd size.toNat offset) s
      simp only [clientRsrcRead, type, MountOs.first] at done
      generalize onFirst (os.pread rsrc.mrFd size.toNat offset) s = called at done keeps
      obtain ⟨_ | _, _⟩ := called <;> cases done <;> exact keeps

include quiet in
theorem clientRsrcWrite_moves {malloc : Nat → Bool} {junk : Packet} {buf : List UInt8} {offset : Int64}
    (done : clientRsrcWrite conf os.first.toOs xchg malloc junk rsrc buf offset s = .ok (retv, s')) :
    Moves fds reliable s s' 0 0 := by
  cases type : rsrc.mrType with
  | mrNetwork =>
      rcases clientRsrcWrite_exchanging conf malloc junk buf offset type with
        ⟨outPkt, rest, made⟩ | ⟨result, made⟩
      · rw [made] at done
        obtain ⟨_, _, same, moves⟩ := exchanging_moves quiet done
        cases same
        exact moves
      · rw [made] at done
        cases result <;> cases done
        exact moves_refl s 0
  | mrRoot =>
      simp only [clientRsrcWrite, type] at done
      cases done
      exact moves_refl s 0
  | mrLocal =>
      have keeps : Moves fds reliable s (onFirst (os.pwrite rsrc.mrFd buf offset) s).2 0 0 :=
        moves_keeps (accounts.pwrite rsrc.mrFd buf offset) s
      simp only [clientRsrcWrite, type, MountOs.first] at done
      generalize onFirst (os.pwrite rsrc.mrFd buf offset) s = called at done keeps
      obtain ⟨_ | _, _⟩ := called <;> cases done <;> exact keeps

include quiet in
/-- The stream of a local directory takes its descriptor with it. -/
theorem clientRsrcReaddir_moves {full : Nat → Bool} {filled : List (Option CStr × Int32)}
    (holds : 0 ≤ rsrc.mrFd ↔ rsrc.mrType = .mrLocal)
    (done : clientRsrcReaddir conf os.first.toOs xchg full rsrc s = .ok (retv, filled, rsrc', s')) :
    Moves fds reliable s s' rsrc.held rsrc'.held := by
  cases type : rsrc.mrType with
  | mrNetwork | mrRoot =>
      obtain ⟨rest, made⟩ := clientRsrcReaddir_exchanging conf full (show rsrc.mrType ≠ .mrLocal by
        rw [type]; decide)
      rw [made] at done
      obtain ⟨_, _, same, moves⟩ := exchanging_moves quiet done
      cases same
      exact moves.beside rsrc.held
  | mrLocal =>
      simp only [clientRsrcReaddir, type, MountOs.first, onFirst] at done
      cases streamed : os.fdopendir rsrc.mrFd s.1 with
      | mk result files =>
          simp only [streamed] at done
          cases result with
          | error errno =>
              cases done
              exact (moves_first (accounts.fdopendirFails streamed)).beside _
          | ok entries =>
              simp only at done
              split at done
              · cases done
              · cases done
                rw [ClientRsrc.held, if_pos (holds.mpr type)]
                exact moves_give (accounts.fdopendir streamed)

end Operations

/-! ## Calls -/

section Calls
variable {σ : Type}

def Mounted.held (mounted : Mounted σ) : Multiset Int :=
  (mounted.handles.map fun handle => handle.2.held).sum

/-- An open file has a descriptor if it is the client's own, and only then. -/
def Mounted.Sound (mounted : Mounted σ) : Prop :=
  ∀ handle ∈ mounted.handles, 0 ≤ handle.2.mrFd ↔ handle.2.mrType = .mrLocal

/-- What a call does to the descriptors: they are those of the open files again. -/
structure Carries (fds : σ → Finset Int) (reliable : Prop) (mounted mounted' : Mounted (σ × List Int)) : Prop where
  moves : Moves fds reliable mounted.files mounted'.files mounted.held mounted'.held
  sound : mounted.Sound → mounted'.Sound

theorem carries_files {fds : σ → Finset Int} {reliable : Prop} {mounted : Mounted (σ × List Int)} {s' : σ × List Int}
    (moves : Moves fds reliable mounted.files s' 0 0) : Carries fds reliable mounted { mounted with files := s' } where
  moves := moves.beside mounted.held
  sound := fun sound => sound

theorem carries_refl {fds : σ → Finset Int} {reliable : Prop} (mounted : Mounted (σ × List Int)) :
    Carries fds reliable mounted mounted := carries_files (moves_refl mounted.files 0)

theorem fileHandle_ok {handles : List (Nat × ClientRsrc)} {fh : Nat} {rsrc : ClientRsrc}
    (found : fileHandle handles fh = .ok rsrc) : ∃ earlier later,
    handles = earlier ++ (fh, rsrc) :: later ∧ ∀ handle ∈ earlier, handle.1 ≠ fh := by
  unfold fileHandle at found
  split at found
  · cases found
  · rename_i rsrc' looked
    cases found
    obtain ⟨earlier, later, all, others⟩ := List.lookup_eq_some_iff.mp looked
    exact ⟨earlier, later, all, fun handle member => (bne_iff_ne.mp (others handle member)).symm⟩

theorem erased_handle {earlier : List (Nat × ClientRsrc)} {fh : Nat}
    (others : ∀ handle ∈ earlier, handle.1 ≠ fh) (rsrc : ClientRsrc) (later : List (Nat × ClientRsrc)) :
    (earlier ++ (fh, rsrc) :: later).eraseP (·.1 == fh) = earlier ++ later := by
  rw [List.eraseP_append_right _ fun handle member same => others handle member (beq_iff_eq.mp same)]
  simp

variable {os : MountOs σ} {dialer : Dialer σ} {fds : σ → Finset Int} {reliable : Prop}
variable (accounts : MountAccounts os dialer fds) (conf : ClientConf)
variable {xchg : Xchg (σ × List Int)} (quiet : Quiet fds reliable xchg)
variable {mounted mounted' : Mounted (σ × List Int)} {retv : Int32} {path : CStr}
include accounts

theorem onTemporary_carries {op : ClientRsrc → σ × List Int → Except Trap (Int32 × (σ × List Int))}
    (moves : ∀ {tmp s retv s'}, op tmp s = .ok (retv, s') → Moves fds reliable s s' 0 0)
    (done : onTemporary conf os.first path op mounted = .ok (retv, mounted')) :
    Carries fds reliable mounted mounted' := by
  unfold onTemporary at done
  split at done
  · cases done
    exact carries_refl mounted
  · rename_i tmp made
    split at done
    · cases done
    · rename_i retv' s performed
      cases done
      exact carries_files
        ((moves performed).trans (clientRsrcClose_shut accounts (clientRsrcInit_fd made) s))

omit accounts in
theorem onHandle_carries {fh : Nat}
    {op : ClientRsrc → σ × List Int → Except Trap (Int32 × (σ × List Int))}
    (moves : ∀ {rsrc s retv s'}, op rsrc s = .ok (retv, s') → Moves fds reliable s s' 0 0)
    (done : onHandle fh op mounted = .ok (retv, mounted')) : Carries fds reliable mounted mounted' := by
  unfold onHandle at done
  split at done
  · cases done
  · split at done
    · cases done
    · rename_i performed
      cases done
      exact carries_files (moves performed)

include quiet

theorem middfsGetattr_carries {junk : Packet} {fi : Option Nat} {stbuf : Option Statbuf}
    (done : middfsGetattr conf os.first xchg junk path fi mounted = .ok (retv, stbuf, mounted')) :
    Carries fds reliable mounted mounted' := by
  cases fi with
  | none =>
      simp only [middfsGetattr] at done
      split at done
      · cases done
        exact carries_refl mounted
      · rename_i tmp made
        split at done
        · cases done
        · rename_i retv' stbuf' s performed
          cases done
          exact carries_files ((clientRsrcLstat_moves accounts conf quiet performed).trans
            (clientRsrcClose_shut accounts (clientRsrcInit_fd made) s))
  | some fh =>
      simp only [middfsGetattr] at done
      split at done
      · cases done
      · split at done
        · cases done
        · rename_i performed
          cases done
          exact carries_files (clientRsrcLstat_moves accounts conf quiet performed)

theorem middfsReaddir_carries {full : Nat → Bool} {filled : List (Option CStr × Int32)}
    (done : middfsReaddir conf os.first xchg full path mounted = .ok (retv, filled, mounted')) :
    Carries fds reliable mounted mounted' := by
  unfold middfsReaddir at done
  split at done
  · cases done
    exact carries_refl mounted
  · rename_i rsrc made
    split at done
    · cases done
    · rename_i retv' rsrc' s opened
      have opens := clientRsrcOpen_opens accounts conf quiet (clientRsrcInit_fd made) opened
      split_ifs at done with failed
      · cases done
        exact carries_files (opens.moves.trans (clientRsrcClose_moves accounts rsrc' s))
      · split at done
        · cases done
        · rename_i retv'' filled' rsrc'' s' listed
          cases done
          have holds : 0 ≤ rsrc'.mrFd ↔ rsrc'.mrType = .mrLocal := by
            rw [opens.type, opens.holds]
            exact and_iff_right (Int32.not_lt.mp failed)
          exact carries_files (opens.moves.trans
            ((clientRsrcReaddir_moves accounts conf quiet holds listed).trans
              (clientRsrcClose_moves accounts rsrc'' s')))

omit accounts quiet in
theorem Opening.failed {s s' : σ × List Int} {rsrc rsrc' : ClientRsrc}
    (opens : Opening fds reliable s rsrc rsrc' retv s') (failed : retv < 0) : Moves fds reliable s s' 0 0 := by
  have none_ : rsrc'.held = 0 := if_neg fun holds =>
    absurd (opens.holds.mp holds).1 (Int32.not_le.mpr failed)
  have moves := opens.moves
  rwa [none_] at moves

theorem openHandle_carries {address fh : Option Nat} {flags mode : Int32}
    (done : openHandle conf os.first xchg address path flags mode mounted = .ok (retv, fh, mounted')) :
    Carries fds reliable mounted mounted' := by
  unfold openHandle at done
  split at done
  · cases done
    exact carries_refl mounted
  · split at done
    · cases done
      exact carries_refl mounted
    · rename_i rsrc made
      split at done
      · cases done
      · rename_i retv' rsrc' s opened
        have opens := clientRsrcOpen_opens accounts conf quiet (clientRsrcInit_fd made) opened
        split_ifs at done with failed
        · cases done
          exact carries_files (opens.moves.trans (clientRsrcClose_moves accounts rsrc' s))
        · cases done
          refine ⟨?_, fun sound handle member => ?_⟩
          · have framed := opens.moves.frame mounted.held
            rw [Multiset.add_zero, Multiset.add_comm] at framed
            exact framed
          · rcases List.mem_cons.mp member with rfl | among
            · show 0 ≤ rsrc'.mrFd ↔ rsrc'.mrType = .mrLocal
              rw [opens.type, opens.holds]
              exact and_iff_right (Int32.not_lt.mp failed)
            · exact sound handle among

theorem middfsOpen_carries {address fh : Option Nat} {flags : Int32}
    (done : middfsOpen conf os.first xchg address path flags mounted = .ok (retv, fh, mounted')) :
    Carries fds reliable mounted mounted' := by
  unfold middfsOpen at done
  split_ifs at done
  split at done
  · cases done
  · rename_i opened
    cases done
    exact openHandle_carries accounts conf quiet opened

theorem middfsRead_carries {size : UInt64} {offset : Int64} {fi : Option Nat} {bytes : List UInt8}
    (done : middfsRead conf os.first xchg path size offset fi mounted = .ok (retv, bytes, mounted')) :
    Carries fds reliable mounted mounted' := by
  cases fi with
  | none =>
      simp only [middfsRead] at done
      split at done
      · cases done
        exact carries_refl mounted
      · rename_i tmp made
        split at done
        · cases done
        · rename_i retv' tmp' s opened
          have opens := clientRsrcOpen_opens accounts conf quiet (clientRsrcInit_fd made) opened
          split_ifs at done with failed
          · cases done
            exact carries_files (opens.failed failed)
          · split at done
            · cases done
            · rename_i retv'' bytes' s' performed
              cases done
              exact carries_files (opens.moves.trans
                (((clientRsrcRead_moves accounts conf quiet performed).beside _).trans
                  (clientRsrcClose_moves accounts tmp' s')))
  | some fh =>
      simp only [middfsRead] at done
      split at done
      · cases done
      · split at done
        · cases done
        · rename_i performed
          cases done
          exact carries_files (clientRsrcRead_moves accounts conf quiet performed)

theorem middfsWrite_carries {malloc : Nat → Bool} {junk : Packet} {buf : List UInt8} {offset : Int64}
    {fi : Option Nat}
    (done : middfsWrite conf os.first xchg malloc junk path buf offset fi mounted = .ok (retv, mounted')) :
    Carries fds reliable mounted mounted' := by
  cases fi with
  | none =>
      simp only [middfsWrite] at done
      split at done
      · cases done
        exact carries_refl mounted
      · rename_i tmp made
        split at done
        · cases done
        · rename_i retv' tmp' s opened
          have opens := clientRsrcOpen_opens accounts conf quiet (clientRsrcInit_fd made) opened
          split_ifs at done with failed
          cases done
          exact carries_files (opens.failed failed)
  | some fh =>
      simp only [middfsWrite] at done
      exact onHandle_carries (fun performed => clientRsrcWrite_moves accounts conf quiet performed) done

omit quiet in
theorem middfsRelease_carries {fh : Nat}
    (done : middfsRelease os.first fh mounted = .ok (retv, mounted')) : Carries fds reliable mounted mounted' := by
  unfold middfsRelease at done
  split at done
  · cases done
  · rename_i rsrc found
    cases done
    obtain ⟨earlier, later, all, others⟩ := fileHandle_ok found
    have left : mounted.handles.eraseP (·.1 == fh) = earlier ++ later := by
      rw [all, erased_handle others]
    constructor
    · have shut : Moves fds reliable mounted.files (clientRsrcClose os.first rsrc mounted.files).2
          rsrc.held 0 := clientRsrcClose_moves accounts rsrc mounted.files
      have closed := shut.frame (Mounted.held ⟨mounted.files, earlier ++ later⟩)
      simp only [Mounted.held, left]
      simp only [Mounted.held, all, List.map_append, List.map_cons, List.sum_append, List.sum_cons,
        Multiset.add_zero] at closed ⊢
      rwa [Multiset.add_assoc, Multiset.add_comm _ rsrc.held] at closed
    · intro sound handle member
      rw [left] at member
      refine sound handle (all ▸ ?_)
      rcases List.mem_append.mp member with before | after
      · exact List.mem_append_left _ before
      · exact List.mem_append_right _ (List.mem_cons_of_mem _ after)

omit accounts quiet in
theorem plainReply_ok {result : Except Trap (Int32 × Mounted σ)} {reply : FuseReply}
    {after : Mounted σ} (done : plainReply result = .ok (reply, after)) :
    ∃ retv, result = .ok (retv, after) ∧ reply = ⟨retv, .nothing⟩ := by
  cases result with
  | error trap => cases done
  | ok both =>
      cases done
      exact ⟨both.1, rfl, rfl⟩

omit accounts quiet in
theorem dataReply_ok {β : Type} {data : β → FuseData} {result : Except Trap (Int32 × β × Mounted σ)}
    {reply : FuseReply} {after : Mounted σ} (done : dataReply data result = .ok (reply, after)) :
    ∃ retv value, result = .ok (retv, value, after) ∧ reply = ⟨retv, data value⟩ := by
  cases result with
  | error trap => cases done
  | ok all =>
      cases done
      exact ⟨all.1, all.2.1, rfl, rfl⟩

/-- The step lemma. -/
theorem middfsOper_carries {call : FuseCall} {reply : FuseReply}
    (done : middfsOper conf os.first xchg mounted call = .ok (reply, mounted')) :
    Carries fds reliable mounted mounted' := by
  cases call with
  | getattr junk path fi =>
      obtain ⟨_, _, performed, _⟩ := dataReply_ok done
      exact middfsGetattr_carries accounts conf quiet performed
  | access path mode =>
      obtain ⟨_, performed, _⟩ := plainReply_ok done
      exact onTemporary_carries accounts conf (clientRsrcAccess_moves accounts conf quiet) performed
  | readlink errno path size =>
      simp only [middfsOper] at done
      generalize middfsReadlink conf (os.first.links mounted.files) errno (.ok ()) path size = result at done
      cases result with
      | error trap => cases done
      | ok both =>
          cases done
          exact carries_refl mounted
  | mkdir path mode =>
      obtain ⟨_, performed, _⟩ := plainReply_ok done
      exact onTemporary_carries accounts conf
        (onLocalPath_moves conf fun path => accounts.mkdir path mode) performed
  | symlink target src =>
      obtain ⟨_, performed, _⟩ := plainReply_ok done
      unfold middfsSymlink at performed
      split at performed
      · cases performed
        exact carries_refl mounted
      · rename_i tmp made
        split at performed
        · cases performed
        · rename_i retv' s linked
          cases performed
          exact carries_files
            ((onLocalPath_moves conf (fun path => accounts.symlink target path) linked).trans
              (clientRsrcClose_shut accounts (clientRsrcInit_fd made) s))
  | unlink path =>
      obtain ⟨_, performed, _⟩ := plainReply_ok done
      exact onTemporary_carries accounts conf (onLocalPath_moves conf accounts.unlink) performed
  | rmdir path =>
      obtain ⟨_, performed, _⟩ := plainReply_ok done
      exact onTemporary_carries accounts conf (onLocalPath_moves conf accounts.rmdir) performed
  | rename src dst =>
      simp only [middfsOper] at done
      cases renamed : middfsRename conf os.first.toOs xchg src dst mounted.files with
      | error trap =>
          rw [renamed] at done
          cases done
      | ok both =>
          obtain ⟨retv, s⟩ := both
          rw [renamed] at done
          cases done
          unfold middfsRename at renamed
          split at renamed
          · cases renamed
            exact carries_refl mounted
          · split at renamed
            · cases renamed
            · exact carries_files (clientRsrcRename_moves accounts conf quiet renamed)
  | link src dst =>
      obtain ⟨_, performed, _⟩ := plainReply_ok done
      cases performed
  | chmod path mode fi =>
      obtain ⟨_, performed, _⟩ := plainReply_ok done
      cases fi with
      | none =>
          simp only [middfsChmod] at performed
          split at performed
          · cases performed
            exact carries_refl mounted
          · rename_i tmp made
            split at performed
            · cases performed
            · rename_i retv' s changed
              cases performed
              exact carries_files ((clientRsrcChmod_moves accounts conf changed).trans
                (clientRsrcClose_shut accounts (clientRsrcInit_fd made) s))
      | some fh => exact onHandle_carries (clientRsrcChmod_moves accounts conf) performed
  | truncate path size fi =>
      obtain ⟨_, performed, _⟩ := plainReply_ok done
      cases fi with
      | none =>
          exact onTemporary_carries accounts conf (clientRsrcTruncate_moves accounts conf quiet) performed
      | some fh => exact onHandle_carries (clientRsrcTruncate_moves accounts conf quiet) performed
  | openFile address path flags =>
      obtain ⟨_, _, performed, _⟩ := dataReply_ok done
      exact middfsOpen_carries accounts conf quiet performed
  | create address path mode flags =>
      obtain ⟨_, _, performed, _⟩ := dataReply_ok done
      exact openHandle_carries accounts conf quiet performed
  | read path size offset fi =>
      obtain ⟨_, _, performed, _⟩ := dataReply_ok done
      exact middfsRead_carries accounts conf quiet performed
  | write malloc junk path buf offset fi =>
      obtain ⟨_, performed, _⟩ := plainReply_ok done
      exact middfsWrite_carries accounts conf quiet performed
  | statfs path =>
      obtain ⟨_, performed, _⟩ := plainReply_ok done
      cases performed
      exact carries_files (moves_keeps (accounts.statvfs path) mounted.files)
  | release path fh =>
      obtain ⟨_, performed, _⟩ := plainReply_ok done
      exact middfsRelease_carries accounts performed
  | readdir full path =>
      obtain ⟨_, _, performed, _⟩ := dataReply_ok done
      exact middfsReaddir_carries accounts conf quiet performed

end Calls

/-! ## Runs -/

section Mount
variable {σ : Type}

def mounting (conf : ClientConf) (os : MountOs σ) (xchg : Xchg σ) (call : FuseCall)
    (mounted : Mounted σ) : Except Trap (Mounted σ) :=
  (middfsOper conf os xchg mounted call).map Prod.snd

/-- The descriptors in use are, each once, those that there were before, those of the
open files and the sockets that could not be connected. -/
structure Descriptors (fds : σ → Finset Int) (reliable : Prop) (start : σ)
    (mounted : Mounted (σ × List Int)) : Prop where
  all : (fds mounted.files.1).val = mounted.held + mounted.files.2 + (fds start).val
  own : mounted.Sound
  lost : reliable → mounted.files.2 = []

/-- In every run of calls of the file system, the only descriptors are those of the
client's own files that are open, and of sockets that could not be connected. -/
theorem mount_descriptors {os : MountOs σ} {dialer : Dialer σ} {fds : σ → Finset Int}
    (accounts : MountAccounts os dialer fds) (conf : ClientConf) (malloc realloc : Nat → Bool)
    {start : σ} {mounted : Mounted (σ × List Int)}
    (run : Reached (mounting conf os.first (packetXchgOn dialer os.close malloc realloc))
      (fun _ _ => True) ⟨(start, []), []⟩ mounted) :
    Descriptors fds (∀ fd files errno, (dialer.connect fd files).1 ≠ .error errno) start mounted := by
  have quiet : Quiet fds (∀ fd files errno, (dialer.connect fd files).1 ≠ .error errno)
      (packetXchgOn dialer os.close malloc realloc) := packetXchgOn_moves accounts (fun all => all)
  refine run.invariant ⟨?_, fun _ no => (by cases no), fun _ => rfl⟩ fun call before after kept _ done => ?_
  · show (fds start).val = 0 + 0 + (fds start).val
    rw [Multiset.zero_add, Multiset.zero_add]
  · unfold mounting at done
    cases performed : middfsOper conf os.first (packetXchgOn dialer os.close malloc realloc) before call with
    | error trap =>
        rw [performed] at done
        cases done
    | ok both =>
        obtain ⟨reply, next⟩ := both
        rw [performed] at done
        cases done
        have carries := middfsOper_carries accounts conf quiet performed
        exact ⟨carries.moves.transfers _ kept.all, carries.sound kept.own,
          fun all => (carries.moves.lost all).trans (kept.lost all)⟩

end Mount

/-! ## A server that is not there -/

def oneFile : MountOs (Finset Int) where
  toOs := oneDescriptor
  closeResult := fun _ _ => .ok ()
  links := fun _ _ => .error eacces
  mkdir := fun _ _ fds => (.error eacces, fds)
  unlink := fun _ fds => (.error eacces, fds)
  rmdir := fun _ fds => (.error eacces, fds)
  symlink := fun _ _ fds => (.error eacces, fds)
  fchmod := fun _ _ fds => (.error eacces, fds)
  lchmod := fun _ _ fds => (.error eacces, fds)
  statvfs := fun _ fds => (.error eacces, fds)

def econnrefused : Errno := ⟨111, by decide⟩

/-- Descriptor 4 is for a socket, which cannot be connected. -/
def noServer : Dialer (Finset Int) where
  configured := true
  socket := fun fds => if 4 ∈ fds then (.error emfile, fds) else (.ok 4, insert 4 fds)
  connect := fun _ fds => (.error econnrefused, fds)
  traffic := fun _ _ fds => (([], []), fds)

def toNobody : Xchg (Finset Int × List Int) :=
  packetXchgOn noServer oneFile.close (fun _ => true) (fun _ => true)

theorem oneFile_accounts : MountAccounts oneFile noServer id where
  toAccounts := oneDescriptor_accounts
  nonneg := by
    intro path flags mode files fd files' opened
    simp only [oneFile, oneDescriptor] at opened
    split_ifs at opened <;> cases opened
    decide
  lstat := fun _ _ => rfl
  ftruncate := fun _ _ _ => rfl
  fdopendir := fun {_ _ _ _} opened => by cases opened
  fdopendirFails := fun {_ _ _ _} failed => by cases failed; rfl
  mkdir := fun _ _ _ => rfl
  unlink := fun _ _ => rfl
  rmdir := fun _ _ => rfl
  symlink := fun _ _ _ => rfl
  fchmod := fun _ _ _ => rfl
  lchmod := fun _ _ _ => rfl
  statvfs := fun _ _ => rfl
  socket := by
    intro files fd files' created
    simp only [noServer] at created
    split_ifs at created with taken <;> cases created
    exact ⟨taken, rfl⟩
  socketFails := by
    intro files errno files' failed
    simp only [noServer] at failed
    split_ifs at failed <;> cases failed
    rfl
  connect := fun _ _ => rfl
  traffic := fun _ _ _ => rfl

/-- User `a` opens `/a/f` and, which fails, `/a/g`; he asks for `/b/f`; and he closes
his file. -/
def unconnected : List FuseCall :=
  [.openFile (some 100) (strAt [47, 97, 47, 102]) 0, .openFile (some 101) (strAt [47, 97, 47, 103]) 0,
    .getattr zeroPacket (strAt [47, 98, 47, 102]) none, .release (strAt [47, 97, 47, 102]) 100]

theorem mount_descriptors_unconnected : ∃ mounted,
    steps (mounting aConf oneFile.first toNobody) unconnected ⟨(({0, 1, 2} : Finset Int), []), []⟩ =
      .ok mounted ∧
    mounted.files.2 = [4] ∧ mounted.handles = [] ∧
    Descriptors id (∀ fd files errno, (noServer.connect fd files).1 ≠ .error errno) {0, 1, 2} mounted := by
  have happens : ∃ mounted,
      steps (mounting aConf oneFile.first toNobody) unconnected ⟨(({0, 1, 2} : Finset Int), []), []⟩ =
        .ok mounted ∧
      mounted.files.2 = [4] ∧ mounted.handles = [] := ⟨_, rfl, rfl, rfl⟩
  obtain ⟨mounted, runs, lost, closed⟩ := happens
  exact ⟨mounted, runs, lost, closed, mount_descriptors oneFile_accounts aConf (fun _ => true)
    (fun _ => true) (Reached.of_steps runs)⟩

end Middfs
