import Middfs.Mounting
import Middfs.Views

/-!
# A client's own files and those of others

The calls of a client's file system that are for his own files neither need the
network nor change what goes on there, and the calls that are for the files of
others neither need his own nor change them, in whatever order they come.
-/

set_option autoImplicit false

namespace Middfs

open Runs

/-! ## Observers -/

/-- What comes of an operation that takes `s` to `s'` for somebody who may see it:
`out`, or otherwise nothing. -/
def Observed {σ τ γ : Type} (view : σ → τ) (seen : Bool) (s s' : σ) (result : Except Trap γ) (out : γ) :
    Prop :=
  if seen then result = .ok out else view s' = view s

def Sees {σ τ β : Type} (view : σ → τ) (seen : Bool) (call : Sys σ β) (call' : Sys τ β) : Prop :=
  ∀ s, if seen then call' (view s) = ((call s).1, view (call s).2) else view (call s).2 = view s

/-- Somebody who sees the operations on resources of some types, by his own system
calls and exchanges. -/
structure Observer {σ τ : Type} (view : σ → τ) (seen : ClientRsrcType → Bool) (os : MountOs σ)
    (xchg : Xchg σ) (os' : MountOs τ) (xchg' : Xchg τ) : Prop where
  openFile : ∀ path flags mode,
    Sees view (seen .mrLocal) (os.openFile path flags mode) (os'.openFile path flags mode)
  close : ∀ fd s, if seen .mrLocal then
    os'.close fd (view s) = view (os.close fd s) ∧ os'.closeResult fd (view s) = os.closeResult fd s
    else view (os.close fd s) = view s
  pread : ∀ fd size offset, Sees view (seen .mrLocal) (os.pread fd size offset) (os'.pread fd size offset)
  pwrite : ∀ fd buf offset, Sees view (seen .mrLocal) (os.pwrite fd buf offset) (os'.pwrite fd buf offset)
  lstat : ∀ path, Sees view (seen .mrLocal) (os.lstat path) (os'.lstat path)
  fdopendir : ∀ fd, Sees view (seen .mrLocal) (os.fdopendir fd) (os'.fdopendir fd)
  access : ∀ path mode, Sees view (seen .mrLocal) (os.access path mode) (os'.access path mode)
  truncate : ∀ path size, Sees view (seen .mrLocal) (os.truncate path size) (os'.truncate path size)
  ftruncate : ∀ fd size, Sees view (seen .mrLocal) (os.ftruncate fd size) (os'.ftruncate fd size)
  rename : ∀ src dst, Sees view (seen .mrLocal) (os.rename src dst) (os'.rename src dst)
  links : seen .mrLocal = true → ∀ s, os'.links (view s) = os.links s
  mkdir : ∀ path mode, Sees view (seen .mrLocal) (os.mkdir path mode) (os'.mkdir path mode)
  unlink : ∀ path, Sees view (seen .mrLocal) (os.unlink path) (os'.unlink path)
  rmdir : ∀ path, Sees view (seen .mrLocal) (os.rmdir path) (os'.rmdir path)
  symlink : ∀ target path, Sees view (seen .mrLocal) (os.symlink target path) (os'.symlink target path)
  fchmod : ∀ fd mode, Sees view (seen .mrLocal) (os.fchmod fd mode) (os'.fchmod fd mode)
  lchmod : ∀ path mode, Sees view (seen .mrLocal) (os.lchmod path mode) (os'.lchmod path mode)
  statvfs : ∀ path, Sees view (seen .mrLocal) (os.statvfs path) (os'.statvfs path)
  xchg : ∀ {outPkt inPkt s answer s'}, xchg outPkt inPkt s = .ok (answer, s') →
    Observed view (seen .mrNetwork) s s' (xchg' outPkt inPkt (view s)) (answer, view s')
  root : seen .mrRoot = seen .mrNetwork
  uid : os'.uid = os.uid
  gid : os'.gid = os.gid

section Observed
variable {σ τ γ : Type} {view : σ → τ} {seen : Bool} {s s' : σ}

theorem observed_same {result : Except Trap γ} {out : γ} (same : result = .ok out) :
    Observed view seen s s result out := by
  unfold Observed
  split_ifs
  · exact same
  · rfl

theorem Observed.after {β : Type} {result : Except Trap β} {answer : β}
    (first : Observed view seen s s' result answer) {result' : Except Trap γ} {out : γ}
    (passes : result = .ok answer → result' = .ok out) : Observed view seen s s' result' out := by
  unfold Observed at first ⊢
  split_ifs at first ⊢
  · exact passes first
  · exact first

theorem Sees.after {β : Type} {call : Sys σ β} {call' : Sys τ β} (sees : Sees view seen call call')
    {result : Except Trap γ} {out : γ}
    (passes : call' (view s) = ((call s).1, view (call s).2) → result = .ok out) :
    Observed view seen s (call s).2 result out := by
  have first := sees s
  unfold Observed
  split_ifs at first ⊢
  · exact passes first
  · exact first

def Noticed (view : σ → τ) (seen : Bool) (s s' : σ) (fact : Prop) : Prop :=
  if seen then fact else view s' = view s

theorem Observed.and {s'' : σ} {result : Except Trap γ} {out : γ}
    (first : Observed view seen s s' result out) {fact : Prop} (second : Noticed view seen s' s'' fact) :
    Noticed view seen s s'' (result = .ok out ∧ fact) := by
  unfold Observed at first
  unfold Noticed at second ⊢
  split_ifs at first second ⊢
  · exact ⟨first, second⟩
  · exact second.trans first

theorem Sees.status {β : Type} {call : Sys σ β} {call' : Sys τ β} (sees : Sees view seen call call') (s : σ) :
    Observed view seen s (call s).2
      (.ok (statusOf (call' (view s)).1, (call' (view s)).2) : Except Trap (Int32 × τ))
      (statusOf (call s).1, view (call s).2) :=
  sees.after fun again => by rw [again]

end Observed

/-! ## Resources -/

section Resources
variable {σ τ : Type} {view : σ → τ} {seen : ClientRsrcType → Bool}
variable {os : MountOs σ} {xchg : Xchg σ} {os' : MountOs τ} {xchg' : Xchg τ}
variable (observer : Observer view seen os xchg os' xchg') (conf : ClientConf)
variable {rsrc rsrc' : ClientRsrc} {s s' : σ} {retv : Int32}
include observer

theorem exchanging_observed {β γ δ : Type} {outPkt inPkt : Packet} {rest : Int32 × Packet → Except Trap β}
    {put : β → σ → γ} {out : γ} (done : exchanging xchg outPkt inPkt rest put s = .ok out)
    (put' : β → τ → δ) :
    ∃ read s', put read s' = out ∧
      Observed view (seen .mrNetwork) s s' (exchanging xchg' outPkt inPkt rest put' (view s))
        (put' read (view s')) := by
  obtain ⟨answer, s', read, exchanged, answered, same⟩ := exchanging_ok done
  refine ⟨read, s', same, (observer.xchg exchanged).after fun again => ?_⟩
  simp only [exchanging, again, answered]
  rfl

theorem requestOk_observed {outPkt : Packet} (done : requestOk xchg outPkt s = .ok (retv, s')) :
    Observed view (seen .mrNetwork) s s' (requestOk xchg' outPkt (view s)) (retv, view s') := by
  obtain ⟨rest, made⟩ := requestOk_exchanging outPkt
  rw [made] at done ⊢
  obtain ⟨_, _, same, observed⟩ := exchanging_observed observer done Prod.mk
  cases same
  exact observed

theorem clientRsrcOpen_observed {flags mode : Int32}
    (done : clientRsrcOpen conf os.toOs xchg rsrc flags mode s = .ok (retv, rsrc', s')) :
    Observed view (seen rsrc.mrType) s s' (clientRsrcOpen conf os'.toOs xchg' rsrc flags mode (view s))
      (retv, rsrc', view s') := by
  cases type : rsrc.mrType with
  | mrNetwork =>
      simp only [clientRsrcOpen, type] at done ⊢
      split at done
      · cases done
      · rename_i exchanged
        cases done
        exact (requestOk_observed observer exchanged).after fun again => by rw [again]
  | mrRoot =>
      simp only [clientRsrcOpen, type] at done ⊢
      cases done
      exact observed_same rfl
  | mrLocal =>
      simp only [clientRsrcOpen, type] at done ⊢
      split at done
      · cases done
      · rename_i path _
        generalize (if flags &&& oCreat ≠ 0 then mode else 0) = mode' at done ⊢
        have sees := observer.openFile path flags mode'
        cases opened : os.openFile path flags mode' s with
        | mk result files =>
            rw [opened] at done
            have kept : s' = (os.openFile path flags mode' s).2 := by
              rw [opened]
              cases result <;> cases done <;> rfl
            rw [kept]
            refine sees.after fun again => ?_
            rw [again, opened]
            cases result <;> cases done <;> rfl

theorem clientRsrcClose_observed (rsrc : ClientRsrc) (s : σ) :
    Observed view (seen .mrLocal) s (clientRsrcClose os rsrc s).2
      (.ok (clientRsrcClose os' rsrc (view s)) : Except Trap (Int32 × τ))
      ((clientRsrcClose os rsrc s).1, view (clientRsrcClose os rsrc s).2) := by
  have closes := observer.close rsrc.mrFd s
  unfold clientRsrcClose clientRsrcDelete
  split_ifs with holds
  · unfold Observed
    split_ifs at closes ⊢
    · obtain ⟨after, result⟩ := closes
      rw [after, result]
    · exact closes
  · exact observed_same rfl

theorem clientRsrcLstat_observed {junk : Packet} {stbuf : Statbuf}
    (done : clientRsrcLstat conf os.toOs xchg junk rsrc s = .ok (retv, stbuf, s')) :
    Observed view (seen rsrc.mrType) s s' (clientRsrcLstat conf os'.toOs xchg' junk rsrc (view s))
      (retv, stbuf, view s') := by
  cases type : rsrc.mrType with
  | mrNetwork =>
      obtain ⟨rest, made⟩ := clientRsrcLstat_exchanging conf junk type os.uid os.gid
      rw [made _ _ _ rfl rfl] at done
      rw [made _ _ _ observer.uid observer.gid]
      obtain ⟨_, _, same, observed⟩ := exchanging_observed observer done
        fun (both : Int32 × Statbuf) t => (both.1, both.2, t)
      cases same
      exact observed
  | mrRoot =>
      simp only [clientRsrcLstat, type] at done ⊢
      cases done
      rw [observer.uid, observer.gid]
      exact observed_same rfl
  | mrLocal =>
      simp only [clientRsrcLstat, type] at done ⊢
      split at done
      · cases done
      · rename_i path _
        have sees := observer.lstat path
        cases called : os.lstat path s with
        | mk result files =>
            rw [called] at done
            have kept : s' = (os.lstat path s).2 := by
              rw [called]
              cases result <;> cases done <;> rfl
            rw [kept]
            refine sees.after fun again => ?_
            rw [again, called]
            cases result <;> cases done <;> rfl

theorem clientRsrcAccess_observed {mode : Int32}
    (done : clientRsrcAccess conf os.toOs xchg rsrc mode s = .ok (retv, s')) :
    Observed view (seen rsrc.mrType) s s' (clientRsrcAccess conf os'.toOs xchg' rsrc mode (view s))
      (retv, view s') := by
  cases type : rsrc.mrType with
  | mrNetwork =>
      simp only [clientRsrcAccess, type] at done ⊢
      exact requestOk_observed observer done
  | mrRoot =>
      simp only [clientRsrcAccess, type, observer.root] at done ⊢
      exact requestOk_observed observer done
  | mrLocal =>
      simp only [clientRsrcAccess, type] at done ⊢
      split at done
      · cases done
      · cases done
        exact (observer.access _ mode).status s

theorem clientRsrcTruncate_observed {size : Int64}
    (done : clientRsrcTruncate conf os.toOs xchg rsrc size s = .ok (retv, s')) :
    Observed view (seen rsrc.mrType) s s' (clientRsrcTruncate conf os'.toOs xchg' rsrc size (view s))
      (retv, view s') := by
  cases type : rsrc.mrType with
  | mrNetwork =>
      simp only [clientRsrcTruncate, type] at done ⊢
      exact requestOk_observed observer done
  | mrRoot =>
      simp only [clientRsrcTruncate, type, observer.root] at done ⊢
      exact requestOk_observed observer done
  | mrLocal =>
      simp only [clientRsrcTruncate, type] at done ⊢
      split_ifs at done ⊢
      · cases done
        exact (observer.ftruncate rsrc.mrFd size).status s
      · split at done
        · cases done
        · cases done
          exact (observer.truncate _ size).status s

theorem clientRsrcRename_observed {dst : ClientRsrc}
    (done : clientRsrcRename conf os.toOs xchg rsrc dst s = .ok (retv, s')) :
    Observed view (seen rsrc.mrType) s s' (clientRsrcRename conf os'.toOs xchg' rsrc dst (view s))
      (retv, view s') := by
  unfold clientRsrcRename at done ⊢
  split_ifs at done ⊢ with other
  · cases done
    exact observed_same rfl
  · rw [not_not.mp other]
    cases type : dst.mrType with
    | mrNetwork =>
        simp only [type] at done ⊢
        exact requestOk_observed observer done
    | mrRoot =>
        simp only [type, observer.root] at done ⊢
        exact requestOk_observed observer done
    | mrLocal =>
        simp only [type] at done ⊢
        split at done
        · cases done
        · split at done
          · cases done
          · cases done
            exact (observer.rename _ _).status s

omit observer in
theorem onLocalPath_observed {call : CStr → Sys σ Unit} {call' : CStr → Sys τ Unit}
    (sees : ∀ path, Sees view (seen .mrLocal) (call path) (call' path))
    (done : onLocalPath conf call rsrc s = .ok (retv, s')) :
    Observed view (seen rsrc.mrType) s s' (onLocalPath conf call' rsrc (view s)) (retv, view s') := by
  cases type : rsrc.mrType with
  | mrNetwork | mrRoot =>
      simp only [onLocalPath, type] at done ⊢
      cases done
      exact observed_same rfl
  | mrLocal =>
      simp only [onLocalPath, type] at done ⊢
      split at done
      · cases done
      · cases done
        exact (sees _).status s

theorem clientRsrcChmod_observed {mode : UInt32}
    (done : clientRsrcChmod conf os rsrc mode s = .ok (retv, s')) :
    Observed view (seen rsrc.mrType) s s' (clientRsrcChmod conf os' rsrc mode (view s))
      (retv, view s') := by
  unfold clientRsrcChmod at done ⊢
  split_ifs at done ⊢ with opened
  · cases done
    rw [opened.1]
    exact (observer.fchmod rsrc.mrFd mode).status s
  · exact onLocalPath_observed conf (fun path => observer.lchmod path mode) done

theorem clientRsrcRead_observed {size : UInt64} {offset : Int64} {bytes : List UInt8}
    (done : clientRsrcRead conf os.toOs xchg rsrc size offset s = .ok (retv, bytes, s')) :
    Observed view (seen rsrc.mrType) s s' (clientRsrcRead conf os'.toOs xchg' rsrc size offset (view s))
      (retv, bytes, view s') := by
  cases type : rsrc.mrType with
  | mrNetwork =>
      obtain ⟨outPkt, rest, made⟩ := clientRsrcRead_exchanging conf size offset type
      rw [made] at done ⊢
      obtain ⟨_, _, same, observed⟩ := exchanging_observed observer done
        fun (both : Int32 × List UInt8) t => (both.1, both.2, t)
      cases same
      exact observed
  | mrRoot =>
      simp only [clientRsrcRead, type] at done ⊢
      cases done
      exact observed_same rfl
  | mrLocal =>
      simp only [clientRsrcRead, type] at done ⊢
      have sees := observer.pread rsrc.mrFd size.toNat offset
      cases called : os.pread rsrc.mrFd size.toNat offset s with
      | mk result files =>
          rw [called] at done
          have kept : s' = (os.pread rsrc.mrFd size.toNat offset s).2 := by
            rw [called]
            cases result <;> cases done <;> rfl
          rw [kept]
          refine sees.after fun again => ?_
          rw [again, called]
          cases result <;> cases done <;> rfl

theorem clientRsrcWrite_observed {malloc : Nat → Bool} {junk : Packet} {buf : List UInt8}
    {offset : Int64}
    (done : clientRsrcWrite conf os.toOs xchg malloc junk rsrc buf offset s = .ok (retv, s')) :
    Observed view (seen rsrc.mrType) s s'
      (clientRsrcWrite conf os'.toOs xchg' malloc junk rsrc buf offset (view s)) (retv, view s') := by
  cases type : rsrc.mrType with
  | mrNetwork =>
      rcases clientRsrcWrite_exchanging conf malloc junk buf offset type with
        ⟨outPkt, rest, made⟩ | ⟨result, made⟩
      · rw [made] at done ⊢
        obtain ⟨_, _, same, observed⟩ := exchanging_observed observer done Prod.mk
        cases same
        exact observed
      · rw [made] at done ⊢
        cases result <;> cases done
        exact observed_same rfl
  | mrRoot =>
      simp only [clientRsrcWrite, type] at done ⊢
      cases done
      exact observed_same rfl
  | mrLocal =>
      simp only [clientRsrcWrite, type] at done ⊢
      have sees := observer.pwrite rsrc.mrFd buf offset
      cases called : os.pwrite rsrc.mrFd buf offset s with
      | mk result files =>
          rw [called] at done
          have kept : s' = (os.pwrite rsrc.mrFd buf offset s).2 := by
            rw [called]
            cases result <;> cases done <;> rfl
          rw [kept]
          refine sees.after fun again => ?_
          rw [again, called]
          cases result <;> cases done <;> rfl

theorem clientRsrcReaddir_observed {full : Nat → Bool} {filled : List (Option CStr × Int32)}
    (done : clientRsrcReaddir conf os.toOs xchg full rsrc s = .ok (retv, filled, rsrc', s')) :
    Observed view (seen rsrc.mrType) s s' (clientRsrcReaddir conf os'.toOs xchg' full rsrc (view s))
      (retv, filled, rsrc', view s') := by
  cases type : rsrc.mrType with
  | mrNetwork | mrRoot =>
      obtain ⟨rest, made⟩ := clientRsrcReaddir_exchanging conf full (show rsrc.mrType ≠ .mrLocal by
        rw [type]; decide)
      rw [made] at done ⊢
      obtain ⟨_, _, same, observed⟩ := exchanging_observed observer done
        fun (both : Int32 × List (Option CStr × Int32)) t => (both.1, both.2, rsrc, t)
      cases same
      first
        | exact observed
        | rw [observer.root]
          exact observed
  | mrLocal =>
      simp only [clientRsrcReaddir, type] at done ⊢
      have sees := observer.fdopendir rsrc.mrFd
      cases called : os.fdopendir rsrc.mrFd s with
      | mk result files =>
          rw [called] at done
          have kept : s' = (os.fdopendir rsrc.mrFd s).2 := by
            rw [called]
            cases result with
            | error errno =>
                cases done
                rfl
            | ok entries =>
                simp only at done
                split at done <;> cases done
                rfl
          rw [kept]
          refine sees.after fun again => ?_
          rw [again, called]
          cases result with
          | error errno =>
              cases done
              rfl
          | ok entries =>
              simp only at done ⊢
              split at done <;> cases done
              rfl

omit observer in
theorem clientRsrcOpen_own {flags mode : Int32} (shut : rsrc.mrFd = -1)
    (done : clientRsrcOpen conf os.toOs xchg rsrc flags mode s = .ok (retv, rsrc', s')) :
    rsrc'.mrType = rsrc.mrType ∧ (0 ≤ rsrc'.mrFd → rsrc'.mrType = .mrLocal) := by
  have same : rsrc.mrType = rsrc.mrType ∧ (0 ≤ rsrc.mrFd → rsrc.mrType = .mrLocal) :=
    ⟨rfl, fun no => absurd no (by rw [shut]; decide)⟩
  cases type : rsrc.mrType with
  | mrNetwork =>
      simp only [clientRsrcOpen, type] at done
      split at done <;> cases done
      exact type ▸ same
  | mrRoot =>
      simp only [clientRsrcOpen, type] at done
      cases done
      exact type ▸ same
  | mrLocal =>
      simp only [clientRsrcOpen, type] at done
      split at done
      · cases done
      · split at done <;> cases done
        · exact ⟨type, fun _ => type⟩
        · exact ⟨rfl, fun _ => rfl⟩

omit observer in
theorem clientRsrcReaddir_own {full : Nat → Bool} {filled : List (Option CStr × Int32)}
    (own : 0 ≤ rsrc.mrFd → rsrc.mrType = .mrLocal)
    (done : clientRsrcReaddir conf os.toOs xchg full rsrc s = .ok (retv, filled, rsrc', s')) :
    rsrc'.mrType = rsrc.mrType ∧ (0 ≤ rsrc'.mrFd → rsrc'.mrType = .mrLocal) := by
  cases type : rsrc.mrType with
  | mrNetwork | mrRoot =>
      obtain ⟨rest, made⟩ := clientRsrcReaddir_exchanging conf full (show rsrc.mrType ≠ .mrLocal by
        rw [type]; decide)
      rw [made] at done
      obtain ⟨_, _, _, _, _, same⟩ := exchanging_ok done
      cases same
      exact ⟨type, own⟩
  | mrLocal =>
      simp only [clientRsrcReaddir, type] at done
      split at done
      · cases done
        exact ⟨type, own⟩
      · split at done <;> cases done
        exact ⟨rfl, fun _ => rfl⟩

omit observer in
theorem clientRsrcClose_none (none_ : ¬ 0 ≤ rsrc.mrFd) (s : σ) : clientRsrcClose os rsrc s = (0, s) := by
  rw [clientRsrcClose, clientRsrcDelete, if_neg none_, if_neg none_]

/-- Only what is the client's own is to be closed. -/
theorem closed_observed (own : 0 ≤ rsrc.mrFd → rsrc.mrType = .mrLocal) (s : σ) :
    Observed view (seen rsrc.mrType) s (clientRsrcClose os rsrc s).2
      (.ok (clientRsrcClose os' rsrc (view s)) : Except Trap (Int32 × τ))
      ((clientRsrcClose os rsrc s).1, view (clientRsrcClose os rsrc s).2) := by
  by_cases holds : 0 ≤ rsrc.mrFd
  · rw [own holds]
    exact clientRsrcClose_observed observer rsrc s
  · rw [clientRsrcClose_none holds, clientRsrcClose_none holds]
    exact observed_same rfl

end Resources

/-! ## Calls -/

/-- What the calls on a path are about, if they are about something. -/
def pathType (conf : ClientConf) (path : CStr) : ClientRsrcType :=
  match clientRsrcInit conf path with
  | .error _ => .mrLocal
  | .ok rsrc => rsrc.mrType

def handleType (handles : List (Nat × ClientRsrc)) (fh : Nat) : ClientRsrcType :=
  match fileHandle handles fh with
  | .error _ => .mrLocal
  | .ok rsrc => rsrc.mrType

def fileType (conf : ClientConf) (handles : List (Nat × ClientRsrc)) (path : CStr) :
    Option Nat → ClientRsrcType
  | none => pathType conf path
  | some fh => handleType handles fh

def FuseCall.type (conf : ClientConf) (handles : List (Nat × ClientRsrc)) : FuseCall → ClientRsrcType
  | .getattr _ path fi | .chmod path _ fi | .truncate path _ fi | .read path _ _ fi
  | .write _ _ path _ _ fi => fileType conf handles path fi
  | .access path _ | .readlink _ path _ | .mkdir path _ | .symlink _ path | .unlink path | .rmdir path
  | .rename path _ | .openFile _ path _ | .create _ path _ _ | .readdir _ path => pathType conf path
  | .link _ _ | .statfs _ => .mrLocal
  | .release _ fh => handleType handles fh

section Calls
variable {σ τ : Type}

def Mounted.seen (view : σ → τ) (seen : ClientRsrcType → Bool) (mounted : Mounted σ) : Mounted τ :=
  ⟨view mounted.files, mounted.handles.filter fun handle => seen handle.2.mrType⟩

def Mounted.Own (mounted : Mounted σ) : Prop :=
  ∀ handle ∈ mounted.handles, 0 ≤ handle.2.mrFd → handle.2.mrType = .mrLocal

variable {view : σ → τ} {seen : ClientRsrcType → Bool} {mounted mounted' : Mounted σ}

theorem pathType_made {conf : ClientConf} {path : CStr} {rsrc : ClientRsrc}
    (made : clientRsrcInit conf path = .ok rsrc) : pathType conf path = rsrc.mrType := by
  rw [pathType, made]

theorem handleType_found {handles : List (Nat × ClientRsrc)} {fh : Nat} {rsrc : ClientRsrc}
    (found : fileHandle handles fh = .ok rsrc) : handleType handles fh = rsrc.mrType := by
  rw [handleType, found]

theorem fileHandle_member {handles : List (Nat × ClientRsrc)} {fh : Nat} {rsrc : ClientRsrc}
    (found : fileHandle handles fh = .ok rsrc) : (fh, rsrc) ∈ handles := by
  obtain ⟨earlier, later, all, _⟩ := fileHandle_ok found
  rw [all]
  simp

/-- An open file that is seen is found where the others are not there. -/
theorem fileHandle_seen {handles : List (Nat × ClientRsrc)} {fh : Nat} {rsrc : ClientRsrc}
    (found : fileHandle handles fh = .ok rsrc) (watched : seen rsrc.mrType = true) :
    fileHandle (handles.filter fun handle => seen handle.2.mrType) fh = .ok rsrc := by
  obtain ⟨earlier, later, all, others⟩ := fileHandle_ok found
  have looked : (handles.filter fun handle => seen handle.2.mrType).lookup fh = some rsrc := by
    rw [all, List.filter_append, List.filter_cons, if_pos watched]
    refine List.lookup_eq_some_iff.mpr ⟨_, _, rfl, fun handle member => bne_iff_ne.mpr ?_⟩
    exact (others handle (List.mem_of_mem_filter member)).symm
  rw [fileHandle, looked]

theorem Noticed.ofFiles {γ : Type} {watched : Bool} {s' : σ} {fact : Prop}
    (noticed : Noticed view watched mounted.files s' fact) {result' : Except Trap γ} {out : γ}
    (passes : fact → result' = .ok out) :
    Observed (Mounted.seen view seen) watched mounted { mounted with files := s' } result' out := by
  unfold Noticed at noticed
  unfold Observed
  split_ifs at noticed ⊢
  · exact passes noticed
  · simp only [Mounted.seen, noticed]

theorem Observed.ofFiles {β γ : Type} {watched : Bool} {s' : σ} {result : Except Trap β} {answer : β}
    (first : Observed view watched mounted.files s' result answer) {result' : Except Trap γ} {out : γ}
    (passes : result = .ok answer → result' = .ok out) :
    Observed (Mounted.seen view seen) watched mounted { mounted with files := s' } result' out :=
  Noticed.ofFiles first passes

variable {os : MountOs σ} {xchg : Xchg σ} {os' : MountOs τ} {xchg' : Xchg τ}
variable (observer : Observer view seen os xchg os' xchg') (conf : ClientConf)
variable {path : CStr} {retv : Int32}
include observer

omit observer in
theorem onTemporary_observed {op : ClientRsrc → σ → Except Trap (Int32 × σ)}
    {op' : ClientRsrc → τ → Except Trap (Int32 × τ)}
    (observed : ∀ {tmp s retv s'}, op tmp s = .ok (retv, s') →
      Observed view (seen tmp.mrType) s s' (op' tmp (view s)) (retv, view s'))
    (done : onTemporary conf os path op mounted = .ok (retv, mounted')) :
    Observed (Mounted.seen view seen) (seen (pathType conf path)) mounted mounted'
      (onTemporary conf os' path op' (mounted.seen view seen)) (retv, mounted'.seen view seen) := by
  unfold onTemporary at done
  split at done
  · rename_i failed
    cases done
    exact observed_same (by rw [onTemporary, failed])
  · rename_i tmp made
    have none_ : ¬ 0 ≤ tmp.mrFd := by
      rw [clientRsrcInit_fd made]
      decide
    split at done
    · cases done
    · rename_i retv' s performed
      rw [clientRsrcClose_none none_] at done
      cases done
      rw [pathType_made made]
      refine (observed performed).ofFiles fun again => ?_
      simp only [onTemporary, made]
      have again' : op' tmp (mounted.seen view seen).files = .ok (retv', view s) := again
      simp only [again', clientRsrcClose_none none_]
      rfl

omit observer in
theorem Observed.ofHandle {β γ : Type} {fh : Nat} {rsrc : ClientRsrc}
    (found : fileHandle mounted.handles fh = .ok rsrc) {s' : σ} {result : Except Trap β} {answer : β}
    (first : Observed view (seen rsrc.mrType) mounted.files s' result answer)
    {result' : Except Trap γ} {out : γ}
    (passes : fileHandle (mounted.seen view seen).handles fh = .ok rsrc → result = .ok answer →
      result' = .ok out) :
    Observed (Mounted.seen view seen) (seen (handleType mounted.handles fh)) mounted
      { mounted with files := s' } result' out := by
  rw [handleType_found found]
  unfold Observed at first ⊢
  split_ifs at first ⊢ with watched
  · exact passes (fileHandle_seen found watched) first
  · simp only [Mounted.seen, first]

omit observer in
theorem onHandle_observed {fh : Nat} {op : ClientRsrc → σ → Except Trap (Int32 × σ)}
    {op' : ClientRsrc → τ → Except Trap (Int32 × τ)}
    (observed : ∀ {rsrc s retv s'}, op rsrc s = .ok (retv, s') →
      Observed view (seen rsrc.mrType) s s' (op' rsrc (view s)) (retv, view s'))
    (done : onHandle fh op mounted = .ok (retv, mounted')) :
    Observed (Mounted.seen view seen) (seen (handleType mounted.handles fh)) mounted mounted'
      (onHandle fh op' (mounted.seen view seen)) (retv, mounted'.seen view seen) := by
  unfold onHandle at done
  split at done
  · cases done
  · rename_i rsrc found
    split at done
    · cases done
    · rename_i retv' s performed
      cases done
      refine (observed performed).ofHandle found fun found' again => ?_
      have again' : op' rsrc (mounted.seen view seen).files = .ok (retv, view s) := again
      simp only [onHandle, found', again']
      rfl

omit observer in
theorem made_own {rsrc : ClientRsrc} (made : clientRsrcInit conf path = .ok rsrc) : ¬ 0 ≤ rsrc.mrFd := by
  rw [clientRsrcInit_fd made]
  decide

theorem middfsGetattr_observed {junk : Packet} {fi : Option Nat} {stbuf : Option Statbuf}
    (done : middfsGetattr conf os xchg junk path fi mounted = .ok (retv, stbuf, mounted')) :
    Observed (Mounted.seen view seen) (seen (fileType conf mounted.handles path fi)) mounted mounted'
      (middfsGetattr conf os' xchg' junk path fi (mounted.seen view seen))
      (retv, stbuf, mounted'.seen view seen) := by
  cases fi with
  | none =>
      simp only [middfsGetattr] at done ⊢
      split at done
      · cases done
        exact observed_same rfl
      · rename_i tmp made
        split at done
        · cases done
        · rename_i retv' st s performed
          rw [clientRsrcClose_none (made_own conf made)] at done
          cases done
          rw [fileType, pathType_made made]
          refine (clientRsrcLstat_observed observer conf performed).ofFiles fun again => ?_
          have again' : clientRsrcLstat conf os'.toOs xchg' junk tmp (mounted.seen view seen).files =
            .ok (retv', st, view s) := again
          simp only [again', clientRsrcClose_none (made_own conf made)]
          rfl
  | some fh =>
      simp only [middfsGetattr] at done ⊢
      split at done
      · cases done
      · rename_i rsrc found
        split at done
        · cases done
        · rename_i retv' st s performed
          cases done
          refine (clientRsrcLstat_observed observer conf performed).ofHandle found fun found' again => ?_
          have again' : clientRsrcLstat conf os'.toOs xchg' junk rsrc (mounted.seen view seen).files =
            .ok (retv, st, view s) := again
          simp only [found', again']
          rfl

theorem middfsReaddir_observed {full : Nat → Bool} {filled : List (Option CStr × Int32)}
    (done : middfsReaddir conf os xchg full path mounted = .ok (retv, filled, mounted')) :
    Observed (Mounted.seen view seen) (seen (pathType conf path)) mounted mounted'
      (middfsReaddir conf os' xchg' full path (mounted.seen view seen))
      (retv, filled, mounted'.seen view seen) := by
  unfold middfsReaddir at done ⊢
  split at done
  · cases done
    exact observed_same rfl
  · rename_i rsrc made
    split at done
    · cases done
    · rename_i retv' rsrc' s opened
      have opens := clientRsrcOpen_observed observer conf opened
      obtain ⟨type, own⟩ := clientRsrcOpen_own conf (clientRsrcInit_fd made) opened
      rw [pathType_made made]
      split_ifs at done with failed
      · have closes := closed_observed observer own s
        rw [type] at closes
        generalize clientRsrcClose os rsrc' s = closed at done closes
        cases done
        exact (opens.and closes).ofFiles fun all => by
          obtain ⟨opened, shut⟩ := all
          simp only [Mounted.seen, opened, if_pos failed, Except.ok.inj shut]
      · split at done
        · cases done
        · rename_i retv'' filled' rsrc'' s' listed
          have lists := clientRsrcReaddir_observed observer conf listed
          obtain ⟨type', own'⟩ := clientRsrcReaddir_own conf own listed
          have closes := closed_observed observer own' s'
          rw [type', type] at closes
          rw [type] at lists
          generalize clientRsrcClose os rsrc'' s' = closed at done closes
          cases done
          exact (opens.and (lists.and closes)).ofFiles fun all => by
            obtain ⟨opened, listed, shut⟩ := all
            simp only [Mounted.seen, opened, if_neg failed, listed, Except.ok.inj shut]

theorem openHandle_observed {address fh : Option Nat} {flags mode : Int32}
    (done : openHandle conf os xchg address path flags mode mounted = .ok (retv, fh, mounted')) :
    Observed (Mounted.seen view seen) (seen (pathType conf path)) mounted mounted'
      (openHandle conf os' xchg' address path flags mode (mounted.seen view seen))
      (retv, fh, mounted'.seen view seen) := by
  unfold openHandle at done ⊢
  split at done
  · cases done
    exact observed_same rfl
  · split at done
    · cases done
      exact observed_same rfl
    · rename_i rsrc made
      split at done
      · cases done
      · rename_i retv' rsrc' s opened
        have opens := clientRsrcOpen_observed observer conf opened
        obtain ⟨type, own⟩ := clientRsrcOpen_own conf (clientRsrcInit_fd made) opened
        rw [pathType_made made]
        split_ifs at done with failed
        · have closes := closed_observed observer own s
          rw [type] at closes
          generalize clientRsrcClose os rsrc' s = closed at done closes
          cases done
          exact (opens.and closes).ofFiles fun all => by
            obtain ⟨opened, shut⟩ := all
            simp only [Mounted.seen, opened, if_pos failed, Except.ok.inj shut]
        · cases done
          by_cases watched : seen rsrc.mrType = true
          · rw [Observed, if_pos watched] at opens ⊢
            simp only [Mounted.seen, opens, if_neg failed, List.filter_cons, type, watched, if_true]
          · rw [Observed, if_neg watched] at opens ⊢
            simp only [Mounted.seen, opens, List.filter_cons, type, if_neg watched]

theorem middfsOpen_observed {address fh : Option Nat} {flags : Int32}
    (done : middfsOpen conf os xchg address path flags mounted = .ok (retv, fh, mounted')) :
    Observed (Mounted.seen view seen) (seen (pathType conf path)) mounted mounted'
      (middfsOpen conf os' xchg' address path flags (mounted.seen view seen))
      (retv, fh, mounted'.seen view seen) := by
  unfold middfsOpen at done ⊢
  split_ifs at done ⊢
  split at done
  · cases done
  · rename_i opened
    cases done
    exact (openHandle_observed observer conf opened).after fun again => by rw [again]

theorem middfsRead_observed {size : UInt64} {offset : Int64} {fi : Option Nat} {bytes : List UInt8}
    (done : middfsRead conf os xchg path size offset fi mounted = .ok (retv, bytes, mounted')) :
    Observed (Mounted.seen view seen) (seen (fileType conf mounted.handles path fi)) mounted mounted'
      (middfsRead conf os' xchg' path size offset fi (mounted.seen view seen))
      (retv, bytes, mounted'.seen view seen) := by
  cases fi with
  | none =>
      simp only [middfsRead] at done ⊢
      split at done
      · cases done
        exact observed_same rfl
      · rename_i tmp made
        split at done
        · cases done
        · rename_i retv' tmp' s opened
          have opens := clientRsrcOpen_observed observer conf opened
          obtain ⟨type, own⟩ := clientRsrcOpen_own conf (clientRsrcInit_fd made) opened
          rw [fileType, pathType_made made]
          split_ifs at done with failed
          · cases done
            exact opens.ofFiles fun again => by simp only [Mounted.seen, again, if_pos failed]
          · split at done
            · cases done
            · rename_i retv'' bytes' s' performed
              have reads := clientRsrcRead_observed observer conf performed
              have closes := closed_observed observer own s'
              rw [type] at closes reads
              generalize clientRsrcClose os tmp' s' = closed at done closes
              cases done
              exact (opens.and (reads.and closes)).ofFiles fun all => by
                obtain ⟨opened, read, shut⟩ := all
                simp only [Mounted.seen, opened, if_neg failed, read, Except.ok.inj shut]
  | some fh =>
      simp only [middfsRead] at done ⊢
      split at done
      · cases done
      · rename_i rsrc found
        split at done
        · cases done
        · rename_i retv' bytes' s performed
          cases done
          refine (clientRsrcRead_observed observer conf performed).ofHandle found fun found' again => ?_
          have again' : clientRsrcRead conf os'.toOs xchg' rsrc size offset (mounted.seen view seen).files =
            .ok (retv, bytes, view s) := again
          simp only [found', again']
          rfl

theorem middfsWrite_observed {malloc : Nat → Bool} {junk : Packet} {buf : List UInt8} {offset : Int64}
    {fi : Option Nat}
    (done : middfsWrite conf os xchg malloc junk path buf offset fi mounted = .ok (retv, mounted')) :
    Observed (Mounted.seen view seen) (seen (fileType conf mounted.handles path fi)) mounted mounted'
      (middfsWrite conf os' xchg' malloc junk path buf offset fi (mounted.seen view seen))
      (retv, mounted'.seen view seen) := by
  cases fi with
  | none =>
      simp only [middfsWrite] at done ⊢
      split at done
      · cases done
        exact observed_same rfl
      · rename_i tmp made
        split at done
        · cases done
        · rename_i retv' tmp' s opened
          have opens := clientRsrcOpen_observed observer conf opened
          rw [fileType, pathType_made made]
          split_ifs at done with failed
          cases done
          exact opens.ofFiles fun again => by simp only [Mounted.seen, again, if_pos failed]
  | some fh =>
      simp only [middfsWrite] at done ⊢
      exact onHandle_observed (fun performed => clientRsrcWrite_observed observer conf performed) done

theorem middfsRelease_observed {fh : Nat} (own : mounted.Own)
    (done : middfsRelease os fh mounted = .ok (retv, mounted')) :
    Observed (Mounted.seen view seen) (seen (handleType mounted.handles fh)) mounted mounted'
      (middfsRelease os' fh (mounted.seen view seen)) (retv, mounted'.seen view seen) := by
  unfold middfsRelease at done ⊢
  split at done
  · cases done
  · rename_i rsrc found
    cases done
    obtain ⟨earlier, later, all, others⟩ := fileHandle_ok found
    have closes := closed_observed observer (own _ (fileHandle_member found)) mounted.files
    rw [handleType_found found]
    generalize clientRsrcClose os rsrc mounted.files = closed at closes
    by_cases watched : seen rsrc.mrType = true
    · rw [Observed, if_pos watched] at closes ⊢
      have found' := fileHandle_seen found watched
      have rest : (mounted.handles.filter fun handle => seen handle.2.mrType).eraseP (·.1 == fh) =
          (mounted.handles.eraseP (·.1 == fh)).filter fun handle => seen handle.2.mrType := by
        rw [all, erased_handle others, List.filter_append, List.filter_append, List.filter_cons,
          if_pos watched, erased_handle]
        exact fun handle member => others handle (List.mem_of_mem_filter member)
      simp only [Mounted.seen, found', rest, Except.ok.inj closes]
    · rw [Observed, if_neg watched] at closes ⊢
      have rest : mounted.handles.filter (fun handle => seen handle.2.mrType) =
          (mounted.handles.eraseP (·.1 == fh)).filter fun handle => seen handle.2.mrType := by
        rw [all, erased_handle others, List.filter_append, List.filter_append, List.filter_cons,
          if_neg watched]
      simp only [Mounted.seen, closes, rest]

theorem middfsReadlink_observed {errno : Option Errno} {size : Nat} {stores : List (Nat × UInt8)}
    (done : middfsReadlink conf (os.links mounted.files) errno (.ok ()) path size = .ok (retv, stores)) :
    Observed (Mounted.seen view seen) (seen (pathType conf path)) mounted mounted
      (middfsReadlink conf (os'.links (mounted.seen view seen).files) errno (.ok ()) path size)
      (retv, stores) := by
  by_cases watched : seen (pathType conf path) = true
  · rw [Observed, if_pos watched, ← done]
    unfold middfsReadlink pathType at *
    cases made : clientRsrcInit conf path with
    | error retv => rfl
    | ok tmp =>
        simp only [made] at watched ⊢
        cases type : tmp.mrType with
        | mrNetwork | mrRoot => simp only [clientRsrcReadlink, type]
        | mrLocal =>
            rw [type] at watched
            rw [Mounted.seen, observer.links watched]
  · rw [Observed, if_neg watched]

theorem middfsSymlink_observed {target : CStr}
    (done : middfsSymlink conf os target path mounted = .ok (retv, mounted')) :
    Observed (Mounted.seen view seen) (seen (pathType conf path)) mounted mounted'
      (middfsSymlink conf os' target path (mounted.seen view seen)) (retv, mounted'.seen view seen) := by
  unfold middfsSymlink at done ⊢
  split at done
  · cases done
    exact observed_same rfl
  · rename_i tmp made
    split at done
    · cases done
    · rename_i retv' s linked
      rw [clientRsrcClose_none (made_own conf made)] at done
      cases done
      rw [pathType_made made]
      refine (onLocalPath_observed conf (fun path => observer.symlink target path) linked).ofFiles
        fun again => ?_
      have again' : clientRsrcSymlink conf os' tmp target (mounted.seen view seen).files =
        .ok (retv', view s) := again
      simp only [again', clientRsrcClose_none (made_own conf made)]
      rfl

theorem middfsRename_observed {dst : CStr} {s' : σ}
    (done : middfsRename conf os.toOs xchg path dst mounted.files = .ok (retv, s')) :
    Observed view (seen (pathType conf path)) mounted.files s'
      (middfsRename conf os'.toOs xchg' path dst (view mounted.files)) (retv, view s') := by
  unfold middfsRename at done ⊢
  split at done
  · cases done
    exact observed_same rfl
  · rename_i tmp made
    split at done
    · cases done
    · rw [pathType_made made]
      exact clientRsrcRename_observed observer conf done

theorem middfsChmod_observed {mode : UInt32} {fi : Option Nat}
    (done : middfsChmod conf os path mode fi mounted = .ok (retv, mounted')) :
    Observed (Mounted.seen view seen) (seen (fileType conf mounted.handles path fi)) mounted mounted'
      (middfsChmod conf os' path mode fi (mounted.seen view seen)) (retv, mounted'.seen view seen) := by
  cases fi with
  | none =>
      simp only [middfsChmod] at done ⊢
      split at done
      · cases done
        exact observed_same rfl
      · rename_i tmp made
        split at done
        · cases done
        · rename_i retv' s changed
          rw [clientRsrcClose_none (made_own conf made)] at done
          cases done
          rw [fileType, pathType_made made]
          refine (clientRsrcChmod_observed observer conf changed).ofFiles fun again => ?_
          have again' : clientRsrcChmod conf os' tmp mode (mounted.seen view seen).files =
            .ok (retv, view s) := again
          simp only [again', clientRsrcClose_none (made_own conf made)]
          rfl
  | some fh =>
      simp only [middfsChmod] at done ⊢
      exact onHandle_observed (clientRsrcChmod_observed observer conf) done

/-- The step lemma. -/
theorem middfsOper_observed (own : mounted.Own) {call : FuseCall} {reply : FuseReply}
    (done : middfsOper conf os xchg mounted call = .ok (reply, mounted')) :
    Observed (Mounted.seen view seen) (seen (call.type conf mounted.handles)) mounted mounted'
      (middfsOper conf os' xchg' (mounted.seen view seen) call) (reply, mounted'.seen view seen) := by
  have plain : ∀ {watched : Bool} {retv : Int32} {result : Except Trap (Int32 × Mounted τ)},
      Observed (Mounted.seen view seen) watched mounted mounted' result (retv, mounted'.seen view seen) →
      Observed (Mounted.seen view seen) watched mounted mounted' (plainReply result)
        (⟨retv, .nothing⟩, mounted'.seen view seen) :=
    fun first => first.after fun again => by rw [again]; rfl
  have data : ∀ {β : Type} {kind : β → FuseData} {watched : Bool} {retv : Int32} {value : β}
      {result : Except Trap (Int32 × β × Mounted τ)},
      Observed (Mounted.seen view seen) watched mounted mounted' result
        (retv, value, mounted'.seen view seen) →
      Observed (Mounted.seen view seen) watched mounted mounted' (dataReply kind result)
        (⟨retv, kind value⟩, mounted'.seen view seen) :=
    fun first => first.after fun again => by rw [again]; rfl
  cases call with
  | getattr junk path fi =>
      obtain ⟨retv, stbuf, performed, rfl⟩ := dataReply_ok done
      exact data (middfsGetattr_observed observer conf performed)
  | access path mode =>
      obtain ⟨retv, performed, rfl⟩ := plainReply_ok done
      exact plain (onTemporary_observed conf (clientRsrcAccess_observed observer conf) performed)
  | readlink errno path size =>
      simp only [middfsOper] at done ⊢
      cases performed : middfsReadlink conf (os.links mounted.files) errno (.ok ()) path size with
      | error trap =>
          rw [performed] at done
          cases done
      | ok both =>
          rw [performed] at done
          cases done
          exact (middfsReadlink_observed observer conf performed).after fun again => by
            rw [again]
            rfl
  | mkdir path mode =>
      obtain ⟨retv, performed, rfl⟩ := plainReply_ok done
      exact plain (onTemporary_observed conf
        (onLocalPath_observed conf fun path => observer.mkdir path mode) performed)
  | symlink target src =>
      obtain ⟨retv, performed, rfl⟩ := plainReply_ok done
      exact plain (middfsSymlink_observed observer conf performed)
  | unlink path =>
      obtain ⟨retv, performed, rfl⟩ := plainReply_ok done
      exact plain (onTemporary_observed conf (onLocalPath_observed conf observer.unlink) performed)
  | rmdir path =>
      obtain ⟨retv, performed, rfl⟩ := plainReply_ok done
      exact plain (onTemporary_observed conf (onLocalPath_observed conf observer.rmdir) performed)
  | rename src dst =>
      simp only [middfsOper] at done ⊢
      cases performed : middfsRename conf os.toOs xchg src dst mounted.files with
      | error trap =>
          rw [performed] at done
          cases done
      | ok both =>
          rw [performed] at done
          cases done
          exact (middfsRename_observed observer conf performed).ofFiles fun again => by
            have again' : middfsRename conf os'.toOs xchg' src dst (mounted.seen view seen).files =
              .ok (both.1, view both.2) := again
            rw [again']
            rfl
  | link src dst =>
      obtain ⟨_, performed, _⟩ := plainReply_ok done
      cases performed
  | chmod path mode fi =>
      obtain ⟨retv, performed, rfl⟩ := plainReply_ok done
      exact plain (middfsChmod_observed observer conf performed)
  | truncate path size fi =>
      obtain ⟨retv, performed, rfl⟩ := plainReply_ok done
      refine plain ?_
      cases fi with
      | none => exact onTemporary_observed conf (clientRsrcTruncate_observed observer conf) performed
      | some fh => exact onHandle_observed (clientRsrcTruncate_observed observer conf) performed
  | openFile address path flags =>
      obtain ⟨retv, fh, performed, rfl⟩ := dataReply_ok done
      exact data (middfsOpen_observed observer conf performed)
  | create address path mode flags =>
      obtain ⟨retv, fh, performed, rfl⟩ := dataReply_ok done
      exact data (openHandle_observed observer conf performed)
  | read path size offset fi =>
      obtain ⟨retv, bytes, performed, rfl⟩ := dataReply_ok done
      exact data (middfsRead_observed observer conf performed)
  | write malloc junk path buf offset fi =>
      obtain ⟨retv, performed, rfl⟩ := plainReply_ok done
      exact plain (middfsWrite_observed observer conf performed)
  | statfs path =>
      obtain ⟨retv, performed, rfl⟩ := plainReply_ok done
      refine plain ?_
      cases performed
      exact ((observer.statvfs path).status mounted.files).ofFiles fun again => by
        simp only [middfsStatfs, Mounted.seen] at again ⊢
        rw [Except.ok.injEq, Prod.mk.injEq] at again
        rw [again.1, again.2]
  | release path fh =>
      obtain ⟨retv, performed, rfl⟩ := plainReply_ok done
      exact plain (middfsRelease_observed observer own performed)
  | readdir full path =>
      obtain ⟨retv, filled, performed, rfl⟩ := dataReply_ok done
      exact data (middfsReaddir_observed observer conf performed)

end Calls

/-! ## Open files -/

/-- The path that a call is made with, which is not looked at if there is a file
handle. -/
def FuseCall.path : FuseCall → CStr
  | .getattr _ path _ | .access path _ | .readlink _ path _ | .mkdir path _ | .symlink _ path | .unlink path
  | .rmdir path | .rename path _ | .link path _ | .chmod path _ _ | .truncate path _ _ | .openFile _ path _
  | .create _ path _ _ | .read path _ _ _ | .write _ _ path _ _ _ | .statfs path | .release path _
  | .readdir _ path => path

inductive Reopened (conf : ClientConf) (path : CStr) (handles : List (Nat × ClientRsrc)) :
    List (Nat × ClientRsrc) → Prop where
  | kept : Reopened conf path handles handles
  | opened (address : Nat) (rsrc : ClientRsrc) : (0 ≤ rsrc.mrFd → rsrc.mrType = .mrLocal) →
      (rsrc.mrType = .mrNetwork → clientRsrcInit conf path = .ok rsrc) →
      Reopened conf path handles ((address, rsrc) :: handles)
  | released (fh : Nat) : Reopened conf path handles (handles.eraseP (·.1 == fh))

section Reopened
variable {σ : Type} {conf : ClientConf} {os : MountOs σ} {xchg : Xchg σ} {mounted mounted' : Mounted σ}
variable {path : CStr} {retv : Int32}

/-- Opening a file of somebody else leaves the resource as it is. -/
theorem clientRsrcOpen_away {rsrc rsrc' : ClientRsrc} {flags mode : Int32} {s s' : σ}
    (done : clientRsrcOpen conf os.toOs xchg rsrc flags mode s = .ok (retv, rsrc', s'))
    (away : rsrc'.mrType = .mrNetwork) : rsrc' = rsrc := by
  cases type : rsrc.mrType with
  | mrNetwork =>
      simp only [clientRsrcOpen, type] at done
      split at done <;> cases done
      rfl
  | mrRoot =>
      simp only [clientRsrcOpen, type] at done
      cases done
      rfl
  | mrLocal =>
      simp only [clientRsrcOpen, type] at done
      split at done
      · cases done
      · split at done <;> cases done
        · rfl
        · cases away

theorem onTemporary_reopened {op : ClientRsrc → σ → Except Trap (Int32 × σ)}
    (done : onTemporary conf os path op mounted = .ok (retv, mounted')) :
    Reopened conf path mounted.handles mounted'.handles := by
  unfold onTemporary at done
  split at done
  · cases done
    exact .kept
  · split at done <;> cases done
    exact .kept

theorem onHandle_reopened {fh : Nat} {op : ClientRsrc → σ → Except Trap (Int32 × σ)}
    (done : onHandle fh op mounted = .ok (retv, mounted')) :
    Reopened conf path mounted.handles mounted'.handles := by
  unfold onHandle at done
  split at done
  · cases done
  · split at done <;> cases done
    exact .kept

theorem openHandle_reopened {address fh : Option Nat} {flags mode : Int32}
    (done : openHandle conf os xchg address path flags mode mounted = .ok (retv, fh, mounted')) :
    Reopened conf path mounted.handles mounted'.handles := by
  unfold openHandle at done
  split at done
  · cases done
    exact .kept
  · split at done
    · cases done
      exact .kept
    · rename_i rsrc made
      split at done
      · cases done
      · rename_i retv' rsrc' s opened
        split_ifs at done <;> cases done
        · exact .kept
        · exact .opened _ rsrc' (clientRsrcOpen_own conf (clientRsrcInit_fd made) opened).2
            fun away => clientRsrcOpen_away opened away ▸ made

theorem middfsGetattr_reopened {junk : Packet} {fi : Option Nat} {stbuf : Option Statbuf}
    (done : middfsGetattr conf os xchg junk path fi mounted = .ok (retv, stbuf, mounted')) :
    Reopened conf path mounted.handles mounted'.handles := by
  cases fi with
  | none =>
      simp only [middfsGetattr] at done
      split at done
      · cases done
        exact .kept
      · split at done <;> cases done
        exact .kept
  | some fh =>
      simp only [middfsGetattr] at done
      split at done
      · cases done
      · split at done <;> cases done
        exact .kept

theorem middfsSymlink_reopened {target : CStr}
    (done : middfsSymlink conf os target path mounted = .ok (retv, mounted')) :
    Reopened conf path mounted.handles mounted'.handles := by
  unfold middfsSymlink at done
  split at done
  · cases done
    exact .kept
  · split at done <;> cases done
    exact .kept

theorem middfsChmod_reopened {mode : UInt32} {fi : Option Nat}
    (done : middfsChmod conf os path mode fi mounted = .ok (retv, mounted')) :
    Reopened conf path mounted.handles mounted'.handles := by
  cases fi with
  | none =>
      simp only [middfsChmod] at done
      split at done
      · cases done
        exact .kept
      · split at done <;> cases done
        exact .kept
  | some fh => exact onHandle_reopened done

theorem middfsOpen_reopened {address fh : Option Nat} {flags : Int32}
    (done : middfsOpen conf os xchg address path flags mounted = .ok (retv, fh, mounted')) :
    Reopened conf path mounted.handles mounted'.handles := by
  unfold middfsOpen at done
  split_ifs at done
  split at done
  · cases done
  · rename_i opened
    cases done
    exact openHandle_reopened opened

theorem middfsRead_reopened {size : UInt64} {offset : Int64} {fi : Option Nat} {bytes : List UInt8}
    (done : middfsRead conf os xchg path size offset fi mounted = .ok (retv, bytes, mounted')) :
    Reopened conf path mounted.handles mounted'.handles := by
  cases fi with
  | none =>
      simp only [middfsRead] at done
      split at done
      · cases done
        exact .kept
      · split at done
        · cases done
        · split_ifs at done
          · cases done
            exact .kept
          · split at done <;> cases done
            exact .kept
  | some fh =>
      simp only [middfsRead] at done
      split at done
      · cases done
      · split at done <;> cases done
        exact .kept

theorem middfsWrite_reopened {malloc : Nat → Bool} {junk : Packet} {buf : List UInt8} {offset : Int64}
    {fi : Option Nat}
    (done : middfsWrite conf os xchg malloc junk path buf offset fi mounted = .ok (retv, mounted')) :
    Reopened conf path mounted.handles mounted'.handles := by
  cases fi with
  | none =>
      simp only [middfsWrite] at done
      split at done
      · cases done
        exact .kept
      · split at done
        · cases done
        · split_ifs at done
          cases done
          exact .kept
  | some fh => exact onHandle_reopened done

theorem middfsRelease_reopened {fh : Nat} (done : middfsRelease os fh mounted = .ok (retv, mounted')) :
    Reopened conf path mounted.handles mounted'.handles := by
  unfold middfsRelease at done
  split at done <;> cases done
  exact .released fh

theorem middfsReaddir_reopened {full : Nat → Bool} {filled : List (Option CStr × Int32)}
    (done : middfsReaddir conf os xchg full path mounted = .ok (retv, filled, mounted')) :
    Reopened conf path mounted.handles mounted'.handles := by
  unfold middfsReaddir at done
  split at done
  · cases done
    exact .kept
  · split at done
    · cases done
    · split_ifs at done
      · cases done
        exact .kept
      · split at done <;> cases done
        exact .kept

theorem middfsOper_reopened {call : FuseCall} {reply : FuseReply}
    (done : middfsOper conf os xchg mounted call = .ok (reply, mounted')) :
    Reopened conf call.path mounted.handles mounted'.handles := by
  cases call with
  | getattr junk path fi =>
      obtain ⟨retv, stbuf, performed, _⟩ := dataReply_ok done
      exact middfsGetattr_reopened performed
  | access path mode =>
      obtain ⟨retv, performed, _⟩ := plainReply_ok done
      exact onTemporary_reopened performed
  | readlink errno path size =>
      simp only [middfsOper] at done
      generalize middfsReadlink conf (os.links mounted.files) errno (.ok ()) path size = result at done
      cases result <;> cases done
      exact .kept
  | mkdir path mode =>
      obtain ⟨retv, performed, _⟩ := plainReply_ok done
      exact onTemporary_reopened performed
  | symlink target src =>
      obtain ⟨retv, performed, _⟩ := plainReply_ok done
      exact middfsSymlink_reopened performed
  | unlink path =>
      obtain ⟨retv, performed, _⟩ := plainReply_ok done
      exact onTemporary_reopened performed
  | rmdir path =>
      obtain ⟨retv, performed, _⟩ := plainReply_ok done
      exact onTemporary_reopened performed
  | rename src dst =>
      simp only [middfsOper] at done
      generalize middfsRename conf os.toOs xchg src dst mounted.files = result at done
      cases result <;> cases done
      exact .kept
  | link src dst =>
      obtain ⟨_, performed, _⟩ := plainReply_ok done
      cases performed
  | chmod path mode fi =>
      obtain ⟨retv, performed, _⟩ := plainReply_ok done
      exact middfsChmod_reopened performed
  | truncate path size fi =>
      obtain ⟨retv, performed, _⟩ := plainReply_ok done
      cases fi with
      | none => exact onTemporary_reopened performed
      | some fh => exact onHandle_reopened performed
  | openFile address path flags =>
      obtain ⟨retv, fh, performed, _⟩ := dataReply_ok done
      exact middfsOpen_reopened performed
  | create address path mode flags =>
      obtain ⟨retv, fh, performed, _⟩ := dataReply_ok done
      exact openHandle_reopened performed
  | read path size offset fi =>
      obtain ⟨retv, bytes, performed, _⟩ := dataReply_ok done
      exact middfsRead_reopened performed
  | write malloc junk path buf offset fi =>
      obtain ⟨retv, performed, _⟩ := plainReply_ok done
      exact middfsWrite_reopened performed
  | statfs path =>
      obtain ⟨retv, performed, _⟩ := plainReply_ok done
      cases performed
      exact .kept
  | release path fh =>
      obtain ⟨retv, performed, _⟩ := plainReply_ok done
      exact middfsRelease_reopened performed
  | readdir full path =>
      obtain ⟨retv, filled, performed, _⟩ := dataReply_ok done
      exact middfsReaddir_reopened performed

theorem Mounted.Own.step (own : mounted.Own) {call : FuseCall} {reply : FuseReply}
    (done : middfsOper conf os xchg mounted call = .ok (reply, mounted')) : mounted'.Own := by
  have reopened := middfsOper_reopened done
  unfold Mounted.Own at own ⊢
  generalize mounted'.handles = handles at reopened ⊢
  cases reopened with
  | kept => exact own
  | opened address rsrc holds _ =>
      intro handle member
      rcases List.mem_cons.mp member with rfl | among
      · exact holds
      · exact own handle among
  | released fh => exact fun handle member => own handle (List.eraseP_subset member)

end Reopened

/-! ## Runs -/

section Runs
variable {σ ν : Type}

/-- The file system with the replies that it gave, and what each of them was about. -/
def conversing (conf : ClientConf) (os : MountOs σ) (xchg : Xchg σ) (call : FuseCall)
    (s : Mounted σ × List (ClientRsrcType × FuseReply)) :
    Except Trap (Mounted σ × List (ClientRsrcType × FuseReply)) :=
  match middfsOper conf os xchg s.1 call with
  | .error trap => .error trap
  | .ok (reply, mounted) => .ok (mounted, s.2 ++ [(call.type conf s.1.handles, reply)])

/-- The calls of a run that are about resources of some types. -/
def callsOf (conf : ClientConf) (os : MountOs σ) (xchg : Xchg σ) (seen : ClientRsrcType → Bool) :
    List FuseCall → Mounted σ × List (ClientRsrcType × FuseReply) → List FuseCall :=
  purged (conversing conf os xchg) fun call s => seen (call.type conf s.1.handles)

def seenOf {τ : Type} (view : σ → τ) (seen : ClientRsrcType → Bool)
    (s : Mounted σ × List (ClientRsrcType × FuseReply)) :
    Mounted τ × List (ClientRsrcType × FuseReply) :=
  (s.1.seen view seen, s.2.filter fun reply => seen reply.1)

theorem handleType_seen {handles : List (Nat × ClientRsrc)} {seen : ClientRsrcType → Bool} {fh : Nat}
    (watched : seen (handleType handles fh) = true) :
    handleType (handles.filter fun handle => seen handle.2.mrType) fh = handleType handles fh := by
  cases found : fileHandle handles fh with
  | ok rsrc =>
      rw [handleType_found found] at watched ⊢
      rw [handleType_found (fileHandle_seen found watched)]
  | error trap =>
      have none_ : handles.lookup fh = none := by
        unfold fileHandle at found
        split at found
        · assumption
        · cases found
      have none' : (handles.filter fun handle => seen handle.2.mrType).lookup fh = none :=
        List.lookup_eq_none_iff.mpr fun handle member =>
          List.lookup_eq_none_iff.mp none_ handle (List.mem_of_mem_filter member)
      simp only [handleType, fileHandle, none_, none']

theorem type_seen {conf : ClientConf} {handles : List (Nat × ClientRsrc)}
    {seen : ClientRsrcType → Bool} {call : FuseCall} (watched : seen (call.type conf handles) = true) :
    call.type conf (handles.filter fun handle => seen handle.2.mrType) = call.type conf handles := by
  cases call with
  | getattr _ _ fi | chmod _ _ fi | truncate _ _ fi | read _ _ _ fi | write _ _ _ _ _ fi =>
      cases fi with
      | none => rfl
      | some fh => exact handleType_seen watched
  | release _ fh => exact handleType_seen watched
  | _ => rfl

/-- The run lemma. -/
theorem conversing_observed {τ : Type} {view : σ → τ} {seen : ClientRsrcType → Bool} {os : MountOs σ}
    {xchg : Xchg σ} {os' : MountOs τ} {xchg' : Xchg τ} (observer : Observer view seen os xchg os' xchg')
    (conf : ClientConf) {calls : List FuseCall} {files : σ}
    {s : Mounted σ × List (ClientRsrcType × FuseReply)}
    (run : steps (conversing conf os xchg) calls (⟨files, []⟩, []) = .ok s) :
    steps (conversing conf os' xchg') (callsOf conf os xchg seen calls (⟨files, []⟩, []))
      (⟨view files, []⟩, []) = .ok (seenOf view seen s) := by
  have stepped : ∀ {call before after}, conversing conf os xchg call before = .ok after → ∃ reply,
      middfsOper conf os xchg before.1 call = .ok (reply, after.1) ∧
      after.2 = before.2 ++ [(call.type conf before.1.handles, reply)] := by
    intro call before after done
    unfold conversing at done
    split at done
    · cases done
    · rename_i reply mounted performed
      cases done
      exact ⟨reply, performed, rfl⟩
  refine @steps_purged _ _ _ _ (conversing conf os xchg) (conversing conf os' xchg') (seenOf view seen)
    (fun call s => seen (call.type conf s.1.handles)) (fun s => s.1.Own) ?_ ?_ ?_ _ _ _
    (fun _ no => by cases no) run
  · intro call before after own done
    obtain ⟨_, performed, _⟩ := stepped done
    exact own.step performed
  · intro call before after own watched done
    obtain ⟨reply, performed, replies⟩ := stepped done
    have observed := middfsOper_observed observer conf own performed
    rw [Observed, if_pos watched] at observed
    have type : call.type conf (before.1.seen view seen).handles = call.type conf before.1.handles :=
      type_seen watched
    simp only [conversing, seenOf, observed, replies, List.filter_append, List.filter_cons, watched,
      if_true, List.filter_nil]
    rw [type]
  · intro call before after own unwatched done
    obtain ⟨reply, performed, replies⟩ := stepped done
    have observed := middfsOper_observed observer conf own performed
    rw [Observed, if_neg (by rw [unwatched]; decide)] at observed
    simp only [seenOf, observed, replies, List.filter_append, List.filter_cons, unwatched,
      Bool.false_eq_true, if_false, List.filter_nil, List.append_nil]

def onSecond (xchg : Xchg ν) : Xchg (σ × ν) := fun outPkt inPkt s =>
  match xchg outPkt inPkt s.2 with
  | .error trap => .error trap
  | .ok (answer, net) => .ok (answer, (s.1, net))

theorem onSecond_ok {xchg : Xchg ν} {outPkt inPkt : Packet} {s s' : σ × ν} {answer : Int32 × Packet}
    (done : onSecond xchg outPkt inPkt s = .ok (answer, s')) :
    xchg outPkt inPkt s.2 = .ok (answer, s'.2) ∧ s'.1 = s.1 := by
  unfold onSecond at done
  split at done
  · cases done
  · rename_i exchanged
    cases done
    exact ⟨exchanged, rfl⟩

def isOwn (type : ClientRsrcType) : Bool := type == .mrLocal

def isOthers (type : ClientRsrcType) : Bool := type != .mrLocal

/-- The client's own calls can do without the network. -/
theorem own_observer (os : MountOs σ) (xchg : Xchg ν) (xchg' : Xchg σ) :
    Observer Prod.fst isOwn os.first (onSecond xchg) os xchg' where
  openFile := fun _ _ _ _ => rfl
  close := fun _ _ => ⟨rfl, rfl⟩
  pread := fun _ _ _ _ => rfl
  pwrite := fun _ _ _ _ => rfl
  lstat := fun _ _ => rfl
  fdopendir := fun _ _ => rfl
  access := fun _ _ _ => rfl
  truncate := fun _ _ _ => rfl
  ftruncate := fun _ _ _ => rfl
  rename := fun _ _ _ => rfl
  links := fun _ _ => rfl
  mkdir := fun _ _ _ => rfl
  unlink := fun _ _ => rfl
  rmdir := fun _ _ => rfl
  symlink := fun _ _ _ => rfl
  fchmod := fun _ _ _ => rfl
  lchmod := fun _ _ _ => rfl
  statvfs := fun _ _ => rfl
  xchg := fun done => (onSecond_ok done).2
  root := rfl
  uid := rfl
  gid := rfl

/-- The other calls can do without the client's own files. -/
theorem others_observer {os : MountOs σ} {os' : MountOs ν} (xchg : Xchg ν) (uid : os'.uid = os.uid)
    (gid : os'.gid = os.gid) : Observer Prod.snd isOthers os.first (onSecond xchg) os' xchg where
  openFile := fun _ _ _ _ => rfl
  close := fun _ _ => rfl
  pread := fun _ _ _ _ => rfl
  pwrite := fun _ _ _ _ => rfl
  lstat := fun _ _ => rfl
  fdopendir := fun _ _ => rfl
  access := fun _ _ _ => rfl
  truncate := fun _ _ _ => rfl
  ftruncate := fun _ _ _ => rfl
  rename := fun _ _ _ => rfl
  links := fun no => by cases no
  mkdir := fun _ _ _ => rfl
  unlink := fun _ _ => rfl
  rmdir := fun _ _ => rfl
  symlink := fun _ _ _ => rfl
  fchmod := fun _ _ _ => rfl
  lchmod := fun _ _ _ => rfl
  statvfs := fun _ _ => rfl
  xchg := fun done => (onSecond_ok done).1
  root := rfl
  uid := uid
  gid := gid

/-- A run of a client's file system consists of two: one of the calls for his own
files, whatever the network, and one of the others, whatever his own files. -/
structure Separates (conf : ClientConf) (os : MountOs σ) (xchg : Xchg ν) (calls : List FuseCall)
    (files : σ) (net : ν) (s : Mounted (σ × ν) × List (ClientRsrcType × FuseReply)) : Prop where
  own : ∀ xchg' : Xchg σ, steps (conversing conf os xchg')
    (callsOf conf os.first (onSecond xchg) isOwn calls (⟨(files, net), []⟩, [])) (⟨files, []⟩, []) =
      .ok (seenOf Prod.fst isOwn s)
  others : ∀ os' : MountOs ν, os'.uid = os.uid → os'.gid = os.gid → steps (conversing conf os' xchg)
    (callsOf conf os.first (onSecond xchg) isOthers calls (⟨(files, net), []⟩, [])) (⟨net, []⟩, []) =
      .ok (seenOf Prod.snd isOthers s)

theorem mount_separates (conf : ClientConf) (os : MountOs σ) (xchg : Xchg ν) {calls : List FuseCall}
    {files : σ} {net : ν} {s : Mounted (σ × ν) × List (ClientRsrcType × FuseReply)}
    (run : steps (conversing conf os.first (onSecond xchg)) calls (⟨(files, net), []⟩, []) = .ok s) :
    Separates conf os xchg calls files net s where
  own := fun xchg' => conversing_observed (own_observer os xchg xchg') conf run
  others := fun _ uid gid => conversing_observed (others_observer xchg uid gid) conf run

end Runs

/-! ## Both -/

/-- A network that grants everything, and counts the exchanges. -/
def granting : Xchg Nat := fun _ _ count =>
  .ok ((0, { zeroPacket with
    mpktMagic := mpktMagicNumber, mpktType := mpktResponseType
    mpktResponse := { mrspType := mrspOk } }), count + 1)

/-- User `a` opens `/a/f`, and asks for access to `/b/f`. -/
def bothFiles : List FuseCall :=
  [.openFile (some 100) (strAt [47, 97, 47, 102]) 0, .access (strAt [47, 98, 47, 102]) 4,
    .openFile (some 101) (strAt [47, 98, 47, 102]) 0, .release (strAt [47, 97, 47, 102]) 100]

theorem mount_separates_bothFiles : ∃ s,
    steps (conversing aConf oneFile.first (onSecond granting)) bothFiles
      (⟨(({0, 1, 2} : Finset Int), 0), []⟩, []) = .ok s ∧
    s.2.map Prod.fst = [.mrLocal, .mrNetwork, .mrNetwork, .mrLocal] ∧ s.1.files.2 = 2 ∧
    Separates aConf oneFile granting bothFiles {0, 1, 2} 0 s := by
  have happens : ∃ s, steps (conversing aConf oneFile.first (onSecond granting)) bothFiles
      (⟨(({0, 1, 2} : Finset Int), 0), []⟩, []) = .ok s ∧
      s.2.map Prod.fst = [.mrLocal, .mrNetwork, .mrNetwork, .mrLocal] ∧ s.1.files.2 = 2 :=
    ⟨_, rfl, rfl, rfl⟩
  obtain ⟨s, run, types, exchanges⟩ := happens
  exact ⟨s, run, types, exchanges, mount_separates aConf oneFile granting run⟩

end Middfs
