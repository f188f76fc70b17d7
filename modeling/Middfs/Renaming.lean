import Middfs.Network

/-!
# Renaming

`middfs_rename` of two absolute paths, through `client_rsrc_rename`, the wire
format, the server and `handle_request_rename`.  A file should be moved within
the directory of its owner, or not at all.
-/

set_option autoImplicit false

namespace Middfs

open LexicalPath

/-! ## The owner's side -/

section Owner
variable {φ : Type} (conf : ClientConf) (os : Os φ) (malloc : Nat → Bool)

theorem handleRequestType_rename {req : Request} (rename : req.mreqType = mreqRename) (path : CStr)
    (rsp : Response) (files : φ) : handleRequestType conf os malloc path req rsp files =
      match handleRequestRename conf os path req rsp files with
      | .error trap => .error trap
      | .ok answer => .ok (some answer) := by
  rw [handleRequestType, rename]
  rfl

theorem handleRequest_rename {received : Packet} {src dst : CStr} (files : φ)
    {result : Except Errno Unit} {files' : φ} (rename : received.mpktRequest.mreqType = mreqRename)
    (held : received.mpktRequest.mreqRsrc.mrPath = some src)
    (target : received.mpktRequest.mreqTo.mrPath = some dst)
    (called : os.rename (middfsLocalpathTmp conf src) (middfsLocalpathTmp conf dst) files =
      (result, files')) :
    handleRequest conf os malloc received zeroPacket files =
      .ok (.hsSuc, statusResponse result, files') := by
  have answered := handleRequestType_rename conf os malloc rename (middfsLocalpathTmp conf src) {} files
  rw [handleRequestRename, target] at answered
  simp only [called] at answered
  cases result with
  | error errno =>
      rw [@handleRequest_answer φ conf os malloc received src (negErrno errno) {} files files' held
        answered, if_pos (negErrno_neg errno), neg_negErrno]
      rfl
  | ok _ =>
      rw [@handleRequest_answer φ conf os malloc received src 0 (responseInit {} mrspOk) files files'
        held answered]
      rfl

end Owner

/-! ## The requester's side -/

def renamePacket (conf : ClientConf) (src dst : Rsrc) : Packet :=
  { requestPacket conf mreqRename src with
    mpktRequest := { (requestPacket conf mreqRename src).mpktRequest with mreqTo := dst } }

section Network
variable {φ : Type} (net : Net φ) (user : CStr) {owner srcPath : CStr}
variable {dst : FilledRsrc} (some_ : srcPath.val ≠ []) (world : World φ)

include some_ in
theorem renamePacket_lookedUp (conf : ClientConf) :
    lookedUp (renamePacket conf ⟨some owner, some srcPath⟩ dst.val).mpktRequest = some owner := by
  have notRoot : rootRequested (renamePacket conf ⟨some owner, some srcPath⟩ dst.val).mpktRequest =
      false := by
    show srcPath.val.isEmpty = false
    simpa using some_
  rw [lookedUp, notRoot]
  rfl

theorem renamePacket_requests (conf : ClientConf) {src : Rsrc} (filled : src.Filled) :
    (renamePacket conf src dst.val).Requests src ∧ (renamePacket conf src dst.val).SurvivesCast :=
  ⟨requests_rename conf filled dst,
    fun _ => ⟨fun has => absurd has (show ¬ reqHasSize mreqRename = true by decide),
      fun has => absurd has (show ¬ reqHasOff mreqRename = true by decide)⟩⟩

include some_ in
theorem remoteRename_reached {dstPath : CStr} {result : Except Errno Unit} {files' : φ}
    (target : dst.val.mrPath = some dstPath)
    (reached : net.Reaches owner (renamePacket (net.conf user) ⟨some owner, some srcPath⟩ dst.val))
    (called : (net.os owner).rename (middfsLocalpathTmp (net.conf owner) srcPath)
      (middfsLocalpathTmp (net.conf owner) dstPath) (world owner) = (result, files')) :
    requestOk net.xchg (renamePacket (net.conf user) ⟨some owner, some srcPath⟩ dst.val) world =
      .ok (statusOf result, Function.update world owner files') := by
  obtain ⟨requests, survives⟩ := @renamePacket_requests dst (net.conf user) ⟨some owner, some srcPath⟩ ⟨rfl, rfl⟩
  obtain ⟨received, live, _, exchange⟩ := Net.xchg_reached net requests.type requests.request survives
    (renamePacket_lookedUp some_ (net.conf user)) zeroPacket world reached
  obtain ⟨_, request⟩ := Packet.live_request live requests.type
  have rename : received.mpktRequest.mreqType = mreqRename :=
    show received.mpktRequest.live.mreqType = _ by
      rw [request]
      rfl
  have held : received.mpktRequest.mreqRsrc.mrPath = some srcPath :=
    show received.mpktRequest.live.mreqRsrc.mrPath = _ by
      rw [request]
      rfl
  have sentTo : received.mpktRequest.mreqTo = dst.val := by
    have targets := congrArg Request.mreqTo request
    have has : reqHasTo mreqRename = true := rfl
    have sent : (renamePacket (net.conf user) ⟨some owner, some srcPath⟩ dst.val).mpktRequest.live.mreqTo
        = dst.val := rfl
    rw [sent] at targets
    simpa only [Request.live, rename, has, if_true] using targets
  have settles := settles_statusResponse result
  obtain ⟨response, wf, plain, small⟩ := settles.wellFormed
  obtain ⟨got, same, exchanged⟩ := exchange (statusResponse result) files'
    (handleRequest_rename (net.conf owner) (net.os owner) (net.malloc owner) (world owner) rename held
      (sentTo ▸ target) called) response wf plain small
  exact requestOk_settles settles same exchanged

include some_ in
theorem remoteRename_unreached
    (unreached : ¬ net.Reaches owner
      (renamePacket (net.conf user) ⟨some owner, some srcPath⟩ dst.val)) :
    ∃ retv, requestOk net.xchg (renamePacket (net.conf user) ⟨some owner, some srcPath⟩ dst.val) world =
      .ok (retv, world) ∧ retv < 0 := by
  obtain ⟨requests, survives⟩ := @renamePacket_requests dst (net.conf user) ⟨some owner, some srcPath⟩ ⟨rfl, rfl⟩
  obtain ⟨retv, got, exchanged, failed | ⟨rfl, rfl, _⟩ | ⟨rfl, same⟩⟩ := Net.xchg_unreached net
    requests.type requests.request survives (renamePacket_lookedUp some_ (net.conf user)) zeroPacket world
    unreached
  · exact ⟨-eio, requestOk_failed exchanged failed, by decide⟩
  · exact ⟨-eio, requestOk_unfilled exchanged, by decide⟩
  · have settles : Settles (packetError zeroPacket enoent) (negErrno ⟨2, by decide⟩) :=
      Settles.error ⟨2, by decide⟩
    exact ⟨_, requestOk_settles settles same exchanged, negErrno_neg _⟩

theorem rootRename :
    ∃ retv, requestOk net.xchg (renamePacket (net.conf user) ⟨some emptyStr, some emptyStr⟩ dst.val)
      world = .ok (retv, world) ∧ retv < 0 := by
  obtain ⟨requests, survives⟩ :=
    @renamePacket_requests dst (net.conf user) ⟨some emptyStr, some emptyStr⟩ ⟨rfl, rfl⟩
  have type := requests.type
  by_cases fits : (renamePacket (net.conf user) ⟨some emptyStr, some emptyStr⟩ dst.val).wire.length <
      2 ^ 63
  · obtain ⟨served, carried, live, _⟩ := carry_whole
      (Packet.wellFormed_of_request type requests.request) survives
      (fun response => absurd (type.symm.trans response) (by decide)) fits
    obtain ⟨_, request⟩ := Packet.live_request live type
    have rename : served.mpktRequest.mreqType = mreqRename :=
      show served.mpktRequest.live.mreqType = _ by
        rw [request]
        rfl
    have root : rootRequested served.mpktRequest = true := by
      have rsrc : served.mpktRequest.live.mreqRsrc = ⟨some emptyStr, some emptyStr⟩ := by
        rw [request]
        rfl
      have path : served.mpktRequest.mreqRsrc.mrPath = some emptyStr := congrArg Rsrc.mrPath rsrc
      rw [rootRequested, path]
      rfl
    have answer : net.serve served world = (some (errorResponse eperm), world) := by
      rw [Net.serve, if_pos root]
      simp only [handleReqRdFinRoot, rename]
      rfl
    have settles : Settles (errorResponse eperm) (negErrno ⟨1, by decide⟩) := Settles.error ⟨1, by decide⟩
    obtain ⟨response, wf, plain, small⟩ := settles.wellFormed
    obtain ⟨got, _, back, same, _⟩ := carry_response response wf plain small
    have exchanged : net.xchg (renamePacket (net.conf user) ⟨some emptyStr, some emptyStr⟩ dst.val)
        zeroPacket world = .ok ((0, got), world) := by
      simp only [Net.xchg, carried, answer, back]
    exact ⟨_, requestOk_settles settles same exchanged, negErrno_neg _⟩
  · have lost : carry (renamePacket (net.conf user) ⟨some emptyStr, some emptyStr⟩ dst.val) = none :=
      if_neg fits
    have exchanged : net.xchg (renamePacket (net.conf user) ⟨some emptyStr, some emptyStr⟩ dst.val)
        zeroPacket world = .ok ((-Int32.ofInt enomem, zeroPacket), world) := by
      rw [Net.xchg, lost, if_neg fits]
    exact ⟨-eio, requestOk_failed exchanged (by decide), by decide⟩

end Network

/-! ## Within one owner -/

/-- What rename(2) does, where `look` gives what is found at a path: the file at
the first path is found at the second, or nothing changes. -/
structure RenameLaw {φ α : Type} (os : Os φ) (look : φ → CStr → α) : Prop where
  moves : ∀ src dst files files', os.rename src dst files = (.ok (), files') →
    look files' dst = look files src
  fails : ∀ src dst files errno files', os.rename src dst files = (.error errno, files') →
    files' = files

section Within
variable {φ α : Type} (net : Net φ) (look : φ → CStr → α) (user src dst : CStr) (world : World φ)

def Net.place (owner path : CStr) : CStr := middfsLocalpathTmp (net.conf owner) (ownerPath path)

/-- A renaming that succeeds moves a file of one owner, and one between two
owners fails and changes nothing. -/
structure StaysWithin (retv : Int32) (world' : World φ) : Prop where
  moved : retv = 0 → ∃ owner : CStr, (components slash src.val).head? = some owner.val ∧
    (components slash dst.val).head? = some owner.val ∧
    look (world' owner) (net.place owner dst) = look (world owner) (net.place owner src)
  kept : (components slash src.val).head? ≠ (components slash dst.val).head? →
    retv < 0 ∧ world' = world

/-- The two paths belong to two other users, and the machine of the first one,
which can be reached, has a place of its own for the second. -/
def Misplaces : Prop :=
  ∃ owner other : CStr, (components slash src.val).head? = some owner.val ∧
    (components slash dst.val).head? = some other.val ∧ owner ≠ other ∧ owner ≠ user ∧ other ≠ user ∧
    net.Reaches owner
      (renamePacket (net.conf user) ⟨some owner, some (ownerPath src)⟩
        ⟨some other, some (ownerPath dst)⟩) ∧
    ∃ files', (net.os owner).rename (net.place owner src) (net.place owner dst) (world owner) =
      (.ok (), files')

theorem middfsRename_exdev {srcRsrc dstRsrc : ClientRsrc}
    (initSrc : clientRsrcInit (net.conf user) src = .ok srcRsrc)
    (initDst : clientRsrcInit (net.conf user) dst = .ok dstRsrc)
    (differ : srcRsrc.mrType ≠ dstRsrc.mrType) :
    ∃ retv world', middfsRename (net.conf user) ((net.os user).on user) net.xchg src dst world =
      .ok (retv, world') ∧ StaysWithin net look src dst world retv world' := by
  refine ⟨-exdev, world, ?_, fun zero => absurd zero (by decide), fun _ => ⟨by decide, rfl⟩⟩
  simp only [middfsRename, initSrc, initDst, clientRsrcRename, if_pos differ]

theorem middfsRename_local (law : RenameLaw (net.os user) look) {srcRsrc dstRsrc : Rsrc}
    (initSrc : clientRsrcInit (net.conf user) src = .ok ⟨.mrLocal, srcRsrc, -1⟩)
    (initDst : clientRsrcInit (net.conf user) dst = .ok ⟨.mrLocal, dstRsrc, -1⟩)
    (srcPath : srcRsrc.mrPath = some (ownerPath src)) (dstPath : dstRsrc.mrPath = some (ownerPath dst))
    (srcHead : (components slash src.val).head? = some user.val)
    (dstHead : (components slash dst.val).head? = some user.val) :
    ∃ retv world', middfsRename (net.conf user) ((net.os user).on user) net.xchg src dst world =
      .ok (retv, world') ∧ StaysWithin net look src dst world retv world' := by
  cases called : (net.os user).rename (net.place user src) (net.place user dst) (world user) with
  | mk result files' =>
      refine ⟨statusOf result, Function.update world user files', ?_, ?_,
        fun differ => absurd (srcHead.trans dstHead.symm) differ⟩
      · simp only [middfsRename, initSrc, initDst, clientRsrcRename, localPath, srcPath, dstPath, ne_eq,
          not_true_eq_false, if_false]
        show Except.ok (statusOf ((net.os user).rename (net.place user src) (net.place user dst)
            (world user)).1, Function.update world user ((net.os user).rename (net.place user src)
            (net.place user dst) (world user)).2) = _
        rw [called]
      · intro zero
        cases result with
        | error errno =>
            have negative := negErrno_neg errno
            rw [show negErrno errno = 0 from zero] at negative
            exact absurd negative (by decide)
        | ok _ =>
            refine ⟨user, srcHead, dstHead, ?_⟩
            rw [Function.update_self]
            exact law.moves _ _ _ _ called

theorem middfsRename_network (law : ∀ owner, RenameLaw (net.os owner) look) {owner other : CStr}
    (initSrc : clientRsrcInit (net.conf user) src =
      .ok ⟨.mrNetwork, ⟨some owner, some (ownerPath src)⟩, -1⟩)
    (initDst : clientRsrcInit (net.conf user) dst =
      .ok ⟨.mrNetwork, ⟨some other, some (ownerPath dst)⟩, -1⟩)
    (srcHead : (components slash src.val).head? = some owner.val)
    (dstHead : (components slash dst.val).head? = some other.val)
    (within : owner ≠ other → net.Reaches owner
      (renamePacket (net.conf user) ⟨some owner, some (ownerPath src)⟩
        ⟨some other, some (ownerPath dst)⟩) → ∀ files',
      (net.os owner).rename (net.place owner src) (net.place owner dst) (world owner) ≠ (.ok (), files')) :
    ∃ retv world', middfsRename (net.conf user) ((net.os user).on user) net.xchg src dst world =
      .ok (retv, world') ∧ StaysWithin net look src dst world retv world' := by
  have sent : ∀ result, requestOk net.xchg (renamePacket (net.conf user)
        ⟨some owner, some (ownerPath src)⟩ ⟨some other, some (ownerPath dst)⟩) world = .ok result →
      middfsRename (net.conf user) ((net.os user).on user) net.xchg src dst world = .ok result := by
    intro result answer
    simp only [middfsRename, initSrc, initDst, clientRsrcRename, ne_eq, not_true_eq_false, if_false]
    exact answer
  have nonempty := ownerPath_ne_nil src
  let target : FilledRsrc := ⟨⟨some other, some (ownerPath dst)⟩, rfl, rfl⟩
  by_cases reached : net.Reaches owner (renamePacket (net.conf user)
    ⟨some owner, some (ownerPath src)⟩ target.val)
  · cases called : (net.os owner).rename (net.place owner src) (net.place owner dst) (world owner) with
    | mk result files' =>
        refine ⟨_, _, sent _ (@remoteRename_reached φ net user owner (ownerPath src) target nonempty world
          (ownerPath dst) result files' rfl reached called), ?_⟩
        cases result with
        | error errno =>
            have negative := negErrno_neg errno
            have unchanged : Function.update world owner files' = world := by
              rw [(law owner).fails _ _ _ _ _ called, Function.update_eq_self]
            refine ⟨fun zero => ?_, fun _ => ⟨negative, unchanged⟩⟩
            rw [show negErrno errno = 0 from zero] at negative
            exact absurd negative (by decide)
        | ok _ =>
            by_cases same : owner = other
            · refine ⟨fun _ => ⟨owner, srcHead, same ▸ dstHead, ?_⟩, fun differ => ?_⟩
              · rw [Function.update_self]
                exact (law owner).moves _ _ _ _ called
              · exact absurd (srcHead.trans (same ▸ dstHead.symm)) differ
            · exact absurd called (within same reached files')
  · obtain ⟨retv, answer, negative⟩ :=
      @remoteRename_unreached φ net user owner (ownerPath src) target nonempty world reached
    refine ⟨retv, world, sent _ answer, fun zero => ?_, fun _ => ⟨negative, rfl⟩⟩
    rw [zero] at negative
    exact absurd negative (by decide)

theorem middfsRename_misplaced {owner other : CStr}
    (initSrc : clientRsrcInit (net.conf user) src =
      .ok ⟨.mrNetwork, ⟨some owner, some (ownerPath src)⟩, -1⟩)
    (initDst : clientRsrcInit (net.conf user) dst =
      .ok ⟨.mrNetwork, ⟨some other, some (ownerPath dst)⟩, -1⟩)
    (reached : net.Reaches owner (renamePacket (net.conf user) ⟨some owner, some (ownerPath src)⟩
      ⟨some other, some (ownerPath dst)⟩)) {files' : φ}
    (called : (net.os owner).rename (net.place owner src) (net.place owner dst) (world owner) =
      (.ok (), files')) :
    middfsRename (net.conf user) ((net.os user).on user) net.xchg src dst world =
      .ok (0, Function.update world owner files') := by
  have answer := @remoteRename_reached φ net user owner (ownerPath src)
    ⟨⟨some other, some (ownerPath dst)⟩, rfl, rfl⟩ (ownerPath_ne_nil src) world (ownerPath dst)
    (.ok ()) files' rfl reached called
  simp only [middfsRename, initSrc, initDst, clientRsrcRename, ne_eq, not_true_eq_false, if_false]
  exact answer

/-- A renaming stays within one owner, unless the first machine has a place for
the path of another user. -/
theorem rename_staysWithin_iff (law : ∀ owner, RenameLaw (net.os owner) look)
    (absoluteSrc : src.val.head? = some slash) (absoluteDst : dst.val.head? = some slash) :
    (∃ retv world', middfsRename (net.conf user) ((net.os user).on user) net.xchg src dst world =
        .ok (retv, world') ∧ StaysWithin net look src dst world retv world') ↔
      ¬ Misplaces net user src dst world := by
  have kinds : ClientRsrcType.mrRoot ≠ .mrNetwork ∧ ClientRsrcType.mrRoot ≠ .mrLocal ∧
      ClientRsrcType.mrLocal ≠ .mrNetwork := by decide
  by_cases srcRoot : components slash src.val = []
  · have initSrc := clientRsrcInit_root (net.conf user) absoluteSrc srcRoot
    have noOwner : ¬ Misplaces net user src dst world := by
      rintro ⟨owner, _, head, _⟩
      rw [srcRoot] at head
      cases head
    refine iff_of_true ?_ noOwner
    by_cases dstRoot : components slash dst.val = []
    · have initDst := clientRsrcInit_root (net.conf user) absoluteDst dstRoot
      obtain ⟨retv, answer, negative⟩ :=
        @rootRename φ net user ⟨⟨some emptyStr, some emptyStr⟩, rfl, rfl⟩ world
      refine ⟨retv, world, ?_, fun zero => ?_, fun differ => ?_⟩
      · simp only [middfsRename, initSrc, initDst, clientRsrcRename, ne_eq, not_true_eq_false, if_false]
        exact answer
      · rw [zero] at negative
        exact absurd negative (by decide)
      · rw [srcRoot, dstRoot] at differ
        exact absurd rfl differ
    · refine middfsRename_exdev net look user src dst world initSrc
        (clientRsrcInit_named (net.conf user) absoluteDst dstRoot) ?_
      simp only
      split_ifs
      · exact kinds.1
      · exact kinds.2.1
  have initSrc := clientRsrcInit_named (net.conf user) absoluteSrc srcRoot
  have srcHead := pathOwner_head srcRoot
  by_cases dstRoot : components slash dst.val = []
  · have noOwner : ¬ Misplaces net user src dst world := by
      rintro ⟨_, other, _, head, _⟩
      rw [dstRoot] at head
      cases head
    refine iff_of_true ?_ noOwner
    refine middfsRename_exdev net look user src dst world initSrc
      (clientRsrcInit_root (net.conf user) absoluteDst dstRoot) ?_
    simp only
    split_ifs
    · exact kinds.1.symm
    · exact kinds.2.1.symm
  have initDst := clientRsrcInit_named (net.conf user) absoluteDst dstRoot
  have dstHead := pathOwner_head dstRoot
  have owners : ∀ {owner other : CStr}, (components slash src.val).head? = some owner.val →
      (components slash dst.val).head? = some other.val →
      owner = pathOwner src ∧ other = pathOwner dst := by
    intro owner other first second
    rw [srcHead] at first
    rw [dstHead] at second
    exact ⟨(Subtype.ext (Option.some.inj first)).symm, (Subtype.ext (Option.some.inj second)).symm⟩
  by_cases srcOwn : pathOwner src = (net.conf user).username
  · have noOther : ¬ Misplaces net user src dst world := by
      rintro ⟨owner, other, first, second, _, foreign, _⟩
      exact foreign ((owners first second).1.trans srcOwn)
    refine iff_of_true ?_ noOther
    rw [if_neg (not_not.mpr srcOwn)] at initSrc
    by_cases dstOwn : pathOwner dst = (net.conf user).username
    · rw [if_neg (not_not.mpr dstOwn)] at initDst
      exact middfsRename_local net look user src dst world (law user) initSrc initDst rfl rfl
        (srcHead.trans (congrArg (fun owner : CStr => some owner.val) srcOwn))
        (dstHead.trans (congrArg (fun owner : CStr => some owner.val) dstOwn))
    · rw [if_pos dstOwn] at initDst
      exact middfsRename_exdev net look user src dst world initSrc initDst kinds.2.2
  rw [if_pos srcOwn] at initSrc
  by_cases dstOwn : pathOwner dst = (net.conf user).username
  · have noOther : ¬ Misplaces net user src dst world := by
      rintro ⟨owner, other, first, second, _, _, foreign, _⟩
      exact foreign ((owners first second).2.trans dstOwn)
    refine iff_of_true ?_ noOther
    rw [if_neg (not_not.mpr dstOwn)] at initDst
    exact middfsRename_exdev net look user src dst world initSrc initDst kinds.2.2.symm
  rw [if_pos dstOwn] at initDst
  constructor
  · rintro ⟨retv, world', renamed, stays⟩ ⟨owner, other, first, second, differ, _, _, reached, files', called⟩
    obtain ⟨rfl, rfl⟩ := owners first second
    rw [middfsRename_misplaced net user src dst world initSrc initDst reached called] at renamed
    cases renamed
    have apart : (components slash src.val).head? ≠ (components slash dst.val).head? := by
      rw [srcHead, dstHead]
      exact fun same => differ (Subtype.ext (Option.some.inj same))
    exact absurd (stays.kept apart).1 (by decide)
  · intro placed
    refine middfsRename_network net look user src dst world law initSrc initDst srcHead dstHead ?_
    intro differ reached files' called
    exact placed ⟨_, _, srcHead, dstHead, differ, srcOwn, dstOwn, reached, files', called⟩

end Within

/-! ## Two renamings -/

/-- Files of one byte, of which only `rename` knows. -/
abbrev Bytewise := CStr → Option UInt8

def noEntry : Errno := ⟨2, by decide⟩

def bytewiseOs : Os Bytewise :=
  { failingOs with
    rename := fun src dst files =>
      match files src with
      | none => (.error noEntry, files)
      | some byte => (.ok (), Function.update (Function.update files src none) dst (some byte)) }

theorem bytewiseOs_law : RenameLaw bytewiseOs fun files path => files path where
  moves := by
    intro src dst files files' called
    simp only [bytewiseOs] at called
    cases found : files src with
    | none => simp [found] at called
    | some byte =>
        simp only [found, Prod.mk.injEq, true_and] at called
        rw [← called, Function.update_self]
  fails := by
    intro src dst files errno files' called
    simp only [bytewiseOs] at called
    cases found : files src with
    | none =>
        simp only [found, Prod.mk.injEq] at called
        exact called.2.symm
    | some byte => simp [found] at called

def bytewiseNet : Net Bytewise where
  home := fun _ => strAt [47, 104]
  os := fun _ => bytewiseOs
  malloc := fun _ _ => true
  lib := Sorting.simpleLibrary Client
  clients := oneUser
  calls := quietCalls
  connects := fun _ => true

def pathBF : CStr := strAt [47, 98, 47, 102]

def pathBG : CStr := strAt [47, 98, 47, 103]

def pathCF : CStr := strAt [47, 99, 47, 102]

def fullWorld : World Bytewise := fun _ _ => some 0

theorem renameWithinB_stays :
    ∃ retv world', middfsRename (bytewiseNet.conf userA) ((bytewiseNet.os userA).on userA)
        bytewiseNet.xchg pathBF pathBG fullWorld = .ok (retv, world') ∧
      StaysWithin bytewiseNet (fun files path => files path) pathBF pathBG fullWorld retv world' := by
  refine (rename_staysWithin_iff bytewiseNet (fun files path => files path) userA pathBF pathBG
    fullWorld (fun _ => bytewiseOs_law) (by decide) (by decide)).mpr ?_
  rintro ⟨owner, other, first, second, differ, _⟩
  have ownerB : (components slash pathBF.val).head? = some userB.val := by decide
  have otherB : (components slash pathBG.val).head? = some userB.val := by decide
  rw [ownerB] at first
  rw [otherB] at second
  exact differ (Subtype.ext (Option.some.inj (first.symm.trans second)))

/-- `a` renames a file of `b` to a path of `c`, who is not even known; the
result is 0. -/
theorem renameBtoC_strays :
    ¬ ∃ retv world', middfsRename (bytewiseNet.conf userA) ((bytewiseNet.os userA).on userA)
        bytewiseNet.xchg pathBF pathCF fullWorld = .ok (retv, world') ∧
      StaysWithin bytewiseNet (fun files path => files path) pathBF pathCF fullWorld retv world' := by
  rintro ⟨retv, world', renamed, stays⟩
  have initSrc : clientRsrcInit (bytewiseNet.conf userA) pathBF =
      .ok ⟨.mrNetwork, ⟨some userB, some (ownerPath pathBF)⟩, -1⟩ := by decide
  have initDst : clientRsrcInit (bytewiseNet.conf userA) pathCF =
      .ok ⟨.mrNetwork, ⟨some (strAt [99]), some (ownerPath pathCF)⟩, -1⟩ := by decide
  have reached : bytewiseNet.Reaches userB (renamePacket (bytewiseNet.conf userA)
      ⟨some userB, some (ownerPath pathBF)⟩ ⟨some (strAt [99]), some (ownerPath pathCF)⟩) :=
    ⟨by decide, by decide, rfl⟩
  rw [middfsRename_misplaced bytewiseNet userA pathBF pathCF fullWorld initSrc initDst reached rfl]
    at renamed
  cases renamed
  exact absurd (stays.kept (by decide)).1 (by decide)

end Middfs
