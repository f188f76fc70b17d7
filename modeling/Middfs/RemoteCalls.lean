import Middfs.Listing
import Middfs.Refinement
import Middfs.RemoteFiles
import Middfs.Renaming
import Middfs.Sizing

/-!
# Remote system calls

An operation of a client on the file of another user comes to system calls that
the responder of that user makes on his machine, or to an error of the exchange:
the wire format, the registry and the handlers only get in between.
-/

set_option autoImplicit false

namespace Middfs

/-! ## The calls of the owner -/

def noMemory : Errno := ⟨12, by decide⟩

def lostExchange : Errno := ⟨5, by decide⟩

section Calls
variable {φ : Type} (os : Os φ) (malloc : Nat → Bool)

def Os.opened {β : Type} (path : CStr) (flags mode : Int32) (call : Int → Sys φ β) : Sys φ β := fun files =>
  match os.openFile path flags mode files with
  | (.error errno, files) => (.error errno, files)
  | (.ok fd, files) => ((call fd files).1, os.close fd (call fd files).2)

def Os.tried (path : CStr) (flags : Int32) : Sys φ Unit :=
  os.opened path flags openMode fun _ files => (.ok (), files)

def Os.fetched (path : CStr) (size : UInt64) (offset : Int64) : Sys φ (List UInt8) :=
  os.opened path oRdwr 0 fun fd files =>
    if malloc size.toNat then os.pread fd size.toNat offset files else (.error noMemory, files)

def Os.stored (path : CStr) (buf : List UInt8) (offset : Int64) : Sys φ Nat :=
  os.opened path oRdwr 0 fun fd => os.pwrite fd buf offset

/-- The entries of a directory, if there is memory for the array and the names. -/
def Os.listed (path : CStr) : Sys φ (List (CStr × UInt8)) := fun files =>
  match os.opendir path files with
  | (.error errno, files) => (.error errno, files)
  | (.ok entries, files) =>
      (if malloc (entries.length * sizeofDirent) ∧ ∀ entry ∈ entries, malloc (entry.1.val.length + 1) then
          .ok entries
        else .error noMemory,
        files)

end Calls

/-! ## The responses to them -/

section Responses
variable {β : Type} (respond : β → Response)

def answerOf : Except Errno β → Response
  | .error errno => { mrspType := mrspErrorType, mrspError := Int32.ofNat errno.val }
  | .ok value => respond value

/-- What a handler returns for a call that came to `result`. -/
def Tells (result : Except Errno β) (answer : Int32 × Response) : Prop :=
  match result with
  | .error errno => answer.1 = negErrno errno
  | .ok value => answer.1 = 0 ∧ answer.2.live = (respond value).live

def okAnswer (_ : β) : Response := responseInit {} mrspOk

def statAnswer (st : Statbuf) : Response where
  mrspType := mrspStatType
  mrspStat :=
    { mstatMode := st.stMode
      mstatSize := st.stSize
      mstatBlocks := st.stBlocks
      mstatBlksize := st.stBlksize }

def dataAnswer (bytes : List UInt8) : Response where
  mrspType := mrspDataType
  mrspData := { mdataNbytes := UInt64.ofNat bytes.length, mdataBuf := some bytes }

def dirAnswer (entries : List (CStr × UInt8)) : Response where
  mrspType := mrspDirType
  mrspDir :=
    { mdirCount := UInt64.ofNat entries.length, mdirEnts := some (entries.map direntOf) }

end Responses

section Handlers
variable {φ β : Type} (conf : ClientConf) (os : Os φ) (malloc : Nat → Bool)

/-- The responder makes the call for the request, and answers with what it came to. -/
def Performs (outPkt : Packet) (call : Sys φ β) (respond : β → Response) : Prop :=
  ∀ files, ∃ rsp,
    handleRequest conf os malloc outPkt zeroPacket files =
      .ok (.hsSuc, responsePacket rsp, (call files).2) ∧
    rsp.live = (answerOf respond (call files).1).live

variable {outPkt : Packet} {path : CStr}

theorem performs_of_type {call : Sys φ β} {respond : β → Response}
    (held : outPkt.mpktRequest.mreqRsrc.mrPath = some path)
    (answered : ∀ files, ∃ answer,
      handleRequestType conf os malloc (middfsLocalpathTmp conf path) outPkt.mpktRequest {} files =
        .ok (some (answer, (call files).2)) ∧ Tells respond (call files).1 answer) :
    Performs conf os malloc outPkt call respond := by
  intro files
  obtain ⟨⟨status, rsp⟩, handled, tells⟩ := answered files
  refine ⟨_, handleRequest_answer conf os malloc held handled, ?_⟩
  cases result : (call files).1 with
  | error errno =>
      rw [result] at tells
      rw [show status = negErrno errno from tells, if_pos (negErrno_neg errno), neg_negErrno]
      rfl
  | ok value =>
      rw [result] at tells
      obtain ⟨zero, same⟩ := tells
      rw [show status = 0 from zero, if_neg (by decide)]
      exact same

theorem performs_getattr (held : outPkt.mpktRequest.mreqRsrc.mrPath = some path)
    (type : outPkt.mpktRequest.mreqType = mreqGetattr) :
    Performs conf os malloc outPkt (os.stat (middfsLocalpathTmp conf path)) statAnswer := by
  refine performs_of_type conf os malloc held fun files => ?_
  rw [handleRequestType, type, if_pos rfl, handleRequestGetattr]
  obtain ⟨errno | st, files'⟩ := os.stat (middfsLocalpathTmp conf path) files
  · exact ⟨_, rfl, rfl⟩
  · exact ⟨_, rfl, rfl, rfl⟩

theorem performs_access (held : outPkt.mpktRequest.mreqRsrc.mrPath = some path)
    (type : outPkt.mpktRequest.mreqType = mreqAccess) :
    Performs conf os malloc outPkt (os.access (middfsLocalpathTmp conf path) outPkt.mpktRequest.mreqMode)
      okAnswer := by
  refine performs_of_type conf os malloc held fun files => ?_
  rw [handleRequestType, type, if_neg (by decide), if_neg (by decide), if_pos rfl, handleRequestAccess]
  obtain ⟨errno | _, files'⟩ :=
    os.access (middfsLocalpathTmp conf path) outPkt.mpktRequest.mreqMode files
  · exact ⟨_, rfl, rfl⟩
  · exact ⟨_, rfl, rfl, rfl⟩

theorem performs_open (held : outPkt.mpktRequest.mreqRsrc.mrPath = some path)
    (type : outPkt.mpktRequest.mreqType = mreqOpen) :
    Performs conf os malloc outPkt (os.tried (middfsLocalpathTmp conf path) outPkt.mpktRequest.mreqMode)
      okAnswer := by
  refine performs_of_type conf os malloc held fun files => ?_
  rw [handleRequestType, type, if_neg (by decide), if_neg (by decide), if_neg (by decide), if_pos rfl,
    handleRequestOpen, Os.tried, Os.opened]
  obtain ⟨errno | fd, files'⟩ :=
    os.openFile (middfsLocalpathTmp conf path) outPkt.mpktRequest.mreqMode openMode files
  · exact ⟨_, rfl, rfl⟩
  · exact ⟨_, rfl, rfl, rfl⟩

theorem performs_truncate (held : outPkt.mpktRequest.mreqRsrc.mrPath = some path)
    (type : outPkt.mpktRequest.mreqType = mreqTruncate) :
    Performs conf os malloc outPkt
      (os.truncate (middfsLocalpathTmp conf path) (offT outPkt.mpktRequest.mreqSize)) okAnswer := by
  refine performs_of_type conf os malloc held fun files => ?_
  rw [handleRequestType, type, if_neg (by decide), if_neg (by decide), if_neg (by decide),
    if_neg (by decide), if_pos rfl, handleRequestTruncate]
  obtain ⟨errno | _, files'⟩ :=
    os.truncate (middfsLocalpathTmp conf path) (offT outPkt.mpktRequest.mreqSize) files
  · exact ⟨_, rfl, rfl⟩
  · exact ⟨_, rfl, rfl, rfl⟩

theorem performs_rename (held : outPkt.mpktRequest.mreqRsrc.mrPath = some path)
    (type : outPkt.mpktRequest.mreqType = mreqRename) {target : CStr}
    (renamed : outPkt.mpktRequest.mreqTo.mrPath = some target) :
    Performs conf os malloc outPkt
      (os.rename (middfsLocalpathTmp conf path) (middfsLocalpathTmp conf target)) okAnswer := by
  refine performs_of_type conf os malloc held fun files => ?_
  rw [handleRequestType_rename conf os malloc type, handleRequestRename, renamed]
  simp only
  obtain ⟨errno | _, files'⟩ :=
    os.rename (middfsLocalpathTmp conf path) (middfsLocalpathTmp conf target) files
  · exact ⟨_, rfl, rfl⟩
  · exact ⟨_, rfl, rfl, rfl⟩

theorem performs_read (held : outPkt.mpktRequest.mreqRsrc.mrPath = some path)
    (type : outPkt.mpktRequest.mreqType = mreqRead) :
    Performs conf os malloc outPkt
      (os.fetched malloc (middfsLocalpathTmp conf path) outPkt.mpktRequest.mreqSize
        (offT outPkt.mpktRequest.mreqOff)) dataAnswer := by
  refine performs_of_type conf os malloc held fun files => ?_
  rw [handleRequestType_read conf os type, handleRequestFd, Os.fetched, Os.opened]
  obtain ⟨errno | fd, files'⟩ := os.openFile (middfsLocalpathTmp conf path) oRdwr 0 files
  · exact ⟨_, rfl, rfl⟩
  simp only [handleRequestRead]
  split_ifs with granted
  · obtain ⟨errno | bytes, files''⟩ := os.pread fd outPkt.mpktRequest.mreqSize.toNat
      (offT outPkt.mpktRequest.mreqOff) files'
    · exact ⟨_, rfl, rfl⟩
    · exact ⟨_, rfl, rfl, rfl⟩
  · exact ⟨_, rfl, rfl⟩

theorem performs_write (held : outPkt.mpktRequest.mreqRsrc.mrPath = some path)
    (type : outPkt.mpktRequest.mreqType = mreqWrite) {buf : List UInt8}
    (source : writeSource outPkt.mpktRequest = some buf) :
    Performs conf os malloc outPkt
      (os.stored (middfsLocalpathTmp conf path) buf (offT outPkt.mpktRequest.mreqOff)) okAnswer := by
  refine performs_of_type conf os malloc held fun files => ?_
  rw [handleRequestType_write conf os malloc type, handleRequestFd, Os.stored, Os.opened]
  obtain ⟨errno | fd, files'⟩ := os.openFile (middfsLocalpathTmp conf path) oRdwr 0 files
  · exact ⟨_, rfl, rfl⟩
  simp only [handleRequestWrite, source]
  obtain ⟨errno | count, files''⟩ := os.pwrite fd buf (offT outPkt.mpktRequest.mreqOff) files'
  · exact ⟨_, rfl, rfl⟩
  · exact ⟨_, rfl, rfl, rfl⟩

theorem performs_readdir (held : outPkt.mpktRequest.mreqRsrc.mrPath = some path)
    (type : outPkt.mpktRequest.mreqType = mreqReaddir) :
    Performs conf os malloc outPkt (os.listed malloc (middfsLocalpathTmp conf path)) dirAnswer := by
  refine performs_of_type conf os malloc held fun files => ?_
  rw [handleRequestType, type, if_neg (by decide), if_pos rfl, handleRequestReaddir, Os.listed]
  obtain ⟨errno | entries, files'⟩ := os.opendir (middfsLocalpathTmp conf path) files
  · exact ⟨_, rfl, rfl⟩
  simp only
  by_cases allocated : malloc (entries.length * sizeofDirent) = true
  · rw [if_pos allocated]
    rcases handleRequestDirents_cases malloc entries with ⟨done, all⟩ | ⟨stopped, entry, member, lost⟩
    · have both : malloc (entries.length * sizeofDirent) = true ∧
          ∀ entry ∈ entries, malloc (entry.1.val.length + 1) = true := ⟨allocated, all⟩
      rw [done]
      simp only [if_true, if_pos both]
      exact ⟨_, rfl, rfl, rfl⟩
    · have notBoth : ¬ (malloc (entries.length * sizeofDirent) = true ∧
          ∀ entry ∈ entries, malloc (entry.1.val.length + 1) = true) :=
        fun both => lost (both.2 entry member)
      simp only [stopped, Bool.false_eq_true, if_false, if_neg notBoth]
      exact ⟨_, rfl, rfl⟩
  · rw [if_neg allocated, if_neg fun both => allocated both.1]
    exact ⟨_, rfl, rfl⟩

end Handlers

/-! ## Responses on the way -/

def Response.Roomy (rsp : Response) : Prop :=
  rsp.mrspType = mrspDirType → rsp.mrspDir.mdirCount.toNat * sizeofDirent < 2 ^ 63

theorem Response.Roomy.of_live {rsp other : Response} (same : rsp.live = other.live) (roomy : other.Roomy) :
    rsp.Roomy := by
  intro isDir
  have type : rsp.mrspType = other.mrspType := by rw [← Response.live_type, same, Response.live_type]
  have isDir' : other.mrspType = mrspDirType := type ▸ isDir
  have dirs := congrArg Response.mrspDir same
  simp only [Response.live, isDir, isDir', rspTypes_differ, if_true, if_false, Dir.mk.injEq] at dirs
  rw [dirs.1]
  exact roomy isDir'

theorem Packet.live_response {pkt rsp : Packet} (same : pkt.live = rsp.live)
    (response : rsp.mpktType = mpktResponseType) : pkt.mpktResponse.live = rsp.mpktResponse.live := by
  have type : pkt.mpktType = mpktResponseType := (congrArg Packet.mpktType same).trans response
  have responses := congrArg Packet.mpktResponse same
  simpa only [Packet.live, if_pos type, if_pos response] using responses

theorem carry_sendable {rsp : Packet} (sendable : rsp.Sendable) (roomy : rsp.mpktResponse.Roomy) :
    ∃ got, carry rsp = some got ∧ got.live = rsp.live ∧ got.Sendable ∧ got.mpktResponse.Roomy := by
  have granted : zeroPacket.Grants memory rsp := fun _ isDir =>
    ⟨_, if_pos (memory_small _ (roomy isDir))⟩
  have bound : (rsp.wire ++ []).length < 2 ^ 63 := by
    rw [List.append_nil]
    exact sendable.small
  obtain ⟨decoded, read, _⟩ := deserializePkt_wire memory_small sendable.whole granted
    (zeroPacket_ready _) bound
  have complete := outcome_of_complete bound read rfl (by simp)
  rw [List.append_nil, ← sendable.image] at complete
  obtain ⟨got, carried, live, sendable', _⟩ := carry_decodable sendable complete
  exact ⟨got, carried, live, sendable', roomy.of_live (Packet.live_response live sendable.response)⟩

/-! ## The exchange -/

structure Asks (outPkt : Packet) (owner : CStr) : Prop where
  type : outPkt.mpktType = mpktRequestType
  request : outPkt.mpktRequest.WellFormed
  survives : outPkt.SurvivesCast
  owner : lookedUp outPkt.mpktRequest = some owner
  fits : outPkt.wire.length < 2 ^ 63

section Net
variable {φ β : Type} (net : Net φ)

/-- The error that stands for an owner who is not reached.  One that cannot be connected to
is not answered for: where `in_pkt` was zeroed, `response_validate` makes EIO of it. -/
def Net.refusal (owner : CStr) : Option Errno :=
  if (clientFind net.lib owner net.clients).isNone then some noEntry
  else if net.connects owner then none
  else some lostExchange

/-- A call that is made on the machine of `owner`, if he can be reached. -/
def Net.remotely (owner : CStr) (call : Sys φ β) : Sys (World φ) β := fun world =>
  match net.refusal owner with
  | some errno => (.error errno, world)
  | none => onMachine owner call world

inductive Net.Answers (owner : CStr) (call : Sys φ β) (respond : β → Response) (inPkt : Packet)
    (world : World φ) : Except Trap ((Int32 × Packet) × World φ) → Prop where
  | answered (got : Packet) :
      net.refusal owner ≠ some lostExchange →
      got.live = (responsePacket (answerOf respond (net.remotely owner call world).1)).live →
      Net.Answers owner call respond inPkt world (.ok ((0, got), (net.remotely owner call world).2))
  | lost : net.refusal owner = some lostExchange →
      Net.Answers owner call respond inPkt world (.ok ((0, inPkt), world))

/-- The responders' files hold and read no more than can be sent, and `malloc` gives no
more than an object can have. -/
structure Net.Modest : Prop where
  os : ∀ owner, (net.os owner).Modest
  objects : ∀ owner size, net.malloc owner size = true → size < 2 ^ 63

variable {net} {outPkt : Packet} {owner : CStr} {call : Sys φ β} {respond : β → Response}

theorem Net.xchg_answers (modest : net.Modest) (asks : Asks outPkt owner)
    (performs : Performs (net.conf owner) (net.os owner) (net.malloc owner) outPkt call respond)
    (roomy : ∀ files value, (call files).1 = .ok value → (respond value).Roomy) (inPkt : Packet)
    (world : World φ) : net.Answers owner call respond inPkt world (net.xchg outPkt inPkt world) := by
  obtain ⟨served, first, _, root, name, received, second, live, _⟩ :=
    Net.xchg_served asks.type asks.request asks.survives asks.owner asks.fits
  have request := (Packet.live_request live asks.type).2
  cases found : clientFind net.lib owner net.clients with
  | none =>
      have refused : net.refusal owner = some noEntry := by
        rw [Net.refusal, found]
        rfl
      have refusal : (packetError zeroPacket enoent).Sendable := sendable_error rfl
      obtain ⟨got, carried, same, _⟩ := carry_sendable refusal fun no => absurd no (by decide)
      have away : net.remotely owner call world = (.error noEntry, world) := by
        rw [Net.remotely, refused]
      have exchanged : net.xchg outPkt inPkt world =
          .ok ((0, got), (net.remotely owner call world).2) := by
        rw [away]
        simp only [Net.xchg, first, Net.serve, root, Bool.false_eq_true, if_false, name, found, carried]
      rw [exchanged]
      refine .answered got (by rw [refused]; decide) ?_
      rw [away]
      exact same
  | some client =>
      cases connected : net.connects owner with
      | false =>
          have refused : net.refusal owner = some lostExchange := by
            rw [Net.refusal, found, connected]
            rfl
          have exchanged : net.xchg outPkt inPkt world = .ok ((0, inPkt), world) := by
            simp only [Net.xchg, first, Net.serve, root, Bool.false_eq_true, if_false, name, found, connected]
          rw [exchanged]
          exact .lost refused
      | true =>
          have admitted : net.refusal owner = none := by
            rw [Net.refusal, found, connected]
            rfl
          have there : net.remotely owner call world = onMachine owner call world := by
            rw [Net.remotely, admitted]
          obtain ⟨rsp, handled, answer⟩ := performs (world owner)
          have sendable := (handleRequest_sendable (modest.os owner) handled (fun no => by cases no)).2
          have roomy' : rsp.Roomy := by
            refine Response.Roomy.of_live answer ?_
            cases result : (call (world owner)).1 with
            | error errno => exact fun no => absurd no (show ¬ mrspErrorType = mrspDirType by decide)
            | ok value => exact roomy _ value result
          obtain ⟨passed, out, same, sendable', roomy''⟩ := carry_sendable sendable roomy'
          obtain ⟨got, back, same', _⟩ := carry_sendable sendable' roomy''
          have exchanged : net.xchg outPkt inPkt world =
              .ok ((0, got), (net.remotely owner call world).2) := by
            rw [there, onMachine]
            simp only [Net.xchg, first, Net.serve, root, Bool.false_eq_true, if_false, name, found, connected,
              if_true, second, Net.respond, handleRequest_live _ _ _ request, handled, out, back]
          rw [exchanged]
          refine .answered got (by rw [admitted]; intro no; cases no) ?_
          rw [same', same, there]
          have live' : (responsePacket rsp).live =
              { zeroPacket with
                mpktMagic := mpktMagicNumber, mpktType := mpktResponseType, mpktResponse := rsp.live } := rfl
          rw [live', answer]
          rfl

end Net

/-! ## What the client makes of it -/

/-- What `stat` gives is put together with what the client knows of himself. -/
def seenBy {σ : Type} (os : Os σ) : Except Errno Statbuf → Statbuf
  | .error _ => {}
  | .ok st =>
      { stMode := st.stMode
        stSize := st.stSize
        stBlocks := st.stBlocks
        stBlksize := st.stBlksize
        stUid := os.uid
        stGid := os.gid
        stNlink := 1 }

def countOf (size : UInt64) : Except Errno (List UInt8) → Int32 × List UInt8
  | .error errno => (negErrno errno, [])
  | .ok bytes => (Int32.ofNat (bytes.take size.toNat).length, bytes.take size.toNat)

def shown {β : Type} (full : Nat → Bool) : Nat → List β → List β
  | _, [] => []
  | i, entry :: entries => entry :: if full i then [] else shown full (i + 1) entries

def listingOf (full : Nat → Bool) : Except Errno (List (CStr × UInt8)) → List (Option CStr × Int32)
  | .error _ => []
  | .ok entries => (shown full 0 entries).map fun entry => (some entry.1, Int32.ofNat (entry.2.toNat <<< 12))

theorem fillEntries_shown {β : Type} (full : Nat → Bool) (i : Nat) (entries more : List β) :
    fillEntries full entries.length i (entries ++ more) = .ok (shown full i entries) := by
  induction entries generalizing i with
  | nil => rw [List.length_nil, fillEntries, shown]
  | cons entry entries ih =>
      rw [List.length_cons, List.cons_append, fillEntries, shown, ih]
      split_ifs <;> rfl

theorem shown_map {β γ : Type} (f : β → γ) (full : Nat → Bool) (i : Nat) (entries : List β) :
    shown full i (entries.map f) = (shown full i entries).map f := by
  induction entries generalizing i with
  | nil => rfl
  | cons entry entries ih =>
      simp only [List.map_cons, shown, ih]
      split_ifs <;> rfl

theorem memcpyFrom_take {src : Option (List UInt8)} {bytes : List UInt8}
    (copied : memcpyFrom src bytes.length = .ok bytes) (n : Nat) :
    memcpyFrom src (min n bytes.length) = .ok (bytes.take n) := by
  by_cases holds : BytesThere src bytes.length
  · have all := (memcpyFrom_holds.1 holds).symm.trans copied
    have taken : (src.getD []).take bytes.length = bytes := by simpa using all
    have fewer : BytesThere src (min n bytes.length) := by
      unfold BytesThere at holds ⊢
      omega
    rw [memcpyFrom_holds.1 fewer, ← List.take_take, taken]
  · rw [memcpyFrom_holds.2 holds] at copied
    cases copied

section Answered
variable {β : Type} {respond : β → Response} {result : Except Errno β} {got : Packet}
variable (same : got.live = (responsePacket (answerOf respond result)).live)
include same

theorem answered_error {errno : Errno} (failed : result = .error errno) :
    got.Answers mrspErrorType ∧ negateInt got.mpktResponse.mrspError = .ok (negErrno errno) := by
  subst failed
  have error : (errorResponse (Int32.ofNat errno.val)).Answers mrspErrorType := ⟨rfl, rfl, rfl⟩
  have code : got.mpktResponse.mrspError = Int32.ofNat errno.val := error_of_live same error
  exact ⟨(answers_of_live same _).mpr error, code ▸ (negateInt_pos (errno_pos errno)).1⟩

theorem answered_ok {value : β} (done : result = .ok value) :
    got.Answers (respond value).mrspType ∧ got.mpktResponse.live = (respond value).live := by
  subst done
  exact ⟨(answers_of_live same _).mpr ⟨rfl, rfl, rfl⟩, Packet.live_response same rfl⟩

theorem validate_answered {type : UInt32} (expects : ∀ value, (respond value).mrspType = type)
    (notError : type ≠ mrspErrorType) : responseValidate got type = .ok (statusOf result) := by
  cases failed : result with
  | error errno =>
      obtain ⟨error, negated⟩ := answered_error same failed
      rcases responseValidate_cases got type with ⟨answers, _⟩ | ⟨_, _, valid⟩ | ⟨_, no, _⟩
      · exact absurd (answers.unique error) notError
      · rw [valid, negated]
        rfl
      · exact absurd error no
  | ok value =>
      have answers := (answered_ok same failed).1
      rw [expects] at answers
      rcases responseValidate_cases got type with ⟨_, valid⟩ | ⟨no, _⟩ | ⟨no, _⟩
      · exact valid
      · exact absurd answers no
      · exact absurd answers no

end Answered

theorem statusOf_error_neg {β : Type} (errno : Errno) : statusOf (.error errno : Except Errno β) < 0 :=
  negErrno_neg errno

theorem statusOf_ok_nonneg {β : Type} (value : β) : ¬ statusOf (.ok value : Except Errno β) < 0 :=
  show ¬ (0 : Int32) < 0 by decide

theorem statusOf_settled {β : Type} (result : Except Errno β) :
    (if statusOf result < 0 then statusOf result else 0) = statusOf result := by
  cases result with
  | error errno => exact if_pos (statusOf_error_neg errno)
  | ok value => exact if_neg (statusOf_ok_nonneg value)

section Operations
variable {φ β : Type} {net : Net φ} {outPkt inPkt : Packet} {owner : CStr} {world : World φ}
variable (conf : ClientConf) (os : Os (World φ)) {rsrc : Rsrc} {fd : Int}

theorem Net.remotely_lost (call : Sys φ β) (lost : net.refusal owner = some lostExchange) :
    net.remotely owner call world = (.error lostExchange, world) := by
  rw [Net.remotely, lost]

theorem Net.requestOk_answers {call : Sys φ β}
    (answers : net.Answers owner call okAnswer zeroPacket world (net.xchg outPkt zeroPacket world)) :
    requestOk net.xchg outPkt world =
      .ok (statusOf (net.remotely owner call world).1, (net.remotely owner call world).2) := by
  generalize exchanged : net.xchg outPkt zeroPacket world = result at answers
  cases answers with
  | answered got _ same =>
      have received : ¬ (0 : Int32) < 0 := by decide
      have valid : responseValidate got mrspOk = .ok (statusOf (net.remotely owner call world).1) :=
        validate_answered same (fun _ => rfl) (by decide)
      simp only [requestOk, exchanged, if_neg received, valid, statusOf_settled]
  | lost refused =>
      rw [requestOk_unfilled exchanged, Net.remotely_lost call refused]
      rfl

/-- What is made of an `in_pkt` that was not filled in. -/
def staleStat {σ : Type} (os : Os σ) (junk : Packet) : Except Trap (Int32 × Statbuf) :=
  match responseValidate junk mrspStatType with
  | .error trap => .error trap
  | .ok retv =>
      if retv < 0 then .ok (retv, {})
      else
        let mstat := junk.mpktResponse.statMember
        .ok
          (0,
            seenBy os <| .ok
              { stMode := mstat.mstatMode
                stSize := mstat.mstatSize
                stBlocks := mstat.mstatBlocks
                stBlksize := mstat.mstatBlksize })

/-- What a request for attributes comes to, with the packet that is there for the answer. -/
def Net.attributes (net : Net φ) (owner : CStr) (call : Sys φ Statbuf) (junk : Packet) (world : World φ) :
    Except Trap (Int32 × Statbuf × World φ) :=
  if net.refusal owner = some lostExchange then
    match staleStat os junk with
    | .error trap => .error trap
    | .ok (retv, st) => .ok (retv, st, world)
  else
    .ok (statusOf (net.remotely owner call world).1, seenBy os (net.remotely owner call world).1,
      (net.remotely owner call world).2)

theorem Net.attributes_settled {os : Os (World φ)} {call : Sys φ Statbuf} {junk : Packet}
    {reply : Int32 × Statbuf × World φ} (came : net.attributes os owner call junk world = .ok reply) :
    (if reply.1 < 0 then reply.1 else 0) = reply.1 := by
  unfold Net.attributes staleStat at came
  split_ifs at came with lost
  · cases valid : responseValidate junk mrspStatType with
    | error trap =>
        rw [valid] at came
        cases came
    | ok retv =>
        simp only [valid] at came
        split_ifs at came with negative
        · cases came
          exact if_pos negative
        · cases came
          rfl
  · cases came
    exact statusOf_settled _

theorem Net.lstat_answers {call : Sys φ Statbuf}
    (answers : net.Answers owner call statAnswer inPkt world
      (net.xchg (requestPacket conf mreqGetattr rsrc) inPkt world)) :
    clientRsrcLstat conf os net.xchg inPkt ⟨.mrNetwork, rsrc, fd⟩ world =
      net.attributes os owner call inPkt world := by
  generalize exchanged : net.xchg (requestPacket conf mreqGetattr rsrc) inPkt world = result at answers
  cases answers with
  | answered got reached same =>
      rw [Net.attributes, if_neg reached]
      have received : ¬ (0 : Int32) < 0 := by decide
      have valid : responseValidate got mrspStatType = .ok (statusOf (net.remotely owner call world).1) :=
        validate_answered same (fun _ => rfl) (by decide)
      simp only [clientRsrcLstat, exchanged, if_neg received, valid]
      cases came : (net.remotely owner call world).1 with
      | error errno =>
          rw [if_pos (statusOf_error_neg errno)]
          rfl
      | ok st =>
          obtain ⟨⟨_, _, type⟩, live⟩ := answered_ok same came
          have isStat : got.mpktResponse.mrspType = mrspStatType := type
          have isStat' : (statAnswer st).mrspType = mrspStatType := rfl
          have stats := congrArg Response.mrspStat live
          simp only [Response.live, isStat, isStat', rspTypes_differ, if_true, if_false] at stats
          have member : got.mpktResponse.statMember = (statAnswer st).mrspStat := by
            rw [Response.statMember, isStat, if_neg (by decide), stats]
          rw [if_neg (statusOf_ok_nonneg st), member]
          rfl
  | lost refused =>
      have received : ¬ (0 : Int32) < 0 := by decide
      rw [Net.attributes, if_pos refused]
      simp only [clientRsrcLstat, exchanged, if_neg received, staleStat]
      cases responseValidate inPkt mrspStatType with
      | error trap => rfl
      | ok retv =>
          simp only
          split_ifs <;> rfl

theorem Net.read_answers {call : Sys φ (List UInt8)} {size : UInt64} {offset : Int64}
    (answers : net.Answers owner call dataAnswer zeroPacket world
      (net.xchg (readPacket conf rsrc size offset) zeroPacket world))
    (bounded : ∀ bytes, (net.remotely owner call world).1 = .ok bytes → bytes.length < 2 ^ 31) :
    clientRsrcRead conf os net.xchg ⟨.mrNetwork, rsrc, fd⟩ size offset world =
      .ok ((countOf size (net.remotely owner call world).1).1,
        (countOf size (net.remotely owner call world).1).2, (net.remotely owner call world).2) := by
  generalize exchanged : net.xchg (readPacket conf rsrc size offset) zeroPacket world = result at answers
  unfold readPacket at exchanged
  cases answers with
  | answered got _ same =>
      have received : ¬ (0 : Int32) < 0 := by decide
      cases came : (net.remotely owner call world).1 with
      | error errno =>
          obtain ⟨error, negated⟩ := answered_error same came
          have notData : ¬ got.mpktResponse.mrspType = mrspDataType := by
            rw [error.2.2]
            decide
          simp only [clientRsrcRead, exchanged, if_neg received, if_neg error.intact, if_neg notData,
            if_pos error.2.2, negated]
          rfl
      | ok bytes =>
          obtain ⟨data, _⟩ := answered_ok same came
          rw [came] at same
          obtain ⟨count, copied⟩ := dataResponse_live (bounded bytes came) same
          have isData : got.mpktResponse.mrspType = mrspDataType := data.2.2
          simp only [clientRsrcRead, exchanged, if_neg received, if_neg data.intact, if_pos isData, count,
            memcpyFrom_take copied, countOf, List.length_take]
  | lost refused =>
      have received : ¬ (0 : Int32) < 0 := by decide
      have unmarked : zeroPacket.mpktMagic ≠ mpktMagicNumber := by decide
      rw [Net.remotely_lost call refused]
      simp only [clientRsrcRead, exchanged, if_neg received]
      rfl

theorem Net.readdir_answers {call : Sys φ (List (CStr × UInt8))} (full : Nat → Bool)
    (answers : net.Answers owner call dirAnswer zeroPacket world
      (net.xchg (requestPacket conf mreqReaddir rsrc) zeroPacket world))
    (bounded : ∀ entries, (net.remotely owner call world).1 = .ok entries → entries.length < 2 ^ 62) :
    clientRsrcReaddir conf os net.xchg full ⟨.mrNetwork, rsrc, fd⟩ world =
      .ok (statusOf (net.remotely owner call world).1, listingOf full (net.remotely owner call world).1,
        ⟨.mrNetwork, rsrc, fd⟩, (net.remotely owner call world).2) := by
  generalize exchanged : net.xchg (requestPacket conf mreqReaddir rsrc) zeroPacket world = result at answers
  cases answers with
  | answered got _ same =>
      have received : ¬ (0 : Int32) < 0 := by decide
      have valid : responseValidate got mrspDirType = .ok (statusOf (net.remotely owner call world).1) :=
        validate_answered same (fun _ => rfl) (by decide)
      simp only [clientRsrcReaddir, exchanged, if_neg received, valid]
      cases came : (net.remotely owner call world).1 with
      | error errno =>
          rw [if_pos (statusOf_error_neg errno)]
          rfl
      | ok entries =>
          obtain ⟨⟨_, _, type⟩, live⟩ := answered_ok same came
          have isDir : got.mpktResponse.mrspType = mrspDirType := type
          have isDir' : (dirAnswer entries).mrspType = mrspDirType := rfl
          have dirs := congrArg Response.mrspDir live
          simp only [Response.live, isDir, isDir', rspTypes_differ, if_true, if_false, Dir.mk.injEq,
            Option.some.injEq] at dirs
          obtain ⟨count, own⟩ := dirs
          have length : (UInt64.ofNat entries.length).toNat = (entries.map direntOf).length := by
            rw [toNat_length (bounded entries came), List.length_map]
          have count' : got.mpktResponse.mrspDir.mdirCount.toNat = (entries.map direntOf).length := by
            rw [count]
            exact length
          have sent : (dirAnswer entries).mrspDir.entries = entries.map direntOf := by
            show (entries.map direntOf).take (UInt64.ofNat entries.length).toNat = _
            rw [length, List.take_length]
          have front : (got.mpktResponse.mrspDir.mdirEnts.getD []).take (entries.map direntOf).length =
              entries.map direntOf := by
            rw [← count']
            exact own.trans sent
          have split := List.take_append_drop (entries.map direntOf).length
            (got.mpktResponse.mrspDir.mdirEnts.getD [])
          rw [front] at split
          have member : got.mpktResponse.dirMember = got.mpktResponse.mrspDir := by
            rw [Response.dirMember, isDir, if_neg (by decide)]
          rw [if_neg (statusOf_ok_nonneg entries)]
          simp only [member, count']
          rw [← split, fillEntries_shown, shown_map]
          simp only [listingOf, List.map_map]
          rfl
  | lost refused =>
      have received : ¬ (0 : Int32) < 0 := by decide
      have valid : responseValidate zeroPacket mrspDirType = .ok (-eio) := rfl
      rw [Net.remotely_lost call refused]
      simp only [clientRsrcReaddir, exchanged, if_neg received, valid]
      rfl

/-- What a write comes to.  An error that the owner reports is taken for a bug, and what
is there for the answer, for the answer. -/
def Net.written (net : Net φ) (malloc : Nat → Bool) (junk : Packet) (owner : CStr) (call : Sys φ Nat)
    (size : Nat) (world : World φ) : Except Trap (Int32 × World φ) :=
  if conf.username.val = [] then .error .assertFail
  else if malloc (conf.username.val.length + 1) ∧ malloc size then
    if net.refusal owner = some lostExchange then
      if junk.Answers mrspOk then .ok (Int32.ofNat size, world) else .error .assertFail
    else
      match net.remotely owner call world with
      | (.error _, _) => .error .assertFail
      | (.ok _, world) => .ok (Int32.ofNat size, world)
  else .ok (negErrno noMemory, world)

theorem Net.write_answers {call : Sys φ Nat} (malloc : Nat → Bool) {buf : List UInt8} {offset : Int64}
    (short : buf.length < 2 ^ 62)
    (answers : net.Answers owner call okAnswer inPkt world
      (net.xchg (writePacket conf rsrc buf offset) inPkt world)) :
    clientRsrcWrite conf os net.xchg malloc inPkt ⟨.mrNetwork, rsrc, fd⟩ buf offset world =
      net.written conf malloc inPkt owner call buf.length world := by
  generalize exchanged : net.xchg (writePacket conf rsrc buf offset) inPkt world = result at answers
  unfold writePacket at exchanged
  have received : ¬ (0 : Int32) < 0 := by decide
  simp only [clientRsrcWrite, Net.written]
  split_ifs with unnamed granted lost stale
  · rfl
  · rw [exchanged]
    cases answers with
    | answered got reached _ => exact absurd lost reached
    | lost _ =>
        simp only [if_neg received]
        rw [if_pos (show _ ∧ _ ∧ _ from stale), toNat_length short]
  · rw [exchanged]
    cases answers with
    | answered got reached _ => exact absurd lost reached
    | lost _ =>
        simp only [if_neg received]
        rw [if_neg (show ¬ (_ ∧ _ ∧ _) from stale)]
  · rw [exchanged]
    cases answers with
    | answered got _ same =>
        simp only [if_neg received]
        cases came : net.remotely owner call world with
        | mk result world' =>
            rw [came] at same
            cases result with
            | error errno =>
                have error := (answered_error same rfl).1
                have notOk : ¬ got.Answers mrspOk := fun ok => absurd (ok.unique error) (by decide)
                rw [if_neg (show ¬ (_ ∧ _ ∧ _) from notOk)]
            | ok count =>
                have ok : got.Answers mrspOk := (answered_ok same rfl).1
                rw [if_pos (show _ ∧ _ ∧ _ from ok), toNat_length short]
    | lost refused => exact absurd refused lost
  · rfl

end Operations

/-! ## The requests -/

structure RemoteFile where
  owner : CStr
  path : CStr

def RemoteFile.rsrc (file : RemoteFile) : Rsrc := ⟨some file.owner, some file.path⟩

/-- The path is not the one of a root, and a request with it fits into memory. -/
structure RemoteFile.Brief (file : RemoteFile) : Prop where
  rooted : file.path.val ≠ []
  owner : file.owner.val.length < 2 ^ 60
  path : file.path.val.length < 2 ^ 60

theorem onlyIf_length_le (cond : Bool) (bytes : List UInt8) : (onlyIf cond bytes).length ≤ bytes.length := by
  unfold onlyIf
  split_ifs <;> simp

theorem request_wire_le {pkt : Packet} (type : pkt.mpktType = mpktRequestType) :
    pkt.wire.length ≤ 32 + (strWire pkt.mpktRequest.mreqRequester).length +
      pkt.mpktRequest.mreqRsrc.wire.length + pkt.mpktRequest.mreqTo.wire.length +
      pkt.mpktRequest.payload.length := by
  have mode : (onlyIf (reqHasMode pkt.mpktRequest.mreqType) (htonlInt pkt.mpktRequest.mreqMode)).length ≤ 4 :=
    (onlyIf_length_le _ _).trans (htonl_length _).le
  have size : (onlyIf (reqHasSize pkt.mpktRequest.mreqType) (htonll pkt.mpktRequest.mreqSize)).length ≤ 8 :=
    (onlyIf_length_le _ _).trans (htonll_length _).le
  have target := onlyIf_length_le (reqHasTo pkt.mpktRequest.mreqType) pkt.mpktRequest.mreqTo.wire
  have off : (onlyIf (reqHasOff pkt.mpktRequest.mreqType) (htonll pkt.mpktRequest.mreqOff)).length ≤ 8 :=
    (onlyIf_length_le _ _).trans (htonll_length _).le
  simp only [Packet.wire, Packet.wireHead, Packet.wireUnion, Packet.payload, if_pos type, Request.wireHead,
    List.length_append, htonl_length]
  omega

def plainPacket (conf : ClientConf) (type : UInt32) (rsrc : Rsrc) (mode : Int32) (size off : UInt64) : Packet :=
  { requestPacket conf type rsrc with
    mpktRequest := { (requestPacket conf type rsrc).mpktRequest with
      mreqMode := mode, mreqSize := size, mreqOff := off } }

theorem lookedUp_owner {file : RemoteFile} (rooted : file.path.val ≠ []) {req : Request}
    (names : req.mreqRsrc = file.rsrc) : lookedUp req = some file.owner := by
  have notRoot : file.path.val.isEmpty = false := by simpa using rooted
  rw [lookedUp, rootRequested, names]
  show (if file.path.val.isEmpty then none else some file.owner) = _
  rw [notRoot]
  rfl

section Requests
variable {conf : ClientConf} (named : conf.username.val.length < 2 ^ 60) {file : RemoteFile}
variable (brief : file.Brief)
include named brief

theorem asks_plain {type : UInt32} {mode : Int32} {size off : UInt64} (noTarget : reqHasTo type = false)
    (noData : reqHasData type = false) (sizeFits : reqHasSize type = true → FitsInt32 size)
    (offFits : reqHasOff type = true → FitsInt32 off) :
    Asks (plainPacket conf type file.rsrc mode size off) file.owner where
  type := rfl
  request := (requests_plain conf ⟨rfl, rfl⟩ mode size off noTarget noData).request
  survives := fun _ => ⟨sizeFits, offFits⟩
  owner := lookedUp_owner brief.rooted rfl
  fits := by
    refine Nat.lt_of_le_of_lt (request_wire_le rfl) ?_
    have owner := brief.owner
    have path := brief.path
    show 32 + (strWire (some conf.username)).length + file.rsrc.wire.length + ([] : List UInt8).length +
      (if reqHasData type then _ else ([] : List UInt8)).length < _
    rw [noData]
    simp only [RemoteFile.rsrc, Rsrc.wire, strWire, List.length_append, List.length_singleton, List.length_nil,
      Bool.false_eq_true, if_false]
    omega

theorem asks_rename {target : RemoteFile} (brief' : target.Brief) :
    Asks (renamePacket conf file.rsrc target.rsrc) file.owner where
  type := rfl
  request := (requests_rename conf ⟨rfl, rfl⟩ ⟨target.rsrc, rfl, rfl⟩).request
  survives := fun _ => ⟨fun has => absurd has (show ¬ reqHasSize mreqRename = true by decide),
    fun has => absurd has (show ¬ reqHasOff mreqRename = true by decide)⟩
  owner := lookedUp_owner brief.rooted rfl
  fits := by
    refine Nat.lt_of_le_of_lt (request_wire_le rfl) ?_
    obtain ⟨_, owner, path⟩ := brief
    obtain ⟨_, owner', path'⟩ := brief'
    show 32 + (strWire (some conf.username)).length + file.rsrc.wire.length + target.rsrc.wire.length +
      ([] : List UInt8).length < _
    simp only [RemoteFile.rsrc, Rsrc.wire, strWire, List.length_append, List.length_singleton, List.length_nil]
    omega

theorem asks_write {buf : List UInt8} {offset : Int64} (short : buf.length < 2 ^ 31)
    (offFits : FitsInt32 offset.toUInt64) : Asks (writePacket conf file.rsrc buf offset) file.owner where
  type := rfl
  request := (requests_write conf ⟨rfl, rfl⟩ ⟨buf, by omega⟩ offset.toUInt64).request
  survives := fun _ => by
    refine ⟨fun _ => Or.inl ?_, fun _ => offFits⟩
    show (UInt64.ofNat buf.length).toNat < 2 ^ 31
    rw [toNat_length (by omega)]
    exact short
  owner := lookedUp_owner brief.rooted rfl
  fits := by
    refine Nat.lt_of_le_of_lt (request_wire_le rfl) ?_
    obtain ⟨_, owner, path⟩ := brief
    show 32 + (strWire (some conf.username)).length + file.rsrc.wire.length + ([] : List UInt8).length +
      buf.length < _
    simp only [RemoteFile.rsrc, Rsrc.wire, strWire, List.length_append, List.length_singleton, List.length_nil]
    omega

end Requests

/-! ## The operations -/

def RemoteFile.resource (file : RemoteFile) : ClientRsrc := ⟨.mrNetwork, file.rsrc, -1⟩

section Remote
variable {φ : Type} (net : Net φ) (file : RemoteFile)

/-- The name of a file on the machine of its owner. -/
def Net.nameOf : CStr := middfsLocalpathTmp (net.conf file.owner) file.path

def Net.stat (os : Os (World φ)) : Packet → World φ → Except Trap (Int32 × Statbuf × World φ) :=
  net.attributes os file.owner ((net.os file.owner).stat (net.nameOf file))

def Net.access (mode : Int32) : Sys (World φ) Unit :=
  net.remotely file.owner ((net.os file.owner).access (net.nameOf file) mode)

def Net.tryOpen (flags : Int32) : Sys (World φ) Unit :=
  net.remotely file.owner ((net.os file.owner).tried (net.nameOf file) flags)

def Net.truncate (size : Int64) : Sys (World φ) Unit :=
  net.remotely file.owner ((net.os file.owner).truncate (net.nameOf file) size)

/-- Whoever owns the target, the file is renamed on the machine where it is. -/
def Net.rename (target : RemoteFile) : Sys (World φ) Unit :=
  net.remotely file.owner ((net.os file.owner).rename (net.nameOf file)
    (middfsLocalpathTmp (net.conf file.owner) target.path))

def Net.fetch (size : UInt64) (offset : Int64) : Sys (World φ) (List UInt8) :=
  net.remotely file.owner ((net.os file.owner).fetched (net.malloc file.owner) (net.nameOf file) size offset)

def Net.list : Sys (World φ) (List (CStr × UInt8)) :=
  net.remotely file.owner ((net.os file.owner).listed (net.malloc file.owner) (net.nameOf file))

def Net.store (user : CStr) (malloc : Nat → Bool) (junk : Packet) (buf : List UInt8) (offset : Int64)
    (world : World φ) : Except Trap (Int32 × World φ) :=
  net.written (net.conf user) malloc junk file.owner
    ((net.os file.owner).stored (net.nameOf file) buf offset) buf.length world

variable {net file} (modest : net.Modest) {user : CStr} (named : user.val.length < 2 ^ 60)
variable (brief : file.Brief) (os : Os (World φ)) (world : World φ)

theorem okAnswer_roomy {β : Type} (value : β) : (okAnswer value).Roomy :=
  fun no => absurd no (show ¬ mrspOk = mrspDirType by decide)

theorem Net.remotely_ok {β : Type} (net : Net φ) {owner : CStr} {call : Sys φ β} {world : World φ} {value : β}
    (came : (net.remotely owner call world).1 = .ok value) : (call (world owner)).1 = .ok value := by
  unfold Net.remotely at came
  split at came
  · cases came
  · exact came

theorem fetched_ok {os : Os φ} (modest : os.Modest) {malloc : Nat → Bool} {path : CStr} {size : UInt64}
    {offset : Int64} {files : φ} {bytes : List UInt8}
    (came : (os.fetched malloc path size offset files).1 = .ok bytes) : bytes.length < 2 ^ 31 := by
  unfold Os.fetched Os.opened at came
  split at came
  · cases came
  · simp only at came
    split_ifs at came
    exact modest.pread _ _ _ _ _ came

theorem listed_ok {os : Os φ} {malloc : Nat → Bool} {path : CStr} {files : φ} {entries : List (CStr × UInt8)}
    (came : (os.listed malloc path files).1 = .ok entries) : malloc (entries.length * sizeofDirent) = true := by
  unfold Os.listed at came
  split at came
  · cases came
  · simp only at came
    split_ifs at came with both
    cases came
    exact both.1

include modest named brief

theorem plain_answers {β : Type} {call : Sys φ β} {respond : β → Response} {type : UInt32} {mode : Int32}
    {size off : UInt64} (noTarget : reqHasTo type = false) (noData : reqHasData type = false)
    (sizeFits : reqHasSize type = true → FitsInt32 size) (offFits : reqHasOff type = true → FitsInt32 off)
    (performs : Performs (net.conf file.owner) (net.os file.owner) (net.malloc file.owner)
      (plainPacket (net.conf user) type file.rsrc mode size off) call respond)
    (roomy : ∀ files value, (call files).1 = .ok value → (respond value).Roomy) (inPkt : Packet) :
    net.Answers file.owner call respond inPkt world
      (net.xchg (plainPacket (net.conf user) type file.rsrc mode size off) inPkt world) :=
  Net.xchg_answers modest
    (asks_plain (show (net.conf user).username.val.length < 2 ^ 60 from named) brief noTarget noData sizeFits
      offFits) performs roomy inPkt world

theorem access_remotely (mode : Int32) :
    clientRsrcAccess (net.conf user) os net.xchg file.resource mode world =
      .ok (statusOf (net.access file mode world).1, (net.access file mode world).2) := by
  have sizeFits : reqHasSize mreqAccess = true → FitsInt32 0 := fun no => absurd no (by decide)
  have offFits : reqHasOff mreqAccess = true → FitsInt32 0 := fun no => absurd no (by decide)
  have performs := performs_access (net.conf file.owner) (net.os file.owner) (net.malloc file.owner)
    (show (plainPacket (net.conf user) mreqAccess file.rsrc mode 0 0).mpktRequest.mreqRsrc.mrPath =
      some file.path from rfl) rfl
  exact Net.requestOk_answers (plain_answers modest named brief world rfl rfl sizeFits offFits performs
    (fun _ value _ => okAnswer_roomy value) zeroPacket)

theorem tryOpen_remotely (flags mode : Int32) :
    clientRsrcOpen (net.conf user) os net.xchg file.resource flags mode world =
      .ok (statusOf (net.tryOpen file flags world).1, file.resource, (net.tryOpen file flags world).2) := by
  have sizeFits : reqHasSize mreqOpen = true → FitsInt32 0 := fun no => absurd no (by decide)
  have offFits : reqHasOff mreqOpen = true → FitsInt32 0 := fun no => absurd no (by decide)
  have performs := performs_open (net.conf file.owner) (net.os file.owner) (net.malloc file.owner)
    (show (plainPacket (net.conf user) mreqOpen file.rsrc flags 0 0).mpktRequest.mreqRsrc.mrPath =
      some file.path from rfl) rfl
  have done := Net.requestOk_answers (plain_answers modest named brief world rfl rfl sizeFits offFits performs
    (fun _ value _ => okAnswer_roomy value) zeroPacket)
  simp only [clientRsrcOpen, RemoteFile.resource]
  split
  · rename_i trap failed
    cases done.symm.trans failed
  · rename_i retv files succeeded
    cases done.symm.trans succeeded
    rfl

theorem stat_remotely (junk : Packet) :
    clientRsrcLstat (net.conf user) os net.xchg junk file.resource world = net.stat file os junk world := by
  have sizeFits : reqHasSize mreqGetattr = true → FitsInt32 0 := fun no => absurd no (by decide)
  have offFits : reqHasOff mreqGetattr = true → FitsInt32 0 := fun no => absurd no (by decide)
  have performs := performs_getattr (net.conf file.owner) (net.os file.owner) (net.malloc file.owner)
    (show (plainPacket (net.conf user) mreqGetattr file.rsrc 0 0 0).mpktRequest.mreqRsrc.mrPath =
      some file.path from rfl) rfl
  exact Net.lstat_answers (net.conf user) os (plain_answers modest named brief world rfl rfl sizeFits offFits
    performs (fun _ _ _ => fun no => absurd no (show ¬ mrspStatType = mrspDirType by decide)) junk)

theorem truncate_remotely {size : Int64} (fits : FitsInt32 size.toUInt64) :
    clientRsrcTruncate (net.conf user) os net.xchg file.resource size world =
      .ok (statusOf (net.truncate file size world).1, (net.truncate file size world).2) := by
  have offFits : reqHasOff mreqTruncate = true → FitsInt32 0 := fun no => absurd no (by decide)
  have performs := performs_truncate (net.conf file.owner) (net.os file.owner) (net.malloc file.owner)
    (show (plainPacket (net.conf user) mreqTruncate file.rsrc 0 size.toUInt64 0).mpktRequest.mreqRsrc.mrPath =
      some file.path from rfl) rfl
  have whole : offT (plainPacket (net.conf user) mreqTruncate file.rsrc 0 size.toUInt64 0).mpktRequest.mreqSize =
      size := Int64.toInt64_toUInt64 size
  rw [whole] at performs
  exact Net.requestOk_answers (plain_answers modest named brief world rfl rfl (fun _ => fits) offFits performs
    (fun _ value _ => okAnswer_roomy value) zeroPacket)

theorem rename_remotely {target : RemoteFile} (brief' : target.Brief) :
    clientRsrcRename (net.conf user) os net.xchg file.resource target.resource world =
      .ok (statusOf (net.rename file target world).1, (net.rename file target world).2) := by
  have asks := asks_rename (show (net.conf user).username.val.length < 2 ^ 60 from named) brief brief'
  have performs := @performs_rename _ (net.conf file.owner) (net.os file.owner) (net.malloc file.owner)
    (renamePacket (net.conf user) file.rsrc target.rsrc) file.path rfl rfl target.path rfl
  exact Net.requestOk_answers (Net.xchg_answers modest asks performs
    (fun _ value _ => okAnswer_roomy value) zeroPacket world)

theorem fetch_remotely {size : UInt64} {offset : Int64} (sizeFits : FitsInt32 size)
    (offFits : FitsInt32 offset.toUInt64) :
    clientRsrcRead (net.conf user) os net.xchg file.resource size offset world =
      .ok ((countOf size (net.fetch file size offset world).1).1,
        (countOf size (net.fetch file size offset world).1).2, (net.fetch file size offset world).2) := by
  have performs := performs_read (net.conf file.owner) (net.os file.owner) (net.malloc file.owner)
    (show (plainPacket (net.conf user) mreqRead file.rsrc 0 size offset.toUInt64).mpktRequest.mreqRsrc.mrPath =
      some file.path from rfl) rfl
  have whole : offT (plainPacket (net.conf user) mreqRead file.rsrc 0 size offset.toUInt64).mpktRequest.mreqOff =
      offset := Int64.toInt64_toUInt64 offset
  rw [whole] at performs
  refine Net.read_answers (net.conf user) os (plain_answers modest named brief world rfl rfl (fun _ => sizeFits)
    (fun _ => offFits) performs
    (fun _ _ _ => fun no => absurd no (show ¬ mrspDataType = mrspDirType by decide)) zeroPacket) ?_
  exact fun bytes came => fetched_ok (modest.os file.owner) (net.remotely_ok came)

theorem list_remotely (full : Nat → Bool) :
    clientRsrcReaddir (net.conf user) os net.xchg full file.resource world =
      .ok (statusOf (net.list file world).1, listingOf full (net.list file world).1, file.resource,
        (net.list file world).2) := by
  have sizeFits : reqHasSize mreqReaddir = true → FitsInt32 0 := fun no => absurd no (by decide)
  have offFits : reqHasOff mreqReaddir = true → FitsInt32 0 := fun no => absurd no (by decide)
  have performs := performs_readdir (net.conf file.owner) (net.os file.owner) (net.malloc file.owner)
    (show (plainPacket (net.conf user) mreqReaddir file.rsrc 0 0 0).mpktRequest.mreqRsrc.mrPath =
      some file.path from rfl) rfl
  refine Net.readdir_answers (net.conf user) os full (plain_answers modest named brief world rfl rfl sizeFits
    offFits performs ?_ zeroPacket) ?_
  · intro files entries came _
    have room := modest.objects file.owner _ (listed_ok came)
    show (UInt64.ofNat entries.length).toNat * sizeofDirent < 2 ^ 63
    rwa [toNat_length (by unfold sizeofDirent at room; omega)]
  · intro entries came
    have room := modest.objects file.owner _ (listed_ok (net.remotely_ok came))
    unfold sizeofDirent at room
    omega

theorem store_remotely (malloc : Nat → Bool) (junk : Packet) {buf : List UInt8} {offset : Int64}
    (short : buf.length < 2 ^ 31) (offFits : FitsInt32 offset.toUInt64) :
    clientRsrcWrite (net.conf user) os net.xchg malloc junk file.resource buf offset world =
      net.store file user malloc junk buf offset world := by
  have asks := asks_write (show (net.conf user).username.val.length < 2 ^ 60 from named) brief short offFits
  have length : (UInt64.ofNat buf.length).toNat = buf.length := toNat_length (by omega)
  have source : writeSource (writePacket (net.conf user) file.rsrc buf offset).mpktRequest = some buf := by
    show (if UInt64.ofNat buf.length = 0 then some [] else (some buf).map (·.take (UInt64.ofNat buf.length).toNat)) =
      some buf
    split_ifs with empty
    · rw [empty] at length
      rw [List.eq_nil_of_length_eq_zero length.symm]
    · rw [length, Option.map_some, List.take_length]
  have performs := @performs_write _ (net.conf file.owner) (net.os file.owner) (net.malloc file.owner)
    (writePacket (net.conf user) file.rsrc buf offset) file.path rfl rfl buf source
  have whole : offT (writePacket (net.conf user) file.rsrc buf offset).mpktRequest.mreqOff = offset :=
    Int64.toInt64_toUInt64 offset
  rw [whole] at performs
  exact Net.write_answers (net.conf user) os malloc (by omega) (Net.xchg_answers modest asks performs
    (fun _ value _ => okAnswer_roomy value) junk world)

end Remote
end Middfs
