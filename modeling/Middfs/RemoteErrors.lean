import Middfs.Client.Ops
import Middfs.Wire.Laws

/-!
# What a client makes of a response

An operation on a network resource sends a request and looks at the packet that
`packet_xchg` delivers.  It should return a value that is not negative for the
response it waits for only, and hand on the error code of an ERROR response.
-/

set_option autoImplicit false

namespace Middfs

/-! ## Responses -/

/-- A response of a type, in a packet with the right magic number. -/
def Packet.Answers (pkt : Packet) (type : UInt32) : Prop :=
  pkt.mpktMagic = mpktMagicNumber ∧ pkt.mpktType = mpktResponseType ∧
    pkt.mpktResponse.mrspType = type

instance (pkt : Packet) (type : UInt32) : Decidable (pkt.Answers type) :=
  inferInstanceAs (Decidable (_ ∧ _ ∧ _))

/-- The memory that a response points to is as large as it says. -/
structure Packet.Readable (pkt : Packet) : Prop where
  data : pkt.Answers mrspDataType → pkt.mpktResponse.mrspData.mdataNbytes ≠ 0 →
    ∃ bytes, pkt.mpktResponse.mrspData.mdataBuf = some bytes ∧
      pkt.mpktResponse.mrspData.mdataNbytes.toNat ≤ bytes.length
  dir : pkt.Answers mrspDirType →
    pkt.mpktResponse.mrspDir.mdirCount.toNat ≤ (pkt.mpktResponse.mrspDir.mdirEnts.getD []).length

theorem Packet.Answers.unique {pkt : Packet} {type other : UInt32} (first : pkt.Answers type)
    (second : pkt.Answers other) : type = other :=
  first.2.2.symm.trans second.2.2

theorem Packet.Answers.intact {pkt : Packet} {type : UInt32} (answers : pkt.Answers type) :
    ¬ (pkt.mpktMagic ≠ mpktMagicNumber ∨ pkt.mpktType ≠ mpktResponseType) :=
  fun corrupted => corrupted.elim (absurd answers.1) (absurd answers.2.1)

/-- What is received agrees with a whole packet in all that counts. -/
theorem readable_of_whole {pkt w : Packet} (wf : w.WellFormed) (same : pkt.live = w.live) :
    pkt.Readable := by
  have type : pkt.mpktType = w.mpktType := show pkt.live.mpktType = w.live.mpktType by rw [same]
  have response : pkt.mpktType = mpktResponseType →
      w.mpktResponse.WellFormed ∧ pkt.mpktResponse.live = w.mpktResponse.live := by
    intro isResponse
    have members := congrArg Packet.mpktResponse same
    have isResponse' : w.mpktType = mpktResponseType := type ▸ isResponse
    simp only [Packet.live, isResponse, isResponse', if_true] at members
    exact ⟨wf.response isResponse', members⟩
  constructor
  · rintro ⟨_, isResponse, isData⟩ some_
    obtain ⟨filled, live⟩ := response isResponse
    have isData' : w.mpktResponse.mrspType = mrspDataType := by
      rw [← Response.live_type, ← live, Response.live_type, isData]
    have data := congrArg Response.mrspData live
    simp only [Response.live, isData, isData', if_true, Data.mk.injEq] at data
    obtain ⟨buf, count⟩ := data
    obtain ⟨bytes, held, length⟩ := filled.data isData' (count ▸ some_)
    rw [if_neg some_, if_neg (count ▸ some_), held, Option.map_some] at buf
    obtain ⟨own, ownHeld, taken⟩ := Option.map_eq_some_iff.mp buf
    refine ⟨own, ownHeld, ?_⟩
    have lengths := congrArg List.length taken
    rw [List.length_take, List.length_take, count, length] at lengths
    rw [count]
    omega
  · rintro ⟨_, isResponse, isDir⟩
    obtain ⟨filled, live⟩ := response isResponse
    have isDir' : w.mpktResponse.mrspType = mrspDirType := by
      rw [← Response.live_type, ← live, Response.live_type, isDir]
    have dir := congrArg Response.mrspDir live
    simp only [Response.live, isDir, isDir', rspTypes_differ, if_true, if_false,
      Dir.mk.injEq, Option.some.injEq] at dir
    obtain ⟨count, entries⟩ := dir
    have lengths := (filled.dir isDir').1
    rw [← entries, Dir.entries, List.length_take, ← count] at lengths
    omega

/-! ## The error code -/

theorem negateInt_pos {n : Int32} (positive : 0 < n) : negateInt n = .ok (-n) ∧ -n < 0 := by
  have above : 0 < n.toInt := by simpa using Int32.lt_iff_toInt_lt.mp positive
  have differs : n ≠ Int32.minValue := fun same => by
    rw [same] at above
    exact absurd above (by decide)
  refine ⟨if_neg differs, ?_⟩
  rw [Int32.lt_iff_toInt_lt, Int32.toInt_neg]
  have below := n.toInt_lt
  rw [Int.bmod_eq_of_le (by omega) (by omega)]
  have zero : (0 : Int32).toInt = 0 := rfl
  omega

theorem negateInt_le_zero {n retv : Int32} (negative : n ≤ 0) (negated : negateInt n = .ok retv) :
    0 ≤ retv := by
  unfold negateInt at negated
  split_ifs at negated with smallest
  cases negated
  have below : n.toInt ≤ 0 := by simpa using Int32.le_iff_toInt_le.mp negative
  have above := n.le_toInt
  have differs : n.toInt ≠ -2147483648 := fun same => smallest (Int32.toInt_inj.mp same)
  rw [Int32.le_iff_toInt_le, Int32.toInt_neg, Int.bmod_eq_of_le (by omega) (by omega)]
  have zero : (0 : Int32).toInt = 0 := rfl
  omega

theorem errno_pos (errno : Errno) : 0 < Int32.ofNat errno.val := by
  obtain ⟨n, positive, bound⟩ := errno
  have value : (Int32.ofNat n).toInt = n := Int32.toInt_ofNat_of_lt bound
  have zero : (0 : Int32).toInt = 0 := rfl
  rw [Int32.lt_iff_toInt_lt, value, zero]
  omega

theorem negErrno_neg (errno : Errno) : negErrno errno < 0 := (negateInt_pos (errno_pos errno)).2

theorem neg_negErrno (errno : Errno) : -negErrno errno = Int32.ofNat errno.val := Int32.neg_neg

/-- The three verdicts of `response_validate`. -/
theorem responseValidate_cases (pkt : Packet) (type : UInt32) :
    (pkt.Answers type ∧ responseValidate pkt type = .ok 0) ∨
      (¬ pkt.Answers type ∧ pkt.Answers mrspErrorType ∧
        responseValidate pkt type = negateInt pkt.mpktResponse.mrspError) ∨
      (¬ pkt.Answers type ∧ ¬ pkt.Answers mrspErrorType ∧
        responseValidate pkt type = .ok (-eio)) := by
  unfold responseValidate Packet.Answers
  by_cases magic : pkt.mpktMagic = mpktMagicNumber
  · by_cases response : pkt.mpktType = mpktResponseType
    · by_cases expected : pkt.mpktResponse.mrspType = type
      · exact Or.inl ⟨⟨magic, response, expected⟩, by simp [magic, response, expected]⟩
      · by_cases error : pkt.mpktResponse.mrspType = mrspErrorType
        · refine Or.inr (Or.inl ⟨fun answers => expected answers.2.2, ⟨magic, response, error⟩, ?_⟩)
          rw [if_neg (not_not.mpr magic), if_neg (not_not.mpr response), if_pos expected,
            if_pos error]
        · refine Or.inr (Or.inr ⟨fun answers => expected answers.2.2,
            fun answers => error answers.2.2, ?_⟩)
          rw [if_neg (not_not.mpr magic), if_neg (not_not.mpr response), if_pos expected,
            if_neg error]
    · refine Or.inr (Or.inr ⟨fun answers => response answers.2.1,
        fun answers => response answers.2.1, ?_⟩)
      rw [if_neg (not_not.mpr magic), if_pos response]
  · refine Or.inr (Or.inr ⟨fun answers => magic answers.1, fun answers => magic answers.1, ?_⟩)
    rw [if_pos magic]

/-! ## The result of an operation -/

/-- The operation does not crash, is successful for the response that it waits
for only, and hands on the code of an ERROR response. -/
structure ErrorReaches (pkt : Packet) (type : UInt32) (retv : Int32) : Prop where
  success : 0 ≤ retv → pkt.Answers type
  error : pkt.Answers mrspErrorType → 0 < pkt.mpktResponse.mrspError →
    retv = -pkt.mpktResponse.mrspError

structure Validates (pkt : Packet) (type : UInt32) (result : Except Trap Int32) : Prop where
  expected : pkt.Answers type → ∃ retv, result = .ok retv
  positive : pkt.Answers mrspErrorType → 0 < pkt.mpktResponse.mrspError →
    result = .ok (-pkt.mpktResponse.mrspError)
  other : pkt.Answers mrspErrorType → pkt.mpktResponse.mrspError ≤ 0 →
    ∀ retv, result = .ok retv → 0 ≤ retv
  unexpected : ¬ pkt.Answers type → ¬ pkt.Answers mrspErrorType →
    ∃ retv, result = .ok retv ∧ retv < 0

theorem not_nonneg {n : Int32} (negative : n < 0) : ¬ 0 ≤ n := Int32.not_le.mpr negative

theorem Validates.errorReaches_iff {pkt : Packet} {type : UInt32} {result : Except Trap Int32}
    (validates : Validates pkt type result) (noError : type ≠ mrspErrorType) :
    (∃ retv, result = .ok retv ∧ ErrorReaches pkt type retv) ↔
      (pkt.Answers mrspErrorType → 0 < pkt.mpktResponse.mrspError) := by
  constructor
  · rintro ⟨retv, rfl, reaches⟩ error
    by_contra negative
    have success := validates.other error (Int32.not_lt.mp negative) retv rfl
    exact noError ((reaches.success success).unique error)
  · intro positive
    by_cases answers : pkt.Answers type
    · obtain ⟨retv, result⟩ := validates.expected answers
      exact ⟨retv, result, fun _ => answers, fun error => absurd (answers.unique error) noError⟩
    by_cases error : pkt.Answers mrspErrorType
    · refine ⟨_, validates.positive error (positive error), fun success => ?_, fun _ _ => rfl⟩
      exact absurd success (not_nonneg (negateInt_pos (positive error)).2)
    · obtain ⟨retv, result, negative⟩ := validates.unexpected answers error
      exact ⟨retv, result, fun success => absurd success (not_nonneg negative),
        fun found => absurd found error⟩

theorem validates_of {pkt : Packet} {type : UInt32} (noError : type ≠ mrspErrorType)
    (next : Int32 → Except Trap Int32)
    (succeeds : pkt.Answers type → ∃ retv, next 0 = .ok retv)
    (nonneg : ∀ n retv, 0 ≤ n → next n = .ok retv → 0 ≤ retv) :
    Validates pkt type
      (responseValidate pkt type >>= fun retv => if retv < 0 then .ok retv else next retv) := by
  rcases responseValidate_cases pkt type with ⟨answers, valid⟩ | ⟨unexpected, error, valid⟩ |
    ⟨unexpected, noError', valid⟩
  · rw [valid]
    have first : (Except.ok 0 >>= fun retv => if retv < 0 then .ok retv else next retv) = next 0 := rfl
    rw [first]
    exact ⟨succeeds, fun error => absurd (answers.unique error) noError,
      fun error => absurd (answers.unique error) noError, fun no => absurd answers no⟩
  · rw [valid]
    refine ⟨fun answers => absurd answers unexpected, fun _ positive => ?_,
      fun _ negative retv result => ?_, fun _ no => absurd error no⟩
    · obtain ⟨negated, below⟩ := negateInt_pos positive
      rw [negated]
      exact if_pos below
    · cases negated : negateInt pkt.mpktResponse.mrspError with
      | error trap =>
          rw [negated] at result
          cases result
      | ok n =>
          rw [negated] at result
          have above := negateInt_le_zero negative negated
          have passed : (if n < 0 then .ok n else next n) = Except.ok retv := result
          rw [if_neg (Int32.not_lt.mpr above)] at passed
          exact nonneg n retv above passed
  · rw [valid]
    exact ⟨fun answers => absurd answers unexpected, fun error => absurd error noError',
      fun error => absurd error noError', fun _ _ => ⟨-eio, rfl, by decide⟩⟩

/-! ## The operations -/

def delivers {σ : Type} (pkt : Packet) : Xchg σ := fun _ _ files => .ok ((0, pkt), files)

section Operations
variable {σ : Type} (conf : ClientConf) (os : Os σ) (pkt : Packet)

/-- The value that the operation returns, with the memory it needs. -/
def NetOp.run (rsrc : ClientRsrc) (files : σ) (op : NetOp) : Except Trap Int32 :=
  (op.perform conf os (delivers pkt) (fun _ => true) rsrc files).map fun result => result.1

/-- For which packets an operation reports what it should. -/
def NetOp.Trusts : NetOp → Prop
  | .write .. => conf.username.val ≠ [] ∧ pkt.Answers mrspOk
  | _ => pkt.Answers mrspErrorType → 0 < pkt.mpktResponse.mrspError

theorem requestOk_delivers (outPkt : Packet) (files : σ) :
    (requestOk (delivers pkt) outPkt files).map (fun result => result.1) =
      (responseValidate pkt mrspOk >>= fun retv => if retv < 0 then .ok retv else .ok 0) := by
  have received : ¬ (0 : Int32) < 0 := by decide
  simp only [requestOk, delivers, if_neg received]
  cases responseValidate pkt mrspOk with
  | error trap => rfl
  | ok retv =>
      by_cases negative : retv < 0
      · simp [negative, Except.map, bind, Except.bind]
      · simp [negative, Except.map, bind, Except.bind]

theorem validates_requestOk (outPkt : Packet) (files : σ) :
    Validates pkt mrspOk ((requestOk (delivers pkt) outPkt files).map fun result => result.1) := by
  rw [requestOk_delivers]
  refine validates_of (by decide) (fun _ => .ok 0) (fun _ => ⟨0, rfl⟩) fun n retv _ result => ?_
  cases result
  decide

theorem fillEntries_ok {β : Type} (full : Nat → Bool) {left : Nat} (i : Nat) {entries : List β}
    (enough : left ≤ entries.length) : ∃ filled, fillEntries full left i entries = .ok filled := by
  induction left generalizing i entries with
  | zero => exact ⟨[], by rw [fillEntries]⟩
  | succ left ih =>
      cases entries with
      | nil => simp at enough
      | cons entry entries =>
          obtain ⟨filled, rest⟩ := @ih (i + 1) entries (by simpa using enough)
          rw [fillEntries, rest]
          split_ifs <;> exact ⟨_, rfl⟩

variable {rsrc : ClientRsrc} (network : rsrc.mrType = .mrNetwork) (files : σ)
include network

theorem openFile_validates (flags mode : Int32) :
    Validates pkt mrspOk ((NetOp.openFile flags mode).run conf os pkt rsrc files) := by
  simp only [NetOp.run, NetOp.perform, clientRsrcOpen, network]
  have answered := validates_requestOk pkt
    { requestPacket conf mreqOpen rsrc.mrRsrc with
      mpktRequest := { (requestPacket conf mreqOpen rsrc.mrRsrc).mpktRequest with mreqMode := flags } }
    files
  split
  · rename_i called
    rwa [called] at answered
  · rename_i called
    rwa [called] at answered

theorem access_validates (mode : Int32) :
    Validates pkt mrspOk ((NetOp.access mode).run conf os pkt rsrc files) := by
  simp only [NetOp.run, NetOp.perform, clientRsrcAccess, network]
  exact validates_requestOk pkt _ files

theorem truncate_validates (size : Int64) :
    Validates pkt mrspOk ((NetOp.truncate size).run conf os pkt rsrc files) := by
  simp only [NetOp.run, NetOp.perform, clientRsrcTruncate, network]
  exact validates_requestOk pkt _ files

theorem rename_validates (dst : FilledRsrc) :
    Validates pkt mrspOk ((NetOp.rename dst).run conf os pkt rsrc files) := by
  simp only [NetOp.run, NetOp.perform, clientRsrcRename, network, ne_eq, not_true_eq_false, if_false]
  exact validates_requestOk pkt _ files

theorem lstat_validates (junk : Packet) :
    Validates pkt mrspStatType ((NetOp.lstat junk).run conf os pkt rsrc files) := by
  have received : ¬ (0 : Int32) < 0 := by decide
  simp only [NetOp.run, NetOp.perform, clientRsrcLstat, network, delivers, if_neg received]
  have validated := @validates_of pkt mrspStatType (by decide) (fun _ => .ok 0)
    (fun _ => ⟨0, rfl⟩) (fun n retv _ result => by
      cases result
      decide)
  convert validated using 1
  cases responseValidate pkt mrspStatType with
  | error trap => rfl
  | ok retv =>
      by_cases negative : retv < 0
      · simp [negative, Except.map, bind, Except.bind]
      · simp [negative, Except.map, bind, Except.bind]

theorem readdir_validates (full : Nat → Bool) (readable : pkt.Readable) :
    Validates pkt mrspDirType ((NetOp.readdir full).run conf os pkt rsrc files) := by
  have received : ¬ (0 : Int32) < 0 := by decide
  simp only [NetOp.run, NetOp.perform, clientRsrcReaddir, network, delivers, if_neg received]
  generalize dir : pkt.mpktResponse.dirMember = member
  have validated := @validates_of pkt mrspDirType (by decide)
    (fun n => (fillEntries full member.mdirCount.toNat 0 (member.mdirEnts.getD [])).map fun _ => n)
    (fun answers => by
      have enough := readable.dir answers
      rw [← dir, Response.dirMember, if_neg (by rw [answers.2.2]; decide)]
      obtain ⟨filled, done⟩ := fillEntries_ok full 0 enough
      exact ⟨0, by rw [done]; rfl⟩)
    (fun n retv above result => by
      cases filled : fillEntries full member.mdirCount.toNat 0 (member.mdirEnts.getD []) with
      | error trap =>
          rw [filled] at result
          cases result
      | ok entries =>
          rw [filled] at result
          cases result
          exact above)
  convert validated using 1
  cases responseValidate pkt mrspDirType with
  | error trap => rfl
  | ok retv =>
      by_cases negative : retv < 0
      · simp [negative, Except.map, bind, Except.bind]
      · simp only [if_neg negative, bind, Except.bind]
        cases fillEntries full member.mdirCount.toNat 0 (member.mdirEnts.getD []) <;> rfl

/-- Reading has its own switch over the types of responses. -/
theorem read_validates (size : UInt64) (offset : Int64) (readable : pkt.Readable) :
    Validates pkt mrspDataType ((NetOp.read size offset).run conf os pkt rsrc files) := by
  have received : ¬ (0 : Int32) < 0 := by decide
  simp only [NetOp.run, NetOp.perform, clientRsrcRead, network, delivers, if_neg received]
  by_cases corrupted : pkt.mpktMagic ≠ mpktMagicNumber ∨ pkt.mpktType ≠ mpktResponseType
  · have unanswered : ∀ type, ¬ pkt.Answers type := fun type answers => answers.intact corrupted
    rw [if_pos corrupted]
    exact ⟨fun answers => absurd answers (unanswered _), fun error => absurd error (unanswered _),
      fun error => absurd error (unanswered _), fun _ _ => ⟨-eio, rfl, by decide⟩⟩
  have intact : pkt.mpktMagic = mpktMagicNumber ∧ pkt.mpktType = mpktResponseType :=
    ⟨not_not.mp (not_or.mp corrupted).1, not_not.mp (not_or.mp corrupted).2⟩
  rw [if_neg corrupted]
  by_cases isData : pkt.mpktResponse.mrspType = mrspDataType
  · have answers : pkt.Answers mrspDataType := ⟨intact.1, intact.2, isData⟩
    have noError : ¬ pkt.Answers mrspErrorType := fun error =>
      absurd (answers.unique error) (by decide)
    rw [if_pos isData]
    refine ⟨fun _ => ?_, fun error => absurd error noError, fun error => absurd error noError,
      fun no => absurd answers no⟩
    have copied : ∃ bytes, memcpyFrom pkt.mpktResponse.mrspData.mdataBuf
        (min size.toNat pkt.mpktResponse.mrspData.mdataNbytes.toNat) = .ok bytes := by
      unfold memcpyFrom
      split_ifs with none_
      · exact ⟨_, rfl⟩
      · have some_ : pkt.mpktResponse.mrspData.mdataNbytes ≠ 0 := by
          intro zero
          rw [zero] at none_
          simp at none_
        obtain ⟨bytes, held, enough⟩ := readable.data answers some_
        rw [held]
        exact ⟨_, if_pos (by omega)⟩
    obtain ⟨bytes, copied⟩ := copied
    rw [copied]
    exact ⟨_, rfl⟩
  have unanswered : ¬ pkt.Answers mrspDataType := fun answers => isData answers.2.2
  rw [if_neg isData]
  by_cases isError : pkt.mpktResponse.mrspType = mrspErrorType
  · rw [if_pos isError]
    refine ⟨fun answers => absurd answers unanswered, fun _ positive => ?_,
      fun _ negative retv result => ?_, fun _ no => absurd ⟨intact.1, intact.2, isError⟩ no⟩
    · rw [(negateInt_pos positive).1]
      rfl
    · cases negated : negateInt pkt.mpktResponse.mrspError with
      | error trap =>
          rw [negated] at result
          cases result
      | ok n =>
          rw [negated] at result
          cases result
          exact negateInt_le_zero negative negated
  · rw [if_neg isError]
    exact ⟨fun answers => absurd answers unanswered, fun error => absurd error.2.2 isError,
      fun error => absurd error.2.2 isError, fun _ _ => ⟨-eio, rfl, by decide⟩⟩

theorem write_trusted (junk : Packet) (buf : Bytes) (offset : Int64)
    (named : conf.username.val ≠ []) (answers : pkt.Answers mrspOk) :
    (NetOp.write junk buf offset).run conf os pkt rsrc files =
      .ok (Int32.ofNat (UInt64.ofNat buf.val.length).toNat) := by
  have received : ¬ (0 : Int32) < 0 := by decide
  simp only [NetOp.run, NetOp.perform, clientRsrcWrite, network, delivers, if_neg received, if_neg named, and_self,
    if_true]
  rw [if_pos (show _ ∧ _ ∧ _ from answers)]
  rfl

/-- Writing takes what is not an OK response for a bug of its own. -/
theorem write_distrusted (junk : Packet) (buf : Bytes) (offset : Int64)
    (distrusted : ¬ (conf.username.val ≠ [] ∧ pkt.Answers mrspOk)) :
    (NetOp.write junk buf offset).run conf os pkt rsrc files = .error .assertFail := by
  have received : ¬ (0 : Int32) < 0 := by decide
  simp only [NetOp.run, NetOp.perform, clientRsrcWrite, network, delivers, if_neg received, and_self, if_true]
  by_cases named : conf.username.val = []
  · rw [if_pos named]
    rfl
  · have unanswered : ¬ (pkt.mpktMagic = mpktMagicNumber ∧ pkt.mpktType = mpktResponseType ∧
        pkt.mpktResponse.mrspType = mrspOk) := fun answers => distrusted ⟨named, answers⟩
    rw [if_neg named, if_neg unanswered]
    rfl

/-- Every operation reports what it should for the packets that it trusts, and
for no others. -/
theorem remoteErrors_iff (readable : pkt.Readable) (op : NetOp) :
    (∃ retv, op.run conf os pkt rsrc files = .ok retv ∧ ErrorReaches pkt op.expects retv) ↔
      op.Trusts conf pkt := by
  cases op with
  | openFile flags mode =>
      exact (openFile_validates conf os pkt network files flags mode).errorReaches_iff (by decide)
  | lstat junk => exact (lstat_validates conf os pkt network files junk).errorReaches_iff (by decide)
  | access mode => exact (access_validates conf os pkt network files mode).errorReaches_iff (by decide)
  | truncate size =>
      exact (truncate_validates conf os pkt network files size).errorReaches_iff (by decide)
  | rename dst => exact (rename_validates conf os pkt network files dst).errorReaches_iff (by decide)
  | read size offset =>
      exact (read_validates conf os pkt network files size offset readable).errorReaches_iff
        (by decide)
  | readdir full =>
      exact (readdir_validates conf os pkt network files full readable).errorReaches_iff (by decide)
  | write junk buf offset =>
      constructor
      · rintro ⟨retv, result, _⟩
        by_contra distrusted
        rw [write_distrusted conf os pkt network files junk buf offset distrusted] at result
        cases result
      · rintro ⟨named, answers⟩
        exact ⟨_, write_trusted conf os pkt network files junk buf offset named answers,
          fun _ => answers, fun error => absurd (answers.unique error) (by decide)⟩

end Operations

/-! ## Two packets -/

def errorResponse (error : Int32) : Packet := packetError zeroPacket error

theorem errorResponse_readable (error : Int32) : (errorResponse error).Readable where
  data answers := absurd answers.2.2 (show ¬ mrspErrorType = mrspDataType by decide)
  dir answers := absurd answers.2.2 (show ¬ mrspErrorType = mrspDirType by decide)

def remoteFile : ClientRsrc where
  mrType := .mrNetwork
  mrRsrc := ⟨some (strAt [98]), some (strAt [47, 102])⟩
  mrFd := -1

def aConf : ClientConf where
  username := strAt [97]
  homepath := strAt [47, 104]

/-- `lstat` hands on that the permission was denied. -/
theorem deniedLstat_reaches :
    ∃ retv, (NetOp.lstat zeroPacket).run aConf failingOs (errorResponse 13) remoteFile () = .ok retv ∧
      ErrorReaches (errorResponse 13) mrspStatType retv :=
  (remoteErrors_iff aConf failingOs (errorResponse 13) rfl () (errorResponse_readable 13)
    (.lstat zeroPacket)).mpr fun _ => by decide

theorem oneByte_small : [(0 : UInt8)].length < 2 ^ 63 := by decide

def oneByte : Bytes := ⟨[0], oneByte_small⟩

/-- A write that is denied ends the client. -/
theorem deniedWrite_crashes :
    ¬ ∃ retv, (NetOp.write zeroPacket oneByte 0).run aConf failingOs (errorResponse 13) remoteFile () =
        .ok retv ∧
      ErrorReaches (errorResponse 13) mrspOk retv := by
  rintro ⟨retv, result, _⟩
  have distrusted : ¬ (aConf.username.val ≠ [] ∧ (errorResponse 13).Answers mrspOk) := by decide
  rw [write_distrusted aConf failingOs _ rfl () zeroPacket oneByte 0 distrusted] at result
  cases result

end Middfs
