import Middfs.Network

/-!
# Reading and writing a file of another user

`client_rsrc_read` and `client_rsrc_write` on a network resource, through the
wire format, the server and the handlers of the owner's client responder.  They
should come to what the owner's own calls come to.
-/

set_option autoImplicit false

namespace Middfs

/-! ## Offsets -/

def SmallOffset (offset : Int64) : Prop := 0 ≤ offset ∧ offset.toNatClampNeg < 2 ^ 31

instance (offset : Int64) : Decidable (SmallOffset offset) := inferInstanceAs (Decidable (_ ∧ _))

theorem SmallOffset.fits {offset : Int64} (small : SmallOffset offset) : FitsInt32 offset.toUInt64 := by
  left
  rw [Int64.toNat_toUInt64_of_le small.1]
  exact small.2

/-! ## Reading -/

def readPacket (conf : ClientConf) (rsrc : Rsrc) (size : UInt64) (offset : Int64) : Packet :=
  { requestPacket conf mreqRead rsrc with
    mpktRequest := { (requestPacket conf mreqRead rsrc).mpktRequest with
      mreqSize := size, mreqOff := offset.toUInt64 } }

def dataResponse (bytes : List UInt8) : Packet :=
  { packetInit zeroPacket mpktResponseType with
    mpktResponse :=
      { mrspType := mrspDataType
        mrspData := { mdataNbytes := UInt64.ofNat bytes.length, mdataBuf := some bytes } } }

/-- What the owner's responder answers when the open and the pread give this. -/
def readResponse : Except Errno (List UInt8) → Packet
  | .error errno => errorResponse (Int32.ofNat errno.val)
  | .ok bytes => dataResponse bytes

theorem dataResponse_wellFormed {bytes : List UInt8} (small : bytes.length < 2 ^ 31) :
    (dataResponse bytes).mpktType = mpktResponseType ∧ (dataResponse bytes).mpktResponse.WellFormed ∧
      (dataResponse bytes).mpktResponse.mrspType ≠ mrspDirType ∧
      (dataResponse bytes).wire.length < 2 ^ 63 := by
  have count : (UInt64.ofNat bytes.length).toNat = bytes.length := by
    rw [UInt64.toNat_ofNat', Nat.mod_eq_of_lt (by omega)]
  refine ⟨rfl, ⟨?_, fun _ _ => ⟨bytes, rfl, count.symm⟩, fun no => ?_⟩, ?_, ?_⟩
  · show mrspDataType ≤ mrspErrorType
    decide
  · exact absurd no (show ¬ mrspDataType = mrspDirType by decide)
  · show mrspDataType ≠ mrspDirType
    decide
  · show (htonl mpktMagicNumber ++ htonl mpktResponseType ++
      (htonl mrspDataType ++ htonll (UInt64.ofNat bytes.length)) ++
      bytes.take (UInt64.ofNat bytes.length).toNat).length < 2 ^ 63
    rw [count]
    simp only [htonll, List.length_append, htonl_length, List.take_length]
    omega

def fetch {φ : Type} (os : Os φ) (path : CStr) (flags : Int32) (size : Nat) (offset : Int64)
    (files : φ) : Except Errno (List UInt8) :=
  match os.openFile path flags 0 files with
  | (.error errno, _) => .error errno
  | (.ok fd, files) => (os.pread fd size offset files).1

section Owner
variable {φ : Type} (conf : ClientConf) (os : Os φ) {malloc : Nat → Bool}

theorem handleRequestType_read {req : Request} (read : req.mreqType = mreqRead) (path : CStr)
    (rsp : Response) (files : φ) : handleRequestType conf os malloc path req rsp files =
      .ok (some (handleRequestFd os path (handleRequestRead os malloc) req rsp files)) := by
  rw [handleRequestType, read]
  rfl

theorem handleRequest_read {received : Packet} {path : CStr} (files : φ)
    (read : received.mpktRequest.mreqType = mreqRead)
    (held : received.mpktRequest.mreqRsrc.mrPath = some path)
    (granted : malloc received.mpktRequest.mreqSize.toNat = true) :
    ∃ files', handleRequest conf os malloc received zeroPacket files =
      .ok (.hsSuc,
        readResponse (fetch os (middfsLocalpathTmp conf path) oRdwr
          received.mpktRequest.mreqSize.toNat (offT received.mpktRequest.mreqOff) files),
        files') := by
  have answered := @handleRequestType_read φ conf os malloc _ read (middfsLocalpathTmp conf path) {} files
  rw [handleRequestFd] at answered
  unfold fetch
  cases opened : os.openFile (middfsLocalpathTmp conf path) oRdwr 0 files with
  | mk result files₁ =>
      cases result with
      | error errno =>
          simp only [opened] at answered
          refine ⟨files₁, ?_⟩
          rw [handleRequest_answer conf os malloc held answered, if_pos (negErrno_neg errno),
            neg_negErrno]
          rfl
      | ok fd =>
          simp only [opened, handleRequestRead, if_pos granted] at answered ⊢
          cases called : os.pread fd received.mpktRequest.mreqSize.toNat
              (offT received.mpktRequest.mreqOff) files₁ with
          | mk result files₂ =>
              refine ⟨os.close fd files₂, ?_⟩
              cases result with
              | error errno =>
                  simp only [called] at answered
                  rw [handleRequest_answer conf os malloc held answered,
                    if_pos (negErrno_neg errno), neg_negErrno]
                  rfl
              | ok bytes =>
                  simp only [called] at answered
                  rw [handleRequest_answer conf os malloc held answered]
                  rfl

end Owner

def readResult : Except Errno (List UInt8) → Int32 × List UInt8
  | .error errno => (negErrno errno, [])
  | .ok bytes => (Int32.ofNat bytes.length, bytes)

theorem dataResponse_live {got : Packet} {bytes : List UInt8} (small : bytes.length < 2 ^ 31)
    (same : got.live = (dataResponse bytes).live) :
    got.mpktResponse.mrspData.mdataNbytes.toNat = bytes.length ∧
      memcpyFrom got.mpktResponse.mrspData.mdataBuf bytes.length = .ok bytes := by
  have count : (UInt64.ofNat bytes.length).toNat = bytes.length := by
    rw [UInt64.toNat_ofNat', Nat.mod_eq_of_lt (by omega)]
  have sent : (dataResponse bytes).Answers mrspDataType := ⟨rfl, rfl, rfl⟩
  have answers := (answers_of_live same _).mpr sent
  have responses := congrArg Packet.mpktResponse same
  simp only [Packet.live, if_pos answers.2.1, if_pos sent.2.1] at responses
  have data := congrArg Response.mrspData responses
  simp only [Response.live, answers.2.2, sent.2.2, if_true, Data.mk.injEq] at data
  obtain ⟨buf, nbytes⟩ := data
  have nbytes' : got.mpktResponse.mrspData.mdataNbytes = UInt64.ofNat bytes.length := nbytes
  have length : got.mpktResponse.mrspData.mdataNbytes.toNat = bytes.length := by rw [nbytes', count]
  refine ⟨length, ?_⟩
  cases bytes with
  | nil => rfl
  | cons b bytes =>
      have some_ : UInt64.ofNat (b :: bytes).length ≠ 0 := by
        intro zero
        rw [zero] at count
        simp at count
      have sentBuf : (dataResponse (b :: bytes)).mpktResponse.mrspData.mdataBuf = some (b :: bytes) := rfl
      have sentCount : (dataResponse (b :: bytes)).mpktResponse.mrspData.mdataNbytes =
        UInt64.ofNat (b :: bytes).length := rfl
      rw [nbytes', sentBuf, sentCount, if_neg some_, if_neg some_, count, Option.map_some,
        List.take_length] at buf
      obtain ⟨own, held, taken⟩ := Option.map_eq_some_iff.mp buf
      have enough := congrArg List.length taken
      rw [List.length_take] at enough
      have positive : (b :: bytes).length ≠ 0 := by simp
      rw [held, memcpyFrom, if_neg positive, if_pos (by omega), taken]

section Requester
variable {φ : Type} (net : Net φ) (user : CStr) {owner path : CStr} {size : UInt64} {offset : Int64}
variable (smallSize : size.toNat < 2 ^ 31) (smallOffset : SmallOffset offset) (world : World φ)
include smallSize smallOffset

theorem readPacket_requests (conf : ClientConf) {rsrc : Rsrc} (filled : rsrc.Filled) :
    (readPacket conf rsrc size offset).Requests rsrc ∧
      (readPacket conf rsrc size offset).SurvivesCast :=
  ⟨requests_plain conf filled 0 size offset.toUInt64 rfl rfl,
    fun _ => ⟨fun _ => Or.inl smallSize, fun _ => smallOffset.fits⟩⟩

/-- The result is that of a file opened for reading and writing. -/
theorem remoteRead (some_ : path.val ≠ [])
    (reached : net.Reaches owner
      (readPacket (net.conf user) ⟨some owner, some path⟩ size offset))
    (granted : net.malloc owner size.toNat = true)
    (bounded : ∀ bytes, fetch (net.os owner) (middfsLocalpathTmp (net.conf owner) path) oRdwr size.toNat
      offset (world owner) = .ok bytes → bytes.length ≤ size.toNat) :
    ∃ world', clientRsrcRead (net.conf user) ((net.os user).on user) net.xchg
        ⟨.mrNetwork, ⟨some owner, some path⟩, -1⟩ size offset world =
      .ok ((readResult (fetch (net.os owner) (middfsLocalpathTmp (net.conf owner) path) oRdwr size.toNat
          offset (world owner))).1,
        (readResult (fetch (net.os owner) (middfsLocalpathTmp (net.conf owner) path) oRdwr size.toNat
          offset (world owner))).2, world') := by
  obtain ⟨requests, survives⟩ := readPacket_requests smallSize smallOffset (net.conf user)
    (show Rsrc.Filled ⟨some owner, some path⟩ from ⟨rfl, rfl⟩)
  have name : lookedUp (readPacket (net.conf user) ⟨some owner, some path⟩ size offset).mpktRequest =
      some owner := by
    have notRoot : rootRequested
        (readPacket (net.conf user) ⟨some owner, some path⟩ size offset).mpktRequest = false := by
      show path.val.isEmpty = false
      simpa using some_
    rw [lookedUp, notRoot]
    rfl
  obtain ⟨received, live, _, exchange⟩ := Net.xchg_reached net requests.type requests.request survives
    name zeroPacket world reached
  obtain ⟨_, request⟩ := Packet.live_request live requests.type
  have read : received.mpktRequest.mreqType = mreqRead :=
    show received.mpktRequest.live.mreqType = _ by
      rw [request]
      rfl
  have held : received.mpktRequest.mreqRsrc.mrPath = some path :=
    show received.mpktRequest.live.mreqRsrc.mrPath = _ by
      rw [request]
      rfl
  have sentSize : received.mpktRequest.mreqSize = size := by
    have sizes := congrArg Request.mreqSize request
    have has : reqHasSize mreqRead = true := rfl
    simp only [Request.live, read, has, if_true] at sizes
    exact sizes
  have sentOff : offT received.mpktRequest.mreqOff = offset := by
    have offs := congrArg Request.mreqOff request
    have has : reqHasOff mreqRead = true := rfl
    simp only [Request.live, read, has, if_true] at offs
    rw [offs]
    exact Int64.toInt64_toUInt64 offset
  obtain ⟨files', handled⟩ := handleRequest_read (net.conf owner) (net.os owner) (world owner) read held
    (sentSize.symm ▸ granted)
  rw [sentSize, sentOff] at handled
  have received' : ¬ (0 : Int32) < 0 := by decide
  refine ⟨Function.update world owner files', ?_⟩
  cases fetched : fetch (net.os owner) (middfsLocalpathTmp (net.conf owner) path) oRdwr size.toNat offset
      (world owner) with
  | error errno =>
      rw [fetched] at handled
      obtain ⟨response, wf, plain, small⟩ := (Settles.error errno).wellFormed
      obtain ⟨got, same, exchanged⟩ := exchange _ files' handled response wf plain small
      have error : (errorResponse (Int32.ofNat errno.val)).Answers mrspErrorType := ⟨rfl, rfl, rfl⟩
      have answers := (answers_of_live same _).mpr error
      have code : got.mpktResponse.mrspError = Int32.ofNat errno.val := error_of_live same error
      have notData : ¬ got.mpktResponse.mrspType = mrspDataType := by
        rw [answers.2.2]
        decide
      unfold readPacket at exchanged
      simp only [clientRsrcRead, exchanged, if_neg received', if_neg answers.intact, if_neg notData,
        if_pos answers.2.2, code, (negateInt_pos (errno_pos errno)).1]
      rfl
  | ok bytes =>
      rw [fetched] at handled
      have within := bounded bytes fetched
      obtain ⟨response, wf, plain, small⟩ := dataResponse_wellFormed
        (show bytes.length < 2 ^ 31 by omega)
      obtain ⟨got, same, exchanged⟩ := exchange _ files' handled response wf plain small
      have sent : (dataResponse bytes).Answers mrspDataType := ⟨rfl, rfl, rfl⟩
      have answers := (answers_of_live same _).mpr sent
      obtain ⟨count, copied⟩ := dataResponse_live (show bytes.length < 2 ^ 31 by omega) same
      unfold readPacket at exchanged
      simp only [clientRsrcRead, exchanged, if_neg received', if_neg answers.intact, if_pos answers.2.2, count,
        Nat.min_eq_right within, copied]
      rfl

end Requester

/-! ## Regular files -/

/-- A regular file, with the permissions of the owner, and the error that reading
from it comes to, if any. -/
structure RegularFile where
  content : List UInt8
  readable : Bool
  writable : Bool
  fails : Nat → Int64 → Option Errno

def RegularFile.pread (file : RegularFile) (size : Nat) (offset : Int64) : Except Errno (List UInt8) :=
  match file.fails size offset with
  | some errno => .error errno
  | none => .ok ((file.content.drop offset.toNatClampNeg).take size)

def Opens {φ : Type} (os : Os φ) (path : CStr) (files : φ) (file : RegularFile) (flags : Int32)
    (permitted : Bool) : Prop :=
  if permitted then
    ∃ fd files', os.openFile path flags 0 files = (.ok fd, files') ∧
      ∀ size offset, (os.pread fd size offset files').1 = file.pread size offset
  else ∃ errno files', os.openFile path flags 0 files = (.error errno, files')

structure Holds {φ : Type} (os : Os φ) (path : CStr) (files : φ) (file : RegularFile) : Prop where
  rdonly : Opens os path files file oRdonly file.readable
  rdwr : Opens os path files file oRdwr (file.readable && file.writable)

theorem Opens.fetch {φ : Type} {os : Os φ} {path : CStr} {files : φ} {file : RegularFile}
    {flags : Int32} {permitted : Bool} (opens : Opens os path files file flags permitted) (size : Nat)
    (offset : Int64) :
    if permitted then Middfs.fetch os path flags size offset files = file.pread size offset
    else ∃ errno, Middfs.fetch os path flags size offset files = .error errno := by
  unfold Opens at opens
  unfold Middfs.fetch
  cases permitted with
  | true =>
      simp only [if_true] at opens ⊢
      obtain ⟨fd, files', opened, reads⟩ := opens
      rw [opened]
      exact reads size offset
  | false =>
      simp only [Bool.false_eq_true, if_false] at opens ⊢
      obtain ⟨errno, files', opened⟩ := opens
      exact ⟨errno, by rw [opened]⟩

/-! ## A disk -/

structure Disk where
  file : RegularFile
  room : Nat

def overwrite (content : List UInt8) (offset : Nat) (bytes : List UInt8) : List UInt8 :=
  content.take offset ++ List.replicate (offset - content.length) 0 ++ bytes ++
    content.drop (offset + bytes.length)

def diskOs : Os Disk :=
  { failingOs with
    openFile := fun _ flags _ disk =>
      if disk.file.readable && (flags == oRdonly || disk.file.writable) then (.ok 3, disk)
      else (.error eacces, disk)
    pread := fun _ size offset disk => (disk.file.pread size offset, disk)
    pwrite := fun _ buf offset disk =>
      (.ok (buf.take disk.room).length,
        { file :=
            { disk.file with
              content :=
                overwrite disk.file.content offset.toNatClampNeg (buf.take disk.room) }
          room := disk.room - buf.length }) }

theorem diskOs_opens (path : CStr) (disk : Disk) (flags : Int32) :
    Opens diskOs path disk disk.file flags
      (disk.file.readable && (flags == oRdonly || disk.file.writable)) := by
  unfold Opens
  split_ifs with permitted
  · exact ⟨3, disk, if_pos permitted, fun _ _ => rfl⟩
  · exact ⟨eacces, disk, if_neg permitted⟩

theorem diskOs_holds (path : CStr) (disk : Disk) : Holds diskOs path disk disk.file where
  rdonly := by simpa using diskOs_opens path disk oRdonly
  rdwr := diskOs_opens path disk oRdwr

def diskNet : Net Disk where
  home := fun _ => strAt [47, 104]
  os := fun _ => diskOs
  malloc := fun _ _ => true
  lib := Sorting.simpleLibrary Client
  clients := oneUser
  calls := quietCalls
  connects := fun _ => true

def twoBytes (writable : Bool) : Disk where
  file := { content := [1, 2], readable := true, writable := writable, fails := fun _ _ => none }
  room := 1

def pathF : CStr := strAt [47, 102]

/-! ## The owner's own reading -/

/-- `client_rsrc_open` for reading, and `client_rsrc_read`, on a local resource. -/
def localRead {φ : Type} (conf : ClientConf) (os : Os φ) (xchg : Xchg φ) (rsrc : Rsrc) (size : UInt64)
    (offset : Int64) (files : φ) : Except Trap (Int32 × List UInt8) :=
  match clientRsrcOpen conf os xchg ⟨.mrLocal, rsrc, -1⟩ oRdonly 0 files with
  | .error trap => .error trap
  | .ok (retv, opened, files) =>
      if retv < 0 then .ok (retv, [])
      else (clientRsrcRead conf os xchg opened size offset files).map fun (retv, bytes, _) => (retv, bytes)

theorem localRead_eq {φ : Type} (conf : ClientConf) (os : Os φ) (xchg : Xchg φ) {rsrc : Rsrc}
    {path : CStr} (held : rsrc.mrPath = some path) (size : UInt64) (offset : Int64) (files : φ) :
    localRead conf os xchg rsrc size offset files =
      .ok (readResult (fetch os (middfsLocalpathTmp conf path) oRdonly size.toNat offset files)) := by
  have received : ¬ (0 : Int32) < 0 := by decide
  simp only [localRead, clientRsrcOpen, localPath, held, fetch, ite_self]
  cases os.openFile (middfsLocalpathTmp conf path) oRdonly 0 files with
  | mk result files₁ =>
      cases result with
      | error errno =>
          simp only [if_pos (negErrno_neg errno)]
          rfl
      | ok fd =>
          simp only [if_neg received, clientRsrcRead]
          cases os.pread fd size.toNat offset files₁ with
          | mk result files₂ => cases result <;> rfl

structure ReadsAlike (remote own : Int32 × List UInt8) : Prop where
  fails : remote.1 < 0 ↔ own.1 < 0
  reads : 0 ≤ own.1 → remote = own

theorem ReadsAlike.refl (result : Int32 × List UInt8) : ReadsAlike result result :=
  ⟨Iff.rfl, fun _ => rfl⟩

theorem readsAlike_errors (errno errno' : Errno) :
    ReadsAlike (readResult (.error errno)) (readResult (.error errno')) where
  fails := iff_of_true (negErrno_neg errno) (negErrno_neg errno')
  reads := fun success => absurd success (not_nonneg (negErrno_neg errno'))

theorem readResult_nonneg {bytes : List UInt8} (small : bytes.length < 2 ^ 31) :
    0 ≤ (readResult (.ok bytes)).1 := by
  have value : (Int32.ofNat bytes.length).toInt = bytes.length := Int32.toInt_ofNat_of_lt small
  have zero : (0 : Int32).toInt = 0 := rfl
  show 0 ≤ Int32.ofNat bytes.length
  rw [Int32.le_iff_toInt_le, value, zero]
  omega

theorem RegularFile.pread_length {file : RegularFile} {size : Nat} {offset : Int64} {bytes : List UInt8}
    (read : file.pread size offset = .ok bytes) : bytes.length ≤ size := by
  unfold RegularFile.pread at read
  cases failing : file.fails size offset with
  | some errno =>
      rw [failing] at read
      cases read
  | none =>
      rw [failing] at read
      cases read
      rw [List.length_take]
      omega

/-- A remote read agrees with the owner's own, unless the file may be read but
not written and the read itself succeeds. -/
theorem remoteRead_agrees_iff {φ : Type} (net : Net φ) (user : CStr) {owner path : CStr}
    {size : UInt64} {offset : Int64} (world : World φ) (file : RegularFile) (ownXchg : Xchg φ)
    (smallSize : size.toNat < 2 ^ 31) (smallOffset : SmallOffset offset) (some_ : path.val ≠ [])
    (reached : net.Reaches owner (readPacket (net.conf user) ⟨some owner, some path⟩ size offset))
    (granted : net.malloc owner size.toNat = true)
    (holds : Holds (net.os owner) (middfsLocalpathTmp (net.conf owner) path) (world owner) file) :
    (∃ retv bytes world' result, clientRsrcRead (net.conf user) ((net.os user).on user) net.xchg
          ⟨.mrNetwork, ⟨some owner, some path⟩, -1⟩ size offset world = .ok (retv, bytes, world') ∧
        localRead (net.conf owner) (net.os owner) ownXchg ⟨some owner, some path⟩ size offset
          (world owner) = .ok result ∧
        ReadsAlike (retv, bytes) result) ↔
      (file.readable = true → file.writable = true ∨ (file.fails size.toNat offset).isSome) := by
  have writing := holds.rdwr.fetch size.toNat offset
  have reading := holds.rdonly.fetch size.toNat offset
  obtain ⟨world', remote⟩ := remoteRead net user smallSize smallOffset world some_ reached granted (by
    intro bytes fetched
    rw [fetched] at writing
    split_ifs at writing
    · exact RegularFile.pread_length writing.symm
    · obtain ⟨errno, no⟩ := writing
      cases no)
  have ownRead := @localRead_eq φ (net.conf owner) (net.os owner) ownXchg ⟨some owner, some path⟩ path rfl
    size offset (world owner)
  have alike : (∃ retv bytes world' result, clientRsrcRead (net.conf user) ((net.os user).on user)
          net.xchg ⟨.mrNetwork, ⟨some owner, some path⟩, -1⟩ size offset world =
            .ok (retv, bytes, world') ∧
        localRead (net.conf owner) (net.os owner) ownXchg ⟨some owner, some path⟩ size offset
          (world owner) = .ok result ∧ ReadsAlike (retv, bytes) result) ↔
      ReadsAlike
        (readResult (fetch (net.os owner) (middfsLocalpathTmp (net.conf owner) path) oRdwr size.toNat
          offset (world owner)))
        (readResult (fetch (net.os owner) (middfsLocalpathTmp (net.conf owner) path) oRdonly size.toNat
          offset (world owner))) := by
    constructor
    · rintro ⟨retv, bytes, _, result, there, here, same⟩
      rw [remote] at there
      rw [ownRead] at here
      cases there
      cases here
      exact same
    · intro same
      exact ⟨_, _, world', _, remote, ownRead, same⟩
  rw [alike]
  cases readable : file.readable with
  | false =>
      simp only [readable, Bool.false_and, Bool.false_eq_true, if_false] at writing reading
      obtain ⟨errno, failed⟩ := writing
      obtain ⟨errno', failed'⟩ := reading
      rw [failed, failed']
      exact iff_of_true (readsAlike_errors errno errno') fun no => by cases no
  | true =>
      simp only [readable, Bool.true_and, if_true] at writing reading
      rw [reading]
      cases writable : file.writable with
      | true =>
          simp only [writable, if_true] at writing
          rw [writing]
          exact iff_of_true (ReadsAlike.refl _) fun _ => Or.inl rfl
      | false =>
          simp only [writable, Bool.false_eq_true, if_false] at writing
          obtain ⟨errno, failed⟩ := writing
          rw [failed]
          cases failing : file.fails size.toNat offset with
          | some errno' =>
              have own : file.pread size.toNat offset = .error errno' := by
                rw [RegularFile.pread, failing]
              rw [own]
              exact iff_of_true (readsAlike_errors errno errno') fun _ => Or.inr rfl
          | none =>
              have own : file.pread size.toNat offset =
                  .ok ((file.content.drop offset.toNatClampNeg).take size.toNat) := by
                rw [RegularFile.pread, failing]
              refine iff_of_false (fun same => ?_) fun both => ?_
              · have short := RegularFile.pread_length own
                rw [own] at same
                exact absurd (readResult_nonneg (by omega))
                  (not_nonneg (same.fails.mp (negErrno_neg errno)))
              · rcases both rfl with no | no <;> cases no

theorem bothPermitted_agrees :
    ∃ retv bytes world' result, clientRsrcRead (diskNet.conf userA) ((diskNet.os userA).on userA)
          diskNet.xchg ⟨.mrNetwork, ⟨some userB, some pathF⟩, -1⟩ 2 0 (fun _ => twoBytes true) =
            .ok (retv, bytes, world') ∧
        localRead (diskNet.conf userB) (diskNet.os userB) (fun _ got files => .ok ((-1, got), files))
          ⟨some userB, some pathF⟩ 2 0 (twoBytes true) = .ok result ∧
        ReadsAlike (retv, bytes) result :=
  (remoteRead_agrees_iff diskNet userA (fun _ => twoBytes true) (twoBytes true).file
    (fun _ got files => .ok ((-1, got), files)) (by decide) (by decide) (by decide)
    ⟨by decide, by decide, rfl⟩ rfl (diskOs_holds _ (twoBytes true))).mpr fun _ => Or.inl rfl

/-- `b` may read the file and `a` gets an error, since it is not writable. -/
theorem readOnly_disagrees :
    ¬ ∃ retv bytes world' result, clientRsrcRead (diskNet.conf userA) ((diskNet.os userA).on userA)
          diskNet.xchg ⟨.mrNetwork, ⟨some userB, some pathF⟩, -1⟩ 2 0 (fun _ => twoBytes false) =
            .ok (retv, bytes, world') ∧
        localRead (diskNet.conf userB) (diskNet.os userB) (fun _ got files => .ok ((-1, got), files))
          ⟨some userB, some pathF⟩ 2 0 (twoBytes false) = .ok result ∧
        ReadsAlike (retv, bytes) result := by
  rintro ⟨retv, bytes, world', result, there, here, same⟩
  obtain ⟨_, remote⟩ := remoteRead diskNet userA (show (2 : UInt64).toNat < 2 ^ 31 by decide)
    (show SmallOffset 0 by decide) (fun _ => twoBytes false) (show pathF.val ≠ [] by decide)
    (show diskNet.Reaches userB _ from ⟨by decide, by decide, rfl⟩) rfl fun _ fetched => by cases fetched
  rw [remote] at there
  rw [localRead_eq (diskNet.conf userB) (diskNet.os userB) _ rfl] at here
  cases there
  cases here
  exact absurd (same.fails.mp (by decide)) (by decide)

/-! ## Writing -/

def writePacket (conf : ClientConf) (rsrc : Rsrc) (buf : List UInt8) (offset : Int64) : Packet :=
  { requestPacket conf mreqWrite rsrc with
    mpktRequest := { (requestPacket conf mreqWrite rsrc).mpktRequest with
      mreqSize := UInt64.ofNat buf.length, mreqOff := offset.toUInt64, mreqData := some buf } }

/-- Opening a file and writing to it: the number of bytes written. -/
def stash {φ : Type} (os : Os φ) (path : CStr) (buf : List UInt8) (offset : Int64) (files : φ) :
    Except Errno Nat :=
  match os.openFile path oRdwr 0 files with
  | (.error errno, _) => .error errno
  | (.ok fd, files) => (os.pwrite fd buf offset files).1

section OwnerWrites
variable {φ : Type} (conf : ClientConf) (os : Os φ) (malloc : Nat → Bool)

theorem handleRequestType_write {req : Request} (write : req.mreqType = mreqWrite) (path : CStr)
    (rsp : Response) (files : φ) : handleRequestType conf os malloc path req rsp files =
      .ok (some (handleRequestFd os path (handleRequestWrite os) req rsp files)) := by
  rw [handleRequestType, write]
  rfl

theorem handleRequest_write {received : Packet} {path : CStr} {buf : List UInt8} (files : φ)
    (write : received.mpktRequest.mreqType = mreqWrite)
    (held : received.mpktRequest.mreqRsrc.mrPath = some path)
    (source : writeSource received.mpktRequest = some buf) :
    ∃ files', handleRequest conf os malloc received zeroPacket files =
      .ok (.hsSuc,
        statusResponse (stash os (middfsLocalpathTmp conf path) buf
          (offT received.mpktRequest.mreqOff) files),
        files') := by
  have answered := handleRequestType_write conf os malloc write (middfsLocalpathTmp conf path) {} files
  rw [handleRequestFd] at answered
  unfold stash
  cases opened : os.openFile (middfsLocalpathTmp conf path) oRdwr 0 files with
  | mk result files₁ =>
      cases result with
      | error errno =>
          simp only [opened] at answered
          refine ⟨files₁, ?_⟩
          rw [handleRequest_answer conf os malloc held answered, if_pos (negErrno_neg errno),
            neg_negErrno]
          rfl
      | ok fd =>
          simp only [opened, handleRequestWrite, source] at answered ⊢
          cases called : os.pwrite fd buf (offT received.mpktRequest.mreqOff) files₁ with
          | mk result files₂ =>
              refine ⟨os.close fd files₂, ?_⟩
              cases result with
              | error errno =>
                  simp only [called] at answered
                  rw [handleRequest_answer conf os malloc held answered,
                    if_pos (negErrno_neg errno), neg_negErrno]
                  rfl
              | ok count =>
                  simp only [called] at answered
                  rw [handleRequest_answer conf os malloc held answered]
                  rfl

end OwnerWrites

section RequesterWrites
variable {φ : Type} (net : Net φ) (user : CStr) {owner path : CStr} (buf : List UInt8) {offset : Int64}
variable (malloc : Nat → Bool) (junk : Packet)
variable (small : buf.length < 2 ^ 31) (smallOffset : SmallOffset offset) (some_ : path.val ≠ [])
variable (world : World φ)

def remoteWrite (owner path : CStr) (buf : List UInt8) (offset : Int64) (world : World φ) :
    Except Trap (Int32 × World φ) :=
  clientRsrcWrite (net.conf user) ((net.os user).on user) net.xchg malloc junk
    ⟨.mrNetwork, ⟨some owner, some path⟩, -1⟩ buf offset world

/-- A count that is returned is the one that the owner's pwrite returned, which is called if
the request gets to him. -/
def ReportsCount (owner path : CStr) (buf : List UInt8) (offset : Int64) (world : World φ) : Prop :=
  ∀ n world', remoteWrite net user malloc junk owner path buf offset world = .ok (n, world') → 0 ≤ n →
    net.Reaches owner (writePacket (net.conf user) ⟨some owner, some path⟩ buf offset) ∧
      ∃ count, stash (net.os owner) (middfsLocalpathTmp (net.conf owner) path) buf offset (world owner) =
        .ok count ∧ n.toInt = count

structure MayWrite : Prop where
  named : user.val ≠ []
  username : malloc (user.val.length + 1) = true
  copied : malloc buf.length = true

theorem remoteWrite_refused (refused : ¬ MayWrite user buf malloc) {n : Int32} {world' : World φ}
    (written : remoteWrite net user malloc junk owner path buf offset world = .ok (n, world')) :
    n < 0 := by
  simp only [remoteWrite, clientRsrcWrite] at written
  split_ifs at written with unnamed granted
  · exact absurd ⟨unnamed, granted.1, granted.2⟩ refused
  · cases written
    decide

theorem remoteWrite_sent (may : MayWrite user buf malloc) {retv : Int32} {got : Packet}
    {world' : World φ}
    (exchanged : net.xchg (writePacket (net.conf user) ⟨some owner, some path⟩ buf offset) junk world =
      .ok ((retv, got), world')) :
    remoteWrite net user malloc junk owner path buf offset world =
      if retv < 0 then .ok (-1, world')
      else if got.Answers mrspOk then .ok (Int32.ofNat (UInt64.ofNat buf.length).toNat, world')
      else .error .assertFail := by
  have named : (net.conf user).username.val ≠ [] := may.named
  have granted : malloc ((net.conf user).username.val.length + 1) = true ∧ malloc buf.length = true :=
    ⟨may.username, may.copied⟩
  unfold writePacket at exchanged
  simp only [remoteWrite, clientRsrcWrite, if_neg named, if_pos granted, exchanged]
  rfl

include small smallOffset some_

theorem writePacket_requests (conf : ClientConf) :
    (writePacket conf ⟨some owner, some path⟩ buf offset).Requests ⟨some owner, some path⟩ ∧
      (writePacket conf ⟨some owner, some path⟩ buf offset).SurvivesCast ∧
      lookedUp (writePacket conf ⟨some owner, some path⟩ buf offset).mpktRequest = some owner := by
  have length : (UInt64.ofNat buf.length).toNat = buf.length := by
    rw [UInt64.toNat_ofNat', Nat.mod_eq_of_lt (by omega)]
  refine ⟨requests_write conf ⟨rfl, rfl⟩ ⟨buf, by omega⟩ offset.toUInt64, fun _ => ⟨fun _ => ?_,
    fun _ => smallOffset.fits⟩, ?_⟩
  · left
    show (UInt64.ofNat buf.length).toNat < 2 ^ 31
    rw [length]
    exact small
  · have notRoot : rootRequested (writePacket conf ⟨some owner, some path⟩ buf offset).mpktRequest =
        false := by
      show path.val.isEmpty = false
      simpa using some_
    rw [lookedUp, notRoot]
    rfl

/-- What the owner's calls come to is only looked at for an error. -/
theorem remoteWrite_reached (may : MayWrite user buf malloc)
    (reached : net.Reaches owner (writePacket (net.conf user) ⟨some owner, some path⟩ buf offset)) :
    ∃ world', remoteWrite net user malloc junk owner path buf offset world =
      match stash (net.os owner) (middfsLocalpathTmp (net.conf owner) path) buf offset (world owner) with
      | .error _ => .error .assertFail
      | .ok _ => .ok (Int32.ofNat (UInt64.ofNat buf.length).toNat, world') := by
  obtain ⟨requests, survives, name⟩ :=
    @writePacket_requests owner path buf offset small smallOffset some_ (net.conf user)
  obtain ⟨received, live, wf, exchange⟩ := Net.xchg_reached net requests.type requests.request survives
    name junk world reached
  obtain ⟨_, request⟩ := Packet.live_request live requests.type
  have write : received.mpktRequest.mreqType = mreqWrite :=
    show received.mpktRequest.live.mreqType = _ by
      rw [request]
      rfl
  have held : received.mpktRequest.mreqRsrc.mrPath = some path :=
    show received.mpktRequest.live.mreqRsrc.mrPath = _ by
      rw [request]
      rfl
  have sentSize : received.mpktRequest.mreqSize = UInt64.ofNat buf.length := by
    have sizes := congrArg Request.mreqSize request
    have has : reqHasSize mreqWrite = true := rfl
    simp only [Request.live, write, has, if_true] at sizes
    exact sizes
  have sentData : received.mpktRequest.mreqData = some buf := by
    have data := congrArg Request.mreqData request
    have has : reqHasData mreqWrite = true := rfl
    simp only [Request.live, write, has, if_true] at data
    exact data
  have sentOff : offT received.mpktRequest.mreqOff = offset := by
    have offs := congrArg Request.mreqOff request
    have has : reqHasOff mreqWrite = true := rfl
    simp only [Request.live, write, has, if_true] at offs
    rw [offs]
    exact Int64.toInt64_toUInt64 offset
  have length : (UInt64.ofNat buf.length).toNat = buf.length := by
    rw [UInt64.toNat_ofNat', Nat.mod_eq_of_lt (by omega)]
  have source : writeSource received.mpktRequest = some buf := by
    rw [writeSource, sentSize, sentData, Option.map_some, length, List.take_length]
    split_ifs with empty
    · rw [empty] at length
      rw [List.eq_nil_of_length_eq_zero length.symm]
    · rfl
  obtain ⟨files', handled⟩ := handleRequest_write (net.conf owner) (net.os owner) (net.malloc owner)
    (world owner) write held source
  rw [sentOff] at handled
  have received' : ¬ (0 : Int32) < 0 := by decide
  refine ⟨Function.update world owner files', ?_⟩
  cases stored : stash (net.os owner) (middfsLocalpathTmp (net.conf owner) path) buf offset
      (world owner) with
  | error errno =>
      rw [stored] at handled
      obtain ⟨response, wf, plain, short⟩ := (Settles.error errno).wellFormed
      obtain ⟨got, same, exchanged⟩ := exchange _ files' handled response wf plain short
      have error := (answers_of_live same mrspErrorType).mpr ⟨rfl, rfl, rfl⟩
      have notOk : ¬ got.Answers mrspOk := fun ok => absurd (ok.unique error) (by decide)
      rw [remoteWrite_sent net user buf malloc junk world may exchanged, if_neg received', if_neg notOk]
  | ok count =>
      rw [stored] at handled
      obtain ⟨response, wf, plain, short⟩ := Settles.ok.wellFormed
      obtain ⟨got, same, exchanged⟩ := exchange _ files' handled response wf plain short
      have ok := (answers_of_live same mrspOk).mpr ⟨rfl, rfl, rfl⟩
      rw [remoteWrite_sent net user buf malloc junk world may exchanged, if_neg received', if_pos ok]

/-- A write that does not get to the owner is not taken for a success, unless the connection
was closed and the packet that was not filled in happens to be an OK response. -/
theorem remoteWrite_unreached (may : MayWrite user buf malloc)
    (unreached : ¬ net.Reaches owner (writePacket (net.conf user) ⟨some owner, some path⟩ buf offset))
    (fresh : net.Deserts owner (writePacket (net.conf user) ⟨some owner, some path⟩ buf offset) →
      ¬ junk.Answers mrspOk)
    {n : Int32} {world' : World φ}
    (written : remoteWrite net user malloc junk owner path buf offset world = .ok (n, world')) :
    n < 0 := by
  have received : ¬ (0 : Int32) < 0 := by decide
  obtain ⟨requests, survives, name⟩ :=
    @writePacket_requests owner path buf offset small smallOffset some_ (net.conf user)
  obtain ⟨retv, got, exchanged, failed | ⟨rfl, rfl, deserts⟩ | ⟨rfl, same⟩⟩ := Net.xchg_unreached net
    requests.type requests.request survives name junk world unreached
  · rw [remoteWrite_sent net user buf malloc junk world may exchanged, if_pos failed] at written
    cases written
    decide
  · rw [remoteWrite_sent net user buf malloc got world may exchanged, if_neg received,
      if_neg (fresh deserts)] at written
    cases written
  · have error := (answers_of_live same mrspErrorType).mpr ⟨rfl, rfl, rfl⟩
    have notOk : ¬ got.Answers mrspOk := fun ok => absurd (ok.unique error) (by decide)
    rw [remoteWrite_sent net user buf malloc junk world may exchanged, if_neg received, if_neg notOk]
      at written
    cases written

/-- The success of a write that the owner does not hear of. -/
theorem remoteWrite_deserted (may : MayWrite user buf malloc)
    (deserts : net.Deserts owner (writePacket (net.conf user) ⟨some owner, some path⟩ buf offset))
    (stale : junk.Answers mrspOk) :
    remoteWrite net user malloc junk owner path buf offset world =
      .ok (Int32.ofNat (UInt64.ofNat buf.length).toNat, world) := by
  have received : ¬ (0 : Int32) < 0 := by decide
  obtain ⟨requests, survives, name⟩ :=
    @writePacket_requests owner path buf offset small smallOffset some_ (net.conf user)
  have exchanged := Net.xchg_deserted net requests.type requests.request survives name junk world deserts
  rw [remoteWrite_sent net user buf malloc junk world may exchanged, if_neg received, if_pos stale]

/-- A remote write reports the count of the owner's pwrite exactly when pwrite, if it comes to
that, writes all of the bytes, and a connection that is closed without an answer does not
find an OK response in the packet that was not initialised. -/
theorem remoteWrite_reports_iff :
    ReportsCount net user malloc junk owner path buf offset world ↔
      (MayWrite user buf malloc →
        (net.Reaches owner (writePacket (net.conf user) ⟨some owner, some path⟩ buf offset) →
          ∀ count, stash (net.os owner) (middfsLocalpathTmp (net.conf owner) path) buf offset
            (world owner) = .ok count → count = buf.length) ∧
        (net.Deserts owner (writePacket (net.conf user) ⟨some owner, some path⟩ buf offset) →
          ¬ junk.Answers mrspOk)) := by
  have length : (UInt64.ofNat buf.length).toNat = buf.length := by
    rw [UInt64.toNat_ofNat', Nat.mod_eq_of_lt (by omega)]
  have value : (Int32.ofNat (UInt64.ofNat buf.length).toNat).toInt = buf.length := by
    rw [length]
    exact Int32.toInt_ofNat_of_lt small
  have nonneg : 0 ≤ Int32.ofNat (UInt64.ofNat buf.length).toNat := by
    have zero : (0 : Int32).toInt = 0 := rfl
    rw [Int32.le_iff_toInt_le, value, zero]
    omega
  constructor
  · intro reports may
    refine ⟨fun reached count stored => ?_, fun deserts stale => ?_⟩
    · obtain ⟨world', written⟩ :=
        remoteWrite_reached net user buf malloc junk small smallOffset some_ world may reached
      rw [stored] at written
      obtain ⟨_, count', stored', same⟩ := reports _ _ written nonneg
      rw [stored] at stored'
      cases stored'
      rw [value] at same
      omega
    · have written :=
        remoteWrite_deserted net user buf malloc junk small smallOffset some_ world may deserts stale
      exact deserts.unreached net (reports _ _ written nonneg).1
  · intro kept n world' written success
    by_cases may : MayWrite user buf malloc
    · obtain ⟨full, fresh⟩ := kept may
      by_cases reached : net.Reaches owner
        (writePacket (net.conf user) ⟨some owner, some path⟩ buf offset)
      · obtain ⟨world'', answer⟩ :=
          remoteWrite_reached net user buf malloc junk small smallOffset some_ world may reached
        rw [answer] at written
        cases stored : stash (net.os owner) (middfsLocalpathTmp (net.conf owner) path) buf offset
            (world owner) with
        | error errno =>
            rw [stored] at written
            cases written
        | ok count =>
            rw [stored] at written
            cases written
            refine ⟨reached, count, rfl, ?_⟩
            rw [value, full reached count stored]
      · exact absurd success (not_nonneg (remoteWrite_unreached net user buf malloc junk small
          smallOffset some_ world may reached fresh written))
    · exact absurd success (not_nonneg (remoteWrite_refused net user buf malloc junk world may written))

end RequesterWrites

theorem wholeWrite_reports :
    ReportsCount diskNet userA (fun _ => true) zeroPacket userB pathF [7] 0 (fun _ => twoBytes true) := by
  refine (remoteWrite_reports_iff diskNet userA [7] (fun _ => true) zeroPacket (by decide) (by decide)
    (by decide) (fun _ => twoBytes true)).mpr ?_
  intro _
  refine ⟨fun _ count stored => ?_, fun deserts => ?_⟩
  · cases stored
    rfl
  · have shut : true = false := deserts.unconnected
    cases shut

/-- There is room for one byte, two are written, and 2 is returned. -/
theorem shortWrite_misreports :
    ¬ ReportsCount diskNet userA (fun _ => true) zeroPacket userB pathF [7, 8] 0
      (fun _ => twoBytes true) := by
  intro reports
  obtain ⟨world', written⟩ := remoteWrite_reached diskNet userA [7, 8] (fun _ => true) zeroPacket
    (by decide) (show SmallOffset 0 by decide) (show pathF.val ≠ [] by decide) (fun _ => twoBytes true)
    ⟨by decide, rfl, rfl⟩ (show diskNet.Reaches userB _ from ⟨by decide, by decide, rfl⟩)
  obtain ⟨_, count, stored, same⟩ := reports 2 world' written (by decide)
  cases stored
  exact absurd same (by decide)

/-- The owner cannot be connected to, and the packet that was not initialised is an OK
response: 2 is returned, and nothing is written. -/
theorem staleResponse_misreports :
    ¬ ReportsCount { diskNet with connects := fun _ => false } userA (fun _ => true) okResponse userB
      pathF [7, 8] 0 (fun _ => twoBytes true) := by
  intro reports
  have written := remoteWrite_deserted { diskNet with connects := fun _ => false } userA [7, 8]
    (fun _ => true) okResponse (by decide) (show SmallOffset 0 by decide) (show pathF.val ≠ [] by decide)
    (fun _ => twoBytes true) ⟨by decide, rfl, rfl⟩
    (show Net.Deserts _ userB _ from ⟨by decide, by decide, rfl⟩) ⟨rfl, rfl, rfl⟩
  have reached := (reports _ _ written (by decide)).1.connected
  cases reached

end Middfs
