import Middfs.Buffers
import Middfs.Client.Handler
import Middfs.Naming

/-!
# Clients behind a server

Every user has a machine with files, on which a client responder runs; the
server passes requests on to the machine of the user who is named in them.  All
packets are encoded and decoded on their way.  A connection that is closed
without an answer leaves the requester with the packet that he had.
-/

set_option autoImplicit false

namespace Middfs

/-! ## Packets on the way -/

/-- What is received of a packet, with memory enough at both ends for whatever
an object can hold. -/
def carry (pkt : Packet) : Option Packet :=
  if pkt.wire.length < 2 ^ 63 then
    match bufferSerialize memory (serializePkt pkt) bufferInit with
    | .error _ | .ok (_, none) => none
    | .ok (buf, some _) =>
        match deserializePkt memory buf.bytes zeroPacket 0 with
        | .error _ => none
        | .ok s => if s.err = 0 ∧ s.used ≤ buf.used then some s.obj else none
  else none

/-- It is no directory, for which the receiver needs more memory. -/
def Packet.Plain (pkt : Packet) : Prop :=
  pkt.mpktType = mpktResponseType → pkt.mpktResponse.mrspType ≠ mrspDirType

theorem carry_whole {pkt : Packet} (wf : pkt.WellFormed) (survives : pkt.SurvivesCast)
    (plain : pkt.Plain) (small : pkt.wire.length < 2 ^ 63) :
    ∃ got, carry pkt = some got ∧ got.live = pkt.live ∧ got.WellFormed ∧
      got.wire.length = pkt.wire.length := by
  obtain ⟨buf, encoded, image⟩ := bufferSerialize_whole wf small bufferInit_contents
  have bytes : buf.bytes = pkt.wire ++ [] := by
    rw [image, pkt.image_of_survives survives, List.append_nil]
  have bound : (pkt.wire ++ []).length < 2 ^ 63 := by rwa [List.append_nil]
  obtain ⟨got, decoded, live⟩ := deserializePkt_wire memory_small wf
    (show zeroPacket.Grants memory pkt from fun response isDir => absurd isDir (plain response))
    (zeroPacket_ready _) bound
  have used : buf.used = pkt.wire.length := by rw [← buf.bytes_length, bytes, List.append_nil]
  refine ⟨got, ?_, live, ?_⟩
  · simp only [carry, small, encoded, bytes, decoded, used, le_refl, and_self, if_true]
  · obtain ⟨whole, _, same, _⟩ := wire_decodes wf bound (List.prefix_refl _) decoded rfl (by simp)
    exact ⟨whole, congrArg List.length same⟩

theorem Packet.live_request {pkt got : Packet} (same : got.live = pkt.live)
    (request : pkt.mpktType = mpktRequestType) :
    got.mpktType = mpktRequestType ∧ got.mpktRequest.live = pkt.mpktRequest.live := by
  have type : got.mpktType = mpktRequestType := (congrArg Packet.mpktType same).trans request
  have requests := congrArg Packet.mpktRequest same
  simp only [Packet.live, if_pos type, if_pos request] at requests
  exact ⟨type, requests⟩

theorem Packet.survives_of_live {pkt got : Packet} (same : got.live = pkt.live)
    (request : pkt.mpktType = mpktRequestType) (survives : pkt.SurvivesCast) : got.SurvivesCast := by
  intro _
  obtain ⟨_, live⟩ := Packet.live_request same request
  have type : got.mpktRequest.mreqType = pkt.mpktRequest.mreqType :=
    show got.mpktRequest.live.mreqType = _ by
      rw [live]
      rfl
  have size := congrArg Request.mreqSize live
  have off := congrArg Request.mreqOff live
  simp only [Request.live, type] at size off
  obtain ⟨sizeFits, offFits⟩ := survives request
  rw [type]
  constructor
  · intro has
    rw [if_pos has, if_pos has] at size
    rw [size]
    exact sizeFits has
  · intro has
    rw [if_pos has, if_pos has] at off
    rw [off]
    exact offFits has

theorem carry_response {rsp : Packet} (response : rsp.mpktType = mpktResponseType)
    (wf : rsp.mpktResponse.WellFormed) (plain : rsp.mpktResponse.mrspType ≠ mrspDirType)
    (small : rsp.wire.length < 2 ^ 63) :
    ∃ pkt got, carry rsp = some pkt ∧ pkt.live = rsp.live ∧ carry pkt = some got ∧
      got.live = rsp.live := by
  have notRequest : mpktResponseType ≠ mpktRequestType := by decide
  have notConnect : mpktResponseType ≠ mpktConnectType := by decide
  have whole : rsp.WellFormed :=
    ⟨fun request => absurd (response.symm.trans request) notRequest, fun _ => wf,
      fun connect => absurd (response.symm.trans connect) notConnect⟩
  obtain ⟨pkt, first, live, wf', length⟩ := carry_whole whole
    (fun request => absurd (response.symm.trans request) notRequest) (fun _ => plain) small
  have type : pkt.mpktType = mpktResponseType := (congrArg Packet.mpktType live).trans response
  have plain' : pkt.Plain := by
    intro _ isDir
    have responses := congrArg Packet.mpktResponse live
    simp only [Packet.live, if_pos type, if_pos response] at responses
    have tags := congrArg Response.mrspType responses
    rw [Response.live_type, Response.live_type, isDir] at tags
    exact plain tags.symm
  obtain ⟨got, second, live', _, _⟩ := carry_whole wf'
    (fun request => absurd (type.symm.trans request) notRequest) plain' (length ▸ small)
  exact ⟨pkt, got, first, live, second, live'.trans live⟩

/-! ## Machines -/

abbrev World (φ : Type) := CStr → φ

section Machines
variable {φ : Type}

def onMachine {β : Type} (user : CStr) (call : Sys φ β) : Sys (World φ) β := fun world =>
  ((call (world user)).1, Function.update world user (call (world user)).2)

def Os.on (user : CStr) (os : Os φ) : Os (World φ) where
  openFile := fun path flags mode => onMachine user (os.openFile path flags mode)
  close := fun fd world => Function.update world user (os.close fd (world user))
  pread := fun fd size offset => onMachine user (os.pread fd size offset)
  pwrite := fun fd buf offset => onMachine user (os.pwrite fd buf offset)
  stat := fun path => onMachine user (os.stat path)
  lstat := fun path => onMachine user (os.lstat path)
  opendir := fun path => onMachine user (os.opendir path)
  fdopendir := fun fd => onMachine user (os.fdopendir fd)
  access := fun path mode => onMachine user (os.access path mode)
  truncate := fun path size => onMachine user (os.truncate path size)
  ftruncate := fun fd size => onMachine user (os.ftruncate fd size)
  rename := fun src dst => onMachine user (os.rename src dst)
  uid := os.uid
  gid := os.gid

/-- The machines, what the server's registry holds, and which responders the
server can connect to. -/
structure Net (φ : Type) where
  home : CStr → CStr
  os : CStr → Os φ
  malloc : CStr → Nat → Bool
  lib : Sorting.Library Client
  clients : Clients
  calls : Calls
  connects : CStr → Bool

variable (net : Net φ)

def Net.conf (user : CStr) : ClientConf := { username := user, homepath := net.home user }

/-- What the responder of a user answers, unless it closes the connection. -/
def Net.respond (user : CStr) (received : Packet) (world : World φ) : Option Packet × World φ :=
  match handleRequest (net.conf user) (net.os user) (net.malloc user) received zeroPacket
    (world user) with
  | .error _ => (none, world)
  | .ok (.hsSuc, rsp, files) => (some rsp, Function.update world user files)
  | .ok (_, _, files) => (none, Function.update world user files)

def freshEntry : Sockinfo where
  type := .mfdPktIn
  state := .mssReqrd
  inEnd := sockendInit 0
  outEnd := sockendInit (-1)
  revents := Revents.none

/-- What the server sends back, as `handle_req_rd_fin` and the states after it
have it. -/
def Net.serve (served : Packet) (world : World φ) : Option Packet × World φ :=
  let req := served.mpktRequest
  if rootRequested req then
    let outPkt := packetInit zeroPacket mpktResponseType
    let (_, rsp) := handleReqRdFinRoot net.calls freshEntry req outPkt.mpktResponse net.clients
    (some { outPkt with mpktResponse := rsp }, world)
  else
    match req.mreqRsrc.mrOwner with
    | none => (none, world)
    | some user =>
        match clientFind net.lib user net.clients with
        | none => (some (packetError zeroPacket enoent), world)
        | some _ =>
            if net.connects user then
              match carry served with
              | none => (none, world)
              | some received =>
                  match net.respond user received world with
                  | (none, world) => (none, world)
                  | (some rsp, world) => (carry rsp, world)
            else (none, world)

/-- `packet_xchg`.  It fails if there is no memory for the request.  `packet_recv` gives 1
for a connection that is closed without an answer, and 0 is returned with `in_pkt` as it
was.  What counts of a packet that arrives does not depend on `in_pkt`, which is zeroed
whenever a directory is asked for. -/
def Net.xchg : Xchg (World φ) := fun outPkt inPkt world =>
  match carry outPkt with
  | none => .ok ((if outPkt.wire.length < 2 ^ 63 then 0 else -Int32.ofInt enomem, inPkt), world)
  | some served =>
      match net.serve served world with
      | (none, world) => .ok ((0, inPkt), world)
      | (some rsp, world) =>
          match carry rsp with
          | none => .ok ((0, inPkt), world)
          | some pkt => .ok ((0, pkt), world)

/-! ## An exchange -/

/-- A request that fits into memory, for a user who is registered and can be
connected to. -/
structure Net.Reaches (user : CStr) (outPkt : Packet) : Prop where
  fits : outPkt.wire.length < 2 ^ 63
  registered : (clientFind net.lib user net.clients).isSome
  connected : net.connects user = true

/-- A request that the server takes and does not answer: its owner is registered, and
cannot be connected to. -/
structure Net.Deserts (user : CStr) (outPkt : Packet) : Prop where
  fits : outPkt.wire.length < 2 ^ 63
  registered : (clientFind net.lib user net.clients).isSome
  unconnected : net.connects user = false

theorem Net.Deserts.unreached {user : CStr} {outPkt : Packet} (deserts : net.Deserts user outPkt) :
    ¬ net.Reaches user outPkt := by
  intro reached
  have shut := deserts.unconnected
  rw [reached.connected] at shut
  cases shut

variable {user : CStr} {outPkt : Packet} (type : outPkt.mpktType = mpktRequestType)
variable (wf : outPkt.mpktRequest.WellFormed) (survives : outPkt.SurvivesCast)
variable (name : lookedUp outPkt.mpktRequest = some user) (inPkt : Packet) (world : World φ)
include type wf survives name

/-- The server gets the request and looks the user up. -/
theorem Net.xchg_served (fits : outPkt.wire.length < 2 ^ 63) :
    ∃ served, carry outPkt = some served ∧ served.live = outPkt.live ∧
      rootRequested served.mpktRequest = false ∧ served.mpktRequest.mreqRsrc.mrOwner = some user ∧
      ∃ received, carry served = some received ∧ received.live = outPkt.live ∧
        received.mpktRequest.WellFormed := by
  have notResponse : mpktRequestType ≠ mpktResponseType := by decide
  obtain ⟨served, first, live, wf', length⟩ := carry_whole (Packet.wellFormed_of_request type wf)
    survives (fun response => absurd (type.symm.trans response) notResponse) fits
  obtain ⟨servedType, request⟩ := Packet.live_request live type
  obtain ⟨received, second, live', wf'', _⟩ := carry_whole wf'
    (Packet.survives_of_live live type survives)
    (fun response => absurd (servedType.symm.trans response) notResponse) (length ▸ fits)
  have receivedType := (Packet.live_request live' servedType).1
  have rsrc : served.mpktRequest.mreqRsrc = outPkt.mpktRequest.mreqRsrc :=
    show served.mpktRequest.live.mreqRsrc = _ by
      rw [request]
      rfl
  unfold lookedUp rootRequested at name
  split_ifs at name with root
  refine ⟨served, first, live, ?_, rsrc ▸ name, received, second, live'.trans live,
    wf''.request receivedType⟩
  rw [rootRequested, rsrc]
  simpa using root

theorem Net.xchg_deserted (deserts : net.Deserts user outPkt) :
    net.xchg outPkt inPkt world = .ok ((0, inPkt), world) := by
  obtain ⟨served, first, _, root, owner, _⟩ := Net.xchg_served type wf survives name deserts.fits
  obtain ⟨client, found⟩ := Option.isSome_iff_exists.mp deserts.registered
  unfold Net.xchg Net.serve
  simp only [first, root, Bool.false_eq_true, if_false, owner, found, deserts.unconnected]

/-- The request does not get to the owner of the file: there is no memory for it, or the
connection is closed for the one to the owner, or he is not known. -/
theorem Net.xchg_unreached (unreached : ¬ net.Reaches user outPkt) :
    ∃ retv got, net.xchg outPkt inPkt world = .ok ((retv, got), world) ∧
      (retv < 0 ∨ retv = 0 ∧ got = inPkt ∧ net.Deserts user outPkt ∨
        retv = 0 ∧ got.live = (packetError zeroPacket enoent).live) := by
  by_cases fits : outPkt.wire.length < 2 ^ 63
  · obtain ⟨served, first, _, root, owner, _⟩ := Net.xchg_served type wf survives name fits
    cases found : clientFind net.lib user net.clients with
    | none =>
        obtain ⟨got, carried, live, _⟩ := @carry_whole (packetError zeroPacket enoent)
          ⟨fun no => absurd no (by decide),
            fun _ => ⟨by decide, fun no => absurd no (by decide), fun no => absurd no (by decide)⟩,
            fun no => absurd no (by decide)⟩
          (fun no => absurd no (by decide)) (fun _ => by decide) (by decide)
        refine ⟨0, got, ?_, Or.inr (Or.inr ⟨rfl, live⟩)⟩
        unfold Net.xchg Net.serve
        simp only [first, root, Bool.false_eq_true, if_false, owner, found, carried]
    | some client =>
        have registered : (clientFind net.lib user net.clients).isSome := by
          rw [found]
          rfl
        have shut : net.connects user = false := by
          by_contra opened
          exact unreached ⟨fits, registered, by simpa using opened⟩
        have deserts : net.Deserts user outPkt := ⟨fits, registered, shut⟩
        exact ⟨0, inPkt, Net.xchg_deserted net type wf survives name inPkt world deserts,
          Or.inr (Or.inl ⟨rfl, rfl, deserts⟩)⟩
  · have lost : carry outPkt = none := if_neg fits
    refine ⟨-Int32.ofInt enomem, inPkt, ?_, Or.inl (by decide)⟩
    rw [Net.xchg, lost, if_neg fits]

/-- The owner gets the request, and the response comes back. -/
theorem Net.xchg_reached (reached : net.Reaches user outPkt) :
    ∃ received, received.live = outPkt.live ∧ received.mpktRequest.WellFormed ∧
      ∀ rsp files, handleRequest (net.conf user) (net.os user) (net.malloc user) received zeroPacket
          (world user) = .ok (.hsSuc, rsp, files) →
        rsp.mpktType = mpktResponseType → rsp.mpktResponse.WellFormed →
        rsp.mpktResponse.mrspType ≠ mrspDirType → rsp.wire.length < 2 ^ 63 →
        ∃ got, got.live = rsp.live ∧
          net.xchg outPkt inPkt world = .ok ((0, got), Function.update world user files) := by
  obtain ⟨served, first, _, root, owner, received, second, live, wf'⟩ :=
    Net.xchg_served type wf survives name reached.fits
  refine ⟨received, live, wf', fun rsp files handled response wfRsp plain small => ?_⟩
  obtain ⟨pkt, got, there, _, back, same⟩ := carry_response response wfRsp plain small
  obtain ⟨client, found⟩ := Option.isSome_iff_exists.mp reached.registered
  refine ⟨got, same, ?_⟩
  unfold Net.xchg Net.serve Net.respond
  simp only [first, root, Bool.false_eq_true, if_false, owner, found, reached.connected, if_true,
    second, handled, there, back]

end Machines

/-! ## What the requester makes of it -/

theorem answers_of_live {got rsp : Packet} (same : got.live = rsp.live) (type : UInt32) :
    got.Answers type ↔ rsp.Answers type := by
  have magic : got.mpktMagic = rsp.mpktMagic :=
    show got.live.mpktMagic = rsp.live.mpktMagic by rw [same]
  have tag : got.mpktType = rsp.mpktType := show got.live.mpktType = rsp.live.mpktType by rw [same]
  unfold Packet.Answers
  rw [magic, tag]
  refine and_congr_right fun _ => and_congr_right fun response => ?_
  have responses := congrArg Packet.mpktResponse same
  simp only [Packet.live, if_pos response, if_pos (tag.trans response)] at responses
  rw [← Response.live_type, responses, Response.live_type]

theorem error_of_live {got rsp : Packet} (same : got.live = rsp.live)
    (error : rsp.Answers mrspErrorType) : got.mpktResponse.mrspError = rsp.mpktResponse.mrspError := by
  have gotError := (answers_of_live same _).mpr error
  have responses := congrArg Packet.mpktResponse same
  simp only [Packet.live, if_pos error.2.1, if_pos gotError.2.1] at responses
  have errors := congrArg Response.mrspError responses
  simp only [Response.live, error.2.2, gotError.2.2] at errors
  exact errors

section RequestOk
variable {σ : Type} {xchg : Xchg σ} {outPkt got : Packet} {files files' : σ}

theorem requestOk_ok (exchanged : xchg outPkt zeroPacket files = .ok ((0, got), files'))
    (answers : got.Answers mrspOk) : requestOk xchg outPkt files = .ok (0, files') := by
  have received : ¬ (0 : Int32) < 0 := by decide
  simp only [requestOk, exchanged, if_neg received]
  rcases responseValidate_cases got mrspOk with ⟨_, valid⟩ | ⟨no, _⟩ | ⟨no, _⟩
  · rw [valid]
    rfl
  · exact absurd answers no
  · exact absurd answers no

theorem requestOk_error (exchanged : xchg outPkt zeroPacket files = .ok ((0, got), files'))
    (error : got.Answers mrspErrorType) (positive : 0 < got.mpktResponse.mrspError) :
    requestOk xchg outPkt files = .ok (-got.mpktResponse.mrspError, files') := by
  have received : ¬ (0 : Int32) < 0 := by decide
  have negated := negateInt_pos positive
  simp only [requestOk, exchanged, if_neg received]
  rcases responseValidate_cases got mrspOk with ⟨answers, _⟩ | ⟨_, _, valid⟩ | ⟨_, no, _⟩
  · exact absurd (answers.unique error) (by decide)
  · rw [valid, negated.1]
    simp only [if_pos negated.2]
  · exact absurd error no

theorem requestOk_failed {retv : Int32}
    (exchanged : xchg outPkt zeroPacket files = .ok ((retv, got), files')) (failed : retv < 0) :
    requestOk xchg outPkt files = .ok (-eio, files') := by
  simp only [requestOk, exchanged, if_pos failed]

/-- The packet was zeroed, and nothing came. -/
theorem requestOk_unfilled (exchanged : xchg outPkt zeroPacket files = .ok ((0, zeroPacket), files')) :
    requestOk xchg outPkt files = .ok (-eio, files') := by
  have received : ¬ (0 : Int32) < 0 := by decide
  have valid : responseValidate zeroPacket mrspOk = .ok (-eio) := rfl
  simp only [requestOk, exchanged, if_neg received, valid]
  rfl

end RequestOk

/-! ## Answers without a body -/

def okResponse : Packet :=
  { packetInit zeroPacket mpktResponseType with mpktResponse := responseInit {} mrspOk }

/-- What the requester makes of an OK response, and of an ERROR response. -/
inductive Settles : Packet → Int32 → Prop where
  | ok : Settles okResponse 0
  | error (errno : Errno) : Settles (errorResponse (Int32.ofNat errno.val)) (negErrno errno)

theorem Settles.wellFormed {rsp : Packet} {retv : Int32} (settles : Settles rsp retv) :
    rsp.mpktType = mpktResponseType ∧ rsp.mpktResponse.WellFormed ∧
      rsp.mpktResponse.mrspType ≠ mrspDirType ∧ rsp.wire.length < 2 ^ 63 := by
  cases settles with
  | ok =>
      exact ⟨rfl, ⟨by decide, fun no => absurd no (by decide), fun no => absurd no (by decide)⟩,
        by decide, by decide⟩
  | error errno =>
      refine ⟨rfl, ⟨?_, fun no => ?_, fun no => ?_⟩, ?_, ?_⟩
      · show mrspErrorType ≤ mrspErrorType
        decide
      · exact absurd no (show ¬ mrspErrorType = mrspDataType by decide)
      · exact absurd no (show ¬ mrspErrorType = mrspDirType by decide)
      · show mrspErrorType ≠ mrspDirType
        decide
      · show (htonl mpktMagicNumber ++ htonl mpktResponseType ++
          (htonl mrspErrorType ++ htonlInt (Int32.ofNat errno.val)) ++ []).length < 2 ^ 63
        simp [htonlInt, htonl_length]

theorem requestOk_settles {σ : Type} {xchg : Xchg σ} {outPkt got rsp : Packet} {files files' : σ}
    {retv : Int32} (settles : Settles rsp retv) (same : got.live = rsp.live)
    (exchanged : xchg outPkt zeroPacket files = .ok ((0, got), files')) :
    requestOk xchg outPkt files = .ok (retv, files') := by
  cases settles with
  | ok => exact requestOk_ok exchanged ((answers_of_live same _).mpr ⟨rfl, rfl, rfl⟩)
  | error errno =>
      have error : (errorResponse (Int32.ofNat errno.val)).Answers mrspErrorType := ⟨rfl, rfl, rfl⟩
      have code : got.mpktResponse.mrspError = Int32.ofNat errno.val := error_of_live same error
      have settled := requestOk_error exchanged ((answers_of_live same _).mpr error)
        (code ▸ errno_pos errno)
      rw [code] at settled
      exact settled

/-- The response of a handler that only says whether a call failed. -/
def statusResponse {β : Type} : Except Errno β → Packet
  | .error errno => errorResponse (Int32.ofNat errno.val)
  | .ok _ => okResponse

theorem settles_statusResponse {β : Type} (result : Except Errno β) :
    Settles (statusResponse result) (statusOf result) := by
  cases result with
  | error errno => exact .error errno
  | ok value => exact .ok

theorem handleRequest_answer {φ : Type} (conf : ClientConf) (os : Os φ) (malloc : Nat → Bool)
    {inPkt : Packet} {path : CStr} {status : Int32} {rsp : Response} {files files' : φ}
    (held : inPkt.mpktRequest.mreqRsrc.mrPath = some path)
    (answered : handleRequestType conf os malloc (middfsLocalpathTmp conf path) inPkt.mpktRequest {}
      files = .ok (some ((status, rsp), files'))) :
    handleRequest conf os malloc inPkt zeroPacket files =
      .ok (.hsSuc,
        { packetInit zeroPacket mpktResponseType with
          mpktResponse := if status < 0 then responseError rsp (-status) else rsp },
        files') := by
  have answered' : handleRequestType conf os malloc (middfsLocalpathTmp conf path) inPkt.mpktRequest
      (packetInit zeroPacket mpktResponseType).mpktResponse files =
        .ok (some ((status, rsp), files')) := answered
  simp only [handleRequest, held, answered']

end Middfs
