import Middfs.Provenance
import Middfs.Replies

/-!
# Faithful relaying

A requester sends a request and gets the peer's response, or one of the server's
own.  What the server writes to either side is, up to what is still in its
buffers, what the other side sent, although both packets are decoded and encoded
again on their way.
-/

set_option autoImplicit false

namespace Middfs

open Runs

/-! ## What goes over a descriptor -/

def Event.receivedFrom (fd : Int) : Event → List UInt8
  | .received source bytes => if source = fd then bytes else []
  | .accepted _ | .created _ | .closed _ | .sent _ _ => []

def Event.sentTo (fd : Int) : Event → List UInt8
  | .sent target bytes => if target = fd then bytes else []
  | .accepted _ | .created _ | .closed _ | .received _ _ => []

def Event.accepts : Event → Option Int
  | .accepted fd => some fd
  | .created _ | .closed _ | .received _ _ | .sent _ _ => none

def Event.creates : Event → Option Int
  | .created fd => some fd
  | .accepted _ | .closed _ | .received _ _ | .sent _ _ => none

def receivedFrom (fd : Int) (events : List Event) : List UInt8 := events.flatMap (Event.receivedFrom fd)

def sentTo (fd : Int) (events : List Event) : List UInt8 := events.flatMap (Event.sentTo fd)

def acceptedIn (events : List Event) : List Int := events.filterMap Event.accepts

def createdIn (events : List Event) : List Int := events.filterMap Event.creates

section Streams
variable (fd : Int) (events more : List Event)

@[simp] theorem receivedFrom_append :
    receivedFrom fd (events ++ more) = receivedFrom fd events ++ receivedFrom fd more :=
  List.flatMap_append

@[simp] theorem sentTo_append : sentTo fd (events ++ more) = sentTo fd events ++ sentTo fd more :=
  List.flatMap_append

@[simp] theorem acceptedIn_append : acceptedIn (events ++ more) = acceptedIn events ++ acceptedIn more :=
  List.filterMap_append

@[simp] theorem createdIn_append : createdIn (events ++ more) = createdIn events ++ createdIn more :=
  List.filterMap_append

@[simp] theorem receivedFrom_received (source : Int) (bytes : List UInt8) :
    receivedFrom fd [.received source bytes] = if source = fd then bytes else [] :=
  List.append_nil _

@[simp] theorem sentTo_sent (target : Int) (bytes : List UInt8) :
    sentTo fd [.sent target bytes] = if target = fd then bytes else [] :=
  List.append_nil _

@[simp] theorem sentTo_closing (fds : List Int) : sentTo fd (fds.map .closed) = [] := by
  induction fds with
  | nil => rfl
  | cons _ fds ih => exact ih

@[simp] theorem acceptedIn_closing (fds : List Int) : acceptedIn (fds.map .closed) = [] := by
  induction fds with
  | nil => rfl
  | cons _ fds ih => exact ih

@[simp] theorem receivedFrom_closing (fds : List Int) : receivedFrom fd (fds.map .closed) = [] := by
  induction fds with
  | nil => rfl
  | cons _ fds ih => exact ih

/-! Closing descriptors adds nothing to what is said of others. -/

theorem accepted_closing {fds : List Int} :
    .accepted fd ∈ events ++ fds.map .closed ↔ .accepted fd ∈ events := by
  simp only [List.mem_append, List.mem_map, reduceCtorEq, and_false, exists_false, or_false]

theorem created_closing {fds : List Int} :
    .created fd ∈ events ++ fds.map .closed ↔ .created fd ∈ events := by
  simp only [List.mem_append, List.mem_map, reduceCtorEq, and_false, exists_false, or_false]

theorem received_closing (fds : List Int) :
    receivedFrom fd (events ++ fds.map .closed) = receivedFrom fd events := by
  rw [receivedFrom_append, receivedFrom_closing, List.append_nil]

theorem sent_closing (fds : List Int) : sentTo fd (events ++ fds.map .closed) = sentTo fd events := by
  rw [sentTo_append, sentTo_closing, List.append_nil]

theorem mem_acceptedIn {fd : Int} {events : List Event} :
    .accepted fd ∈ events → fd ∈ acceptedIn events :=
  fun member => List.mem_filterMap.mpr ⟨_, member, rfl⟩

theorem mem_createdIn {fd : Int} {events : List Event} :
    .created fd ∈ events → fd ∈ createdIn events :=
  fun member => List.mem_filterMap.mpr ⟨_, member, rfl⟩

end Streams

/-! ## Sessions -/

/-- The request of a session, and what the peer that it is for answers. -/
structure Session where
  request : Packet
  response : Packet

/-- The packets can be encoded, into as many bytes as an object can have, and the
payload of a request is not too long for the `int32_t` that gives its length. -/
structure Session.Valid (session : Session) : Prop where
  request : session.request.mpktType = mpktRequestType
  wellFormed : session.request.mpktRequest.WellFormed
  write : session.request.mpktRequest.mreqType = mreqWrite →
    session.request.mpktRequest.mreqSize.toNat < 2 ^ 31
  small : session.request.image.length < 2 ^ 63
  response : session.response.Sendable

/-- What the requester should get: the root's response, the peer's, or that there
is no such peer. -/
def Session.reply (session : Session) (registry : Clients) : Packet :=
  let req := session.request.mpktRequest
  if rootRequested req then rootResponse grantedCalls (.accepted 0) registry req
  else if registry.vec.any fun client => req.mreqRsrc.mrOwner = some client.username then
    session.response
  else packetError zeroPacket enoent

def Session.answer (session : Session) (registry : Clients) : List UInt8 :=
  (session.reply registry).image

/-- What was written in a session, to the peer and to the requester. -/
structure FaithfullyRelayed (registry : Clients) (session : Session) (events : List Event)
    (info : Sockinfo) : Prop where
  toPeer : ∀ requester peer, .accepted requester ∈ events → .created peer ∈ events →
    sentTo peer events <+: session.request.image
  forwarded : info.state = .mssRspfwd ∨ info.state = .mssRspwr ∨ info.state = .mssClosed →
    ∀ requester peer, .accepted requester ∈ events → .created peer ∈ events →
      sentTo peer events = session.request.image
  toRequester : ∀ requester, .accepted requester ∈ events →
    sentTo requester events <+: session.answer registry
  answered : info.type = .mfdNone → info.state = .mssRspwr ∨ info.state = .mssClosed →
    ∀ requester, .accepted requester ∈ events → sentTo requester events = session.answer registry

/-! ## Packets on their way -/

section Session
variable {session : Session}

theorem Session.Valid.sent_type (valid : session.Valid) :
    session.request.asSent.mpktType = mpktRequestType := by
  rw [Packet.asSent, if_pos valid.request]
  exact valid.request

theorem Session.Valid.sent_wellFormed (valid : session.Valid) : session.request.asSent.WellFormed := by
  refine Packet.wellFormed_of_request valid.sent_type ?_
  rw [Packet.asSent, if_pos valid.request]
  have wf := valid.wellFormed
  refine ⟨wf.requester, wf.rsrc, wf.target, fun has => ?_⟩
  obtain ⟨bytes, held, length⟩ := wf.data has
  refine ⟨bytes, held, length.trans ?_⟩
  have write : reqHasData session.request.mpktRequest.mreqType = true := has
  have short := valid.write (by simpa only [reqHasData, beq_iff_eq] using write)
  show session.request.mpktRequest.mreqSize.toNat = (viaInt32 session.request.mpktRequest.mreqSize).toNat
  rw [(viaInt32_eq_self _).mpr (Or.inl short)]

theorem Session.Valid.sent_wire (valid : session.Valid) :
    session.request.asSent.wire = session.request.image := by
  rw [Packet.wire, Packet.image, Packet.asSent, if_pos valid.request]
  simp only [Packet.payload, valid.request, if_true]
  rfl

theorem fitsInt32_viaInt32 (v : UInt64) : FitsInt32 (viaInt32 v) :=
  (viaInt32_eq_self _).mp (viaInt32_idem v)

theorem Session.Valid.sent_survives (valid : session.Valid) : session.request.asSent.SurvivesCast := by
  intro _
  rw [Packet.asSent, if_pos valid.request]
  exact ⟨fun _ => fitsInt32_viaInt32 _, fun _ => fitsInt32_viaInt32 _⟩

/-- What is decoded of the bytes that the requester sent. -/
structure RequestRead (session : Session) (pkt : Packet) : Prop where
  type : pkt.mpktType = mpktRequestType
  wellFormed : pkt.WellFormed
  live : pkt.mpktRequest.live = session.request.mpktRequest.asSent.live
  image : pkt.image = session.request.image
  small : pkt.wire.length < 2 ^ 63

theorem Session.Valid.request_decodes (valid : session.Valid) {bytes : List UInt8}
    (front : bytes <+: session.request.image) {s : Cursor Packet}
    (answer : deserializePkt memory bytes zeroPacket 0 = .ok s) (clean : s.err = 0)
    (within : s.used ≤ bytes.length) : RequestRead session s.obj ∧ bytes.length ≤ s.used := by
  have wire := valid.sent_wire
  have bound : (session.request.asSent.wire ++ []).length < 2 ^ 63 := by
    rw [List.append_nil, wire]
    exact valid.small
  obtain ⟨wf, live, same, used⟩ := wire_decodes valid.sent_wellFormed bound
    (by rw [List.append_nil, wire]; exact front) answer clean within
  obtain ⟨type, requests⟩ := Packet.live_request live valid.sent_type
  have survives := Packet.survives_of_live live valid.sent_type valid.sent_survives
  rw [Packet.asSent, if_pos valid.request] at requests
  refine ⟨⟨type, wf, requests, ?_, ?_⟩, ?_⟩
  · rw [Packet.image_of_survives s.obj survives, same, wire]
  · rw [same, wire]
    exact valid.small
  · rw [used, wire]
    exact front.length_le

theorem Session.Valid.response_decodes (valid : session.Valid) {bytes : List UInt8}
    (front : bytes <+: session.response.image) {s : Cursor Packet}
    (answer : deserializePkt memory bytes zeroPacket 0 = .ok s) (clean : s.err = 0)
    (within : s.used ≤ bytes.length) :
    s.obj.Sendable ∧ s.obj.image = session.response.image := by
  have sendable := valid.response
  have bound : (session.response.wire ++ []).length < 2 ^ 63 := by
    rw [List.append_nil]
    exact sendable.small
  rw [sendable.image] at front ⊢
  obtain ⟨wf, live, same, _⟩ := wire_decodes sendable.whole bound
    (by rw [List.append_nil]; exact front) answer clean within
  have type : s.obj.mpktType = mpktResponseType :=
    (congrArg Packet.mpktType live).trans sendable.response
  have sent : s.obj.Sendable := ⟨type, wf.response type, by rw [same]; exact sendable.small⟩
  exact ⟨sent, sent.image.trans same⟩

theorem RequestRead.rsrc {pkt : Packet} (read : RequestRead session pkt) :
    pkt.mpktRequest.mreqRsrc = session.request.mpktRequest.mreqRsrc := by
  have same := congrArg Request.mreqRsrc read.live
  exact same

theorem RequestRead.root {pkt : Packet} (read : RequestRead session pkt) :
    rootRequested pkt.mpktRequest = rootRequested session.request.mpktRequest := by
  rw [rootRequested, rootRequested, read.rsrc]

/-- Of the calls, the root's response depends on what memory there is only, and
of the request on what is sent of it. -/
theorem rootResponse_alike {calls calls' : Calls} {req req' : Request} (malloc : calls.malloc = calls'.malloc)
    (live : req.live = req'.asSent.live) (info info' : Sockinfo) (clients : Clients) :
    rootResponse calls info clients req = rootResponse calls' info' clients req' := by
  have types := congrArg Request.mreqType live
  have type : req.mreqType = req'.mreqType := types
  unfold rootResponse handleReqRdFinRoot
  by_cases access : req'.mreqType = mreqAccess
  · have mode : req.mreqMode = req'.mreqMode := by
      have modes := congrArg Request.mreqMode live
      have has : reqHasMode req'.mreqType = true := by
        rw [access]
        rfl
      have has' : reqHasMode req'.asSent.mreqType = true := has
      rw [← type] at has
      simp only [Request.live, has, has', if_true] at modes
      exact modes
    rw [type, mode, malloc]
  · rw [type, malloc, if_neg access, if_neg access]

theorem RequestRead.rootAnswer {pkt : Packet} (read : RequestRead session pkt) {calls : Calls}
    (granted : calls.Granted) (root : rootRequested pkt.mpktRequest = true) (info : Sockinfo)
    (registry : Clients) :
    (rootResponse calls info registry pkt.mpktRequest).image = session.answer registry := by
  rw [read.root] at root
  simp only [Session.answer, Session.reply, root, if_true]
  rw [rootResponse_alike (granted.malloc.trans rfl : calls.malloc = grantedCalls.malloc) read.live info
    (.accepted 0) registry]

/-- Nobody is found exactly when the user is not registered. -/
theorem clientFind_none (lib : Sorting.Library Client) {registry : Clients}
    (sorted : Sorting.Sorted clientCmp registry.vec) (owner : CStr) :
    clientFind lib owner registry = none ↔
      (registry.vec.any fun client => some owner = some client.username) = false := by
  rw [clientFind, lib.bsearch_eq_none clientCmp_consistent sorted, List.any_eq_false]
  refine forall₂_congr fun client _ => ?_
  rw [ne_eq, clientCmp_eq_zero]
  simp

theorem RequestRead.missing {pkt : Packet} (read : RequestRead session pkt) (lib : Sorting.Library Client)
    {registry : Clients} (sorted : Sorting.Sorted clientCmp registry.vec) {owner : CStr}
    (name : lookedUp pkt.mpktRequest = some owner) (missing : clientFind lib owner registry = none) :
    (packetError zeroPacket enoent).image = session.answer registry := by
  unfold lookedUp at name
  split_ifs at name with root
  rw [read.root] at root
  rw [read.rsrc] at name
  have nobody := (clientFind_none lib sorted owner).mp missing
  simp only [Session.answer, Session.reply, root, Bool.false_eq_true, if_false, name, nobody]

theorem RequestRead.found {pkt : Packet} (read : RequestRead session pkt) (lib : Sorting.Library Client)
    {registry : Clients} (sorted : Sorting.Sorted clientCmp registry.vec) {owner : CStr}
    (name : lookedUp pkt.mpktRequest = some owner) {client : Client}
    (found : clientFind lib owner registry = some client) :
    session.response.image = session.answer registry := by
  unfold lookedUp at name
  split_ifs at name with root
  rw [read.root] at root
  rw [read.rsrc] at name
  have somebody : (registry.vec.any fun client => some owner = some client.username) = true := by
    by_contra nobody
    have missing := (clientFind_none lib sorted owner).mpr (Bool.eq_false_iff.mpr nobody)
    rw [found] at missing
    cases missing
  simp only [Session.answer, Session.reply, root, Bool.false_eq_true, if_false, name, somebody, if_true]

theorem Session.Valid.reply_sendable (valid : session.Valid) {registry : Clients}
    (listable : registry.Listable) : (session.reply registry).Sendable := by
  unfold Session.reply
  simp only
  split_ifs
  · exact rootResponse_sendable ⟨rfl, rfl⟩ listable _ _
  · exact valid.response
  · exact sendable_error rfl

/-- The bytes of a session are those that `serialize_pkt` gives. -/
theorem Session.Valid.encodes (valid : session.Valid) {registry : Clients} (listable : registry.Listable) :
    Encodes session.request session.request.image ∧
      Encodes (session.reply registry) (session.answer registry) := by
  have sendable := valid.reply_sendable listable
  have small := sendable.small
  have short := valid.small
  refine ⟨serializePkt_encodes (Packet.wellFormed_of_request valid.request valid.wellFormed) (by omega),
    serializePkt_encodes sendable.whole ?_⟩
  rw [sendable.image]
  omega

end Session
end Middfs
