import Middfs.Isolation

/-!
# From the requester to the owner and back

The server and the responder of an owner take their steps in any order.  One
session of the server is forwarded over one connection of the responder, which
loses nothing and reorders nothing; every other connection of either may carry
anything.  What the requester gets is the response to its own request, which the
responder executed once, at its place among all others.
-/

set_option autoImplicit false

namespace Middfs

open Runs

/-! ## The connection between the two -/

/-- The bytes are from the front of what was written to a connection that was
accepted. -/
def WrittenByPeer (events : List Event) (bytes : List UInt8) : Prop :=
  bytes = [] ∨ ∃ fd, .accepted fd ∈ events ∧ bytes <+: sentTo fd events

/-- The bytes are from the front of what a session wrote to its peer. -/
def WrittenByServer (events : List Event) (bytes : List UInt8) : Prop :=
  bytes = [] ∨ ∃ requester peer, .accepted requester ∈ events ∧ .created peer ∈ events ∧
    bytes <+: sentTo peer events

/-- The requester sends its request, and what is read from the peer is what the
peer wrote. -/
structure Joins (request : Packet) (peerEvents events : List Event) (calls : Calls) (info : Sockinfo) :
    Prop where
  granted : calls.Granted
  fresh : info.state = .mssReqrd → ∀ fd : Nat, calls.socket = some fd → (fd : Int) ≠ info.inEnd.fd
  requests : info.state = .mssReqrd → ∀ stream, calls.read = .bytes stream →
    receivedFrom info.inEnd.fd events ++ stream <+: request.image
  responses : info.state = .mssRspfwd → ∀ stream, calls.read = .bytes stream →
    WrittenByPeer peerEvents (receivedFrom info.inEnd.fd events ++ stream)

def joining (own : Nat) (request : Packet) (peerEvents : List Event) : Expected Clients where
  polls := fun _ => True
  accepts := fun calls socks => ∀ fd : Nat, (socksAdd calls.realloc (.accepted fd) socks).isSome = true
  handles := fun index events calls info clients => index = own →
    Joins request peerEvents events calls info ∧ (info.state = .mssReqrd → clients.Listable)

/-- The responder has memory for the connection, and what is read from it is what
the server wrote. -/
def hearing (σ : Type) (conn : Nat) (serverEvents : List Event) : Expected σ where
  polls := fun _ => True
  accepts := fun _ _ => True
  handles := fun index events calls info _ => index = conn → calls.malloc = memory ∧
    ∀ stream, calls.read = .bytes stream →
      WrittenByServer serverEvents (receivedFrom info.inEnd.fd events ++ stream)

section Joint
variable {σ : Type}

abbrev RecordedRunning (κ : Type) := Running κ × List (Delivery κ)

def Connected (own conn : Nat) (request : Packet) :
    Moment ⊕ Moment → RecordedRunning Clients × RecordedRunning σ → Prop
  | .inl moment, (server, responder) =>
      (joining own request (eventsAt conn responder.1.server.log)).Meets moment server.1
  | .inr moment, (server, responder) =>
      (hearing σ conn (eventsAt own server.1.server.log)).Meets moment responder.1

/-- What `handle_request` answers to a packet in its turn. -/
def replyTo (conf : ClientConf) (os : Os σ) (delivery : Delivery σ) : Option Packet :=
  match handleRequest conf os delivery.calls.malloc delivery.pkt zeroPacket delivery.state with
  | .ok (.hsSuc, rsp, _) => some rsp
  | _ => none

def repliedTo (conf : ClientConf) (os : Os σ) : List (Delivery σ) → Option Packet
  | [delivery] => replyTo conf os delivery
  | _ => none

def Admits (conf : ClientConf) (os : Os σ) (history : List (Delivery σ)) (response : Packet) : Prop :=
  ∀ rsp, repliedTo conf os history = some rsp → response = rsp

variable {conf : ClientConf} {os : Os σ} {history : List (Delivery σ)} {events : List Event}

theorem replyTo_sendable (modest : os.Modest) {delivery : Delivery σ} {rsp : Packet}
    (replied : replyTo conf os delivery = some rsp) : rsp.Sendable := by
  unfold replyTo at replied
  split at replied
  · rename_i answered
    cases replied
    exact (handleRequest_sendable modest answered fun no => by cases no).2
  · cases replied

theorem repliedTo_sendable (modest : os.Modest) {rsp : Packet}
    (replied : repliedTo conf os history = some rsp) : rsp.Sendable := by
  unfold repliedTo at replied
  split at replied
  · exact replyTo_sendable modest replied
  · cases replied

abbrev Awaited (conf : ClientConf) (os : Os σ) (history : List (Delivery σ)) : Type :=
  {response : Packet // response.Sendable ∧ Admits conf os history response}

theorem awaited_nonempty (modest : os.Modest) : Nonempty (Awaited conf os history) := by
  cases replied : repliedTo conf os history with
  | none =>
      exact ⟨⟨packetError zeroPacket enoent, sendable_error rfl, fun rsp no => by
        rw [replied] at no
        cases no⟩⟩
  | some rsp =>
      exact ⟨⟨rsp, repliedTo_sendable modest replied, fun rsp' same => by
        rw [replied] at same
        exact Option.some.inj same⟩⟩

/-- Nothing else is read from the responder. -/
theorem Conversed.front (conversed : Conversed conf os history events) {bytes : List UInt8}
    (from_ : WrittenByPeer events bytes) (response : Awaited conf os history) :
    bytes <+: response.val.image := by
  rcases from_ with rfl | ⟨fd, _, front⟩
  · exact List.nil_prefix
  have nothing : sentTo fd events = [] → bytes <+: response.val.image := by
    intro none_
    rw [none_] at front
    rw [List.prefix_nil.mp front]
    exact List.nil_prefix
  cases conversed with
  | silent _ quiet => exact nothing (quiet fd).2
  | reading _ _ _ _ quiet => exact nothing (quiet fd)
  | served fd' delivery one _ others _ replied =>
      by_cases same : fd = fd'
      · subst same
        rcases replied with none_ | ⟨rsp, files, _, answered, _, begins⟩
        · exact nothing none_
        · have reply : repliedTo conf os history = some rsp := by
            rw [one, repliedTo, replyTo, answered]
          rw [response.property.2 rsp reply]
          exact front.trans begins
      · exact nothing (others fd same).2

/-- Nothing but the request is written to the responder. -/
theorem Outcome.front {session : Session} {history : List (Delivery Clients)} {info : Sockinfo}
    (outcome : Outcome session history events info) {bytes : List UInt8}
    (from_ : WrittenByServer events bytes) : bytes <+: session.request.image := by
  rcases from_ with rfl | ⟨requester, peer, accepted, created, front⟩
  · exact List.nil_prefix
  cases outcome with
  | unheard _ _ silent =>
      rw [silent peer] at front
      rw [List.prefix_nil.mp front]
      exact List.nil_prefix
  | heard _ _ _ _ _ _ relayed => exact front.trans (relayed.toPeer requester peer accepted created)

/-! ## The invariant -/

/-- The session of a request, with a response that does not matter. -/
def sessionOf (request : Packet) : Session := ⟨request, packetError zeroPacket enoent⟩

theorem Session.Valid.answeredBy {request response : Packet} (valid : (sessionOf request).Valid)
    (sendable : response.Sendable) : (⟨request, response⟩ : Session).Valid :=
  ⟨valid.request, valid.wellFormed, valid.write, valid.small, sendable⟩

section Invariant
variable (conf os) (own conn : Nat) (request : Packet)

def ServerKeeps (peers : List (Delivery σ)) (index : Nat) (history : List (Delivery Clients))
    (events : List Event) (info : Sockinfo) : Prop :=
  ∀ response : Awaited conf os (deliveredTo conn peers),
    info.Sound ∧ (index = own → Isolated ⟨request, response.val⟩ history events info)

def ResponderKeeps (index : Nat) (history : List (Delivery σ)) (events : List Event) (info : Sockinfo) :
    Prop :=
  Responding conf os history events info ∧
    ∀ delivery ∈ history, index = conn → RequestRead (sessionOf request) delivery.pkt

structure Joint (both : RecordedRunning Clients × RecordedRunning σ) : Prop where
  server : Histories (fun clients => Sorting.Sorted clientCmp clients.vec)
    (ServerKeeps conf os own conn request both.2.2) (· = []) both.1.1.server both.1.2
  responder : Histories (fun _ => True) (ResponderKeeps conf os conn request) Untouched
    both.2.1.server both.2.2

end Invariant

variable {own conn : Nat} {request : Packet}

theorem RequestRead.alike {response response' pkt : Packet}
    (read : RequestRead ⟨request, response⟩ pkt) : RequestRead ⟨request, response'⟩ pkt :=
  ⟨read.type, read.wellFormed, read.live, read.image, read.small⟩

theorem conversed_at {server : Server σ} (responder : Histories (fun _ => True)
      (ResponderKeeps conf os conn request) Untouched server history) (index : Nat) :
    Conversed conf os (deliveredTo index history) (eventsAt index server.log) := by
  by_cases inside : index < server.socks.count
  · exact (responder.entries index _ (List.getElem?_eq_getElem inside)).1.conversed
  · obtain ⟨untouched, none_⟩ := responder.beyond index (Nat.le_of_not_lt inside)
    exact .silent none_ untouched

theorem historic_server (lib : Sorting.Library Client) (modest : os.Modest)
    (valid : (sessionOf request).Valid) {peers : List (Delivery σ)}
    {peerEvents : List Event} (conversed : Conversed conf os (deliveredTo conn peers) peerEvents) :
    Historic (serverHi lib) (joining own request peerEvents)
      (fun clients => Sorting.Sorted clientCmp clients.vec)
      (ServerKeeps conf os own conn request peers) (· = []) := by
  have inhabited : Nonempty (Awaited conf os (deliveredTo conn peers)) := awaited_nonempty modest
  refine Historic.all fun response => ?_
  refine (historic_isolated lib (valid.answeredBy response.property.1)).of_more ⟨fun _ _ => trivial, fun _ _ room => room,
    fun index events calls info clients joins own => ?_⟩
  obtain ⟨joined, listable⟩ := joins own
  exact ⟨⟨joined.granted, joined.fresh, joined.requests,
    fun state stream read => conversed.front (joined.responses state stream read) response⟩, listable⟩

theorem historic_responder (modest : os.Modest)
    (valid : (sessionOf request).Valid) {serverEvents : List Event}
    (front : ∀ bytes, WrittenByServer serverEvents bytes → bytes <+: request.image) :
    Historic (clientHi conf os) (hearing σ conn serverEvents) (fun _ => True)
      (ResponderKeeps conf os conn request) Untouched := by
  have all : (hearing σ conn serverEvents).Implies (anything σ) :=
    ⟨fun _ _ => trivial, fun _ _ _ => trivial, fun _ _ _ _ _ _ => trivial⟩
  refine ((historic_responding conf modest).of_more all).packets ?_
  intro index history events calls info files handled responding _ type hears done delivery member own
  obtain ⟨memories, reads⟩ := hears own
  have recounted := handlePktEvent_recounted done
  rw [deliveredAt, if_pos type] at member
  generalize handedOver calls info = delivered at recounted member
  cases recounted with
  | quiet => cases member
  | nothing _ _ _ => cases member
  | rejected _ _ _ _ _ _ => cases member
  | unfinished _ _ _ _ _ _ _ => cases member
  | writes _ _ _ => cases member
  | complete buf bytes s after watches gathered clean within _ =>
      rw [List.mem_singleton.mp member]
      cases responding.packet type with
      | answering _ _ _ state _ _ _ _ _ _ _ _ =>
          rw [state] at watches
          cases watches
      | reading _ _ _ _ received _ _ =>
          have decoded := gathered.decoded
          rw [memories] at decoded
          exact (valid.request_decodes
            (gathered_front gathered received fun stream read => front _ (reads stream read)) decoded
            clean (by rw [buf.bytes_length]; exact within)).1.alike

theorem admits_of_more {more : List (Delivery σ)} {response : Packet}
    (once : (history ++ more).length ≤ 1) (admits : Admits conf os (history ++ more) response) :
    Admits conf os history response := by
  intro rsp replied
  refine admits rsp ?_
  cases history with
  | nil => cases replied
  | cons first rest =>
      have nothing : more = [] := by
        rw [List.length_append, List.length_cons] at once
        exact List.length_eq_zero_iff.mp (by omega)
      rw [nothing, List.append_nil]
      exact replied

/-- The session at `own`, whatever its response will be. -/
theorem Joint.outcome (valid : (sessionOf request).Valid)
    {both : RecordedRunning Clients × RecordedRunning σ} (joint : Joint conf os own conn request both)
    {info : Sockinfo} (found : both.1.1.server.socks.sockinfos[own]? = some info)
    (response : Awaited conf os (deliveredTo conn both.2.2)) :
    Outcome ⟨request, response.val⟩ (deliveredTo own both.1.2) (eventsAt own both.1.1.server.log) info :=
  ((joint.server.entries own info found response).2 rfl).outcome
    (valid.answeredBy response.property.1)

theorem Joint.front (modest : os.Modest) (valid : (sessionOf request).Valid)
    {both : RecordedRunning Clients × RecordedRunning σ} (joint : Joint conf os own conn request both)
    {bytes : List UInt8} (from_ : WrittenByServer (eventsAt own both.1.1.server.log) bytes) :
    bytes <+: request.image := by
  by_cases inside : own < both.1.1.server.socks.count
  · obtain ⟨response⟩ := @awaited_nonempty σ conf os (deliveredTo conn both.2.2) modest
    exact (joint.outcome valid (List.getElem?_eq_getElem inside) response).front from_
  · rw [(joint.server.beyond own (Nat.le_of_not_lt inside)).1] at from_
    rcases from_ with rfl | ⟨_, _, no, _⟩
    · exact List.nil_prefix
    · cases no

theorem Joint.step (lib : Sorting.Library Client) (modest : os.Modest)
    (valid : (sessionOf request).Valid) {both both' : RecordedRunning Clients × RecordedRunning σ}
    {action : Moment ⊕ Moment} (joint : Joint conf os own conn request both)
    (connected : Connected own conn request action both)
    (done : interleaved (recording (advance (serverHi lib)) deliveries)
      (recording (advance (clientHi conf os)) deliveries) action both = .ok both') :
    Joint conf os own conn request both' := by
  cases interleaved_cases done with
  | left moment next taken =>
      obtain ⟨advanced, handed⟩ := recording_ok taken
      have each := @historic_server σ conf os own conn request lib modest valid both.2.2 _
        (conversed_at joint.responder conn)
      have steps := advance_stepsTo (serverHi_turns lib) (each.sounds joint.server) advanced
      refine ⟨?_, joint.responder⟩
      show Histories _ _ _ next.1.server next.2
      rw [handed]
      exact each.step joint.server connected steps
  | right moment next taken =>
      obtain ⟨advanced, handed⟩ := recording_ok taken
      have each := @historic_responder σ conf os conn request modest valid
        (eventsAt own both.1.1.server.log) fun _ from_ => joint.front modest valid from_
      have steps := advance_stepsTo (clientHi_turns conf os) (each.sounds joint.responder) advanced
      have responder : Histories (fun _ => True) (ResponderKeeps conf os conn request) Untouched
          next.1.server next.2 := by
        rw [handed]
        exact each.step joint.responder connected steps
      have once := (conversed_at responder conn).once
      refine ⟨joint.server.imp fun index history events info keeps response => ?_, responder⟩
      rw [handed, deliveredTo_append] at once
      have admits := response.property.2
      simp only [handed, deliveredTo_append] at admits
      exact keeps ⟨response.val, response.property.1, admits_of_more once admits⟩

/-! ## Runs -/

def PassedOn (registry : Clients) (request : Packet) : Prop :=
  rootRequested request.mpktRequest = false ∧
    (registry.vec.any fun client => request.mpktRequest.mreqRsrc.mrOwner = some client.username) = true

theorem answer_of_passedOn {registry : Clients} (passed : PassedOn registry request) (response : Packet) :
    (⟨request, response⟩ : Session).answer registry = response.image := by
  simp only [Session.answer, Session.reply, passed.1, passed.2, Bool.false_eq_true, if_false, if_true]

structure EndToEnd (conf : ClientConf) (os : Os σ) (own conn : Nat) (request : Packet) (files : σ)
    (server : RecordedRunning Clients) (responder : RecordedRunning σ) (info : Sockinfo) : Prop where
  /-- The responder executes all requests that it reads one after the other, -/
  executed : Executed conf os files responder.2 responder.1.server.state
  /-- none more than once for a connection, -/
  once : (responder.2.map Delivery.index).Nodup
  /-- and for this connection the request of the session only. -/
  asked : ∀ delivery ∈ deliveredTo conn responder.2, RequestRead (sessionOf request) delivery.pkt
  /-- The reply, once there is one, is what is relayed. -/
  relayed : ∀ response : Packet, response.Sendable →
    Admits conf os (deliveredTo conn responder.2) response →
    Outcome ⟨request, response⟩ (deliveredTo own server.2) (eventsAt own server.1.server.log) info
  /-- A session that came to its end gave the requester all of that reply. -/
  answered : info.state = .mssClosed → ∀ handled later, deliveredTo own server.2 = handled :: later →
    PassedOn handled.state request →
    ∀ requester, .accepted requester ∈ eventsAt own server.1.server.log →
      ∃ delivery rsp, deliveredTo conn responder.2 = [delivery] ∧ replyTo conf os delivery = some rsp ∧
        sentTo requester (eventsAt own server.1.server.log) = rsp.image

theorem refusals_differ : (packetError zeroPacket enoent).image ≠ (packetError zeroPacket eio).image := by
  decide

theorem Joint.answered (modest : os.Modest) (valid : (sessionOf request).Valid)
    {both : RecordedRunning Clients × RecordedRunning σ} (joint : Joint conf os own conn request both)
    {info : Sockinfo} (found : both.1.1.server.socks.sockinfos[own]? = some info)
    (closed : info.state = .mssClosed) {handled : Delivery Clients} {later : List (Delivery Clients)}
    (first : deliveredTo own both.1.2 = handled :: later) (passed : PassedOn handled.state request)
    {requester : Int} (accepted : .accepted requester ∈ eventsAt own both.1.1.server.log) :
    ∃ delivery rsp, deliveredTo conn both.2.2 = [delivery] ∧ replyTo conf os delivery = some rsp ∧
      sentTo requester (eventsAt own both.1.1.server.log) = rsp.image := by
  have whole : ∀ response : Awaited conf os (deliveredTo conn both.2.2),
      sentTo requester (eventsAt own both.1.1.server.log) = response.val.image := by
    intro response
    cases joint.outcome valid found response with
    | unheard _ opened _ => exact absurd closed opened
    | heard delivery later' one _ _ _ relayed =>
        rw [first] at one
        obtain ⟨rfl, _⟩ := List.cons.inj one
        rw [relayed.answered closed requester accepted, answer_of_passedOn passed]
  cases replied : repliedTo conf os (deliveredTo conn both.2.2) with
  | none =>
      -- without a reply the session could not have come to its end
      have admits : ∀ response, Admits conf os (deliveredTo conn both.2.2) response := by
        intro response rsp no
        rw [replied] at no
        cases no
      have one := whole ⟨packetError zeroPacket enoent, sendable_error rfl, admits _⟩
      have other := whole ⟨packetError zeroPacket eio, sendable_error rfl, admits _⟩
      exact absurd (one.symm.trans other) refusals_differ
  | some rsp =>
      have given := whole ⟨rsp, repliedTo_sendable modest replied, fun rsp' same => by
        rw [replied] at same
        exact Option.some.inj same⟩
      unfold repliedTo at replied
      split at replied
      · rename_i delivery parts
        exact ⟨delivery, rsp, parts, replied, given⟩
      · cases replied

/-- The invariant holds from the start. -/
theorem joint_of_run (lib : Sorting.Library Client) (modest : os.Modest) (valid : (sessionOf request).Valid)
    {realloc realloc' : Nat → Bool} {servsock servsock' : Nat} {registry : Clients} {files : σ}
    (sorted : Sorting.Sorted clientCmp registry.vec) {server : Server Clients} {responder : Server σ}
    (started : serverStart realloc servsock registry = .ok (some server))
    (started' : serverStart realloc' servsock' files = .ok (some responder))
    {both : RecordedRunning Clients × RecordedRunning σ}
    (run : Reached (interleaved (recording (advance (serverHi lib)) deliveries)
      (recording (advance (clientHi conf os)) deliveries)) (Connected own conn request)
      ((⟨server, 0, 0⟩, []), (⟨responder, 0, 0⟩, [])) both) : Joint conf os own conn request both := by
  have starts : Joint conf os own conn request ((⟨server, 0, 0⟩, []), (⟨responder, 0, 0⟩, [])) := by
    refine ⟨histories_started started sorted (fun _ => ⟨sound_listens servsock, fun _ => ?_⟩) rfl,
      histories_started started' trivial ⟨?_, fun _ no => absurd no List.not_mem_nil⟩ fun _ => ⟨rfl, rfl⟩⟩
    · exact ⟨sound_listens servsock, fun no => (by cases no), fun _ =>
        .unheard rfl (fun no => by cases no) fun _ => rfl⟩
    · exact ⟨sound_listens servsock', fun no => (by cases no), fun _ => .silent rfl fun _ => ⟨rfl, rfl⟩,
        fun _ => ⟨rfl, fun _ => ⟨rfl, rfl⟩⟩⟩
  exact run.invariant starts fun _ _ _ before met done => before.step lib modest valid met done

/-- The responder executes its requests one after the other. -/
theorem executed_of_run {lib : Sorting.Library Client} {realloc : Nat → Bool} {servsock : Nat} {files : σ}
    {start : RecordedRunning Clients} {responder : Server σ}
    (started : serverStart realloc servsock files = .ok (some responder))
    {meets : Moment ⊕ Moment → RecordedRunning Clients × RecordedRunning σ → Prop}
    {both : RecordedRunning Clients × RecordedRunning σ}
    (run : Reached (interleaved (recording (advance (serverHi lib)) deliveries)
      (recording (advance (clientHi conf os)) deliveries)) meets
      (start, (⟨responder, 0, 0⟩, [])) both) :
    Executed conf os files both.2.2 both.2.1.server.state := by
  have chained := chained_runs (clientHi_turns conf os) (Program.client conf os).settled run.right
    fun info member => (serverStart_entries started info member).1
  have executed := executed_of_chained conf os chained
  rwa [(serverStart_starts started).state] at executed

/-- In every run of the server and an owner's responder, in any order of their
steps and whatever comes in on their other connections. -/
theorem request_endToEnd (lib : Sorting.Library Client) (conf : ClientConf) {os : Os σ}
    (modest : os.Modest) {own conn : Nat} {request : Packet} (valid : (sessionOf request).Valid)
    {realloc realloc' : Nat → Bool} {servsock servsock' : Nat} {registry : Clients} {files : σ}
    (sorted : Sorting.Sorted clientCmp registry.vec) {server : Server Clients} {responder : Server σ}
    (started : serverStart realloc servsock registry = .ok (some server))
    (started' : serverStart realloc' servsock' files = .ok (some responder))
    {both : RecordedRunning Clients × RecordedRunning σ}
    (run : Reached (interleaved (recording (advance (serverHi lib)) deliveries)
      (recording (advance (clientHi conf os)) deliveries)) (Connected own conn request)
      ((⟨server, 0, 0⟩, []), (⟨responder, 0, 0⟩, [])) both)
    {info : Sockinfo} (found : both.1.1.server.socks.sockinfos[own]? = some info) :
    EndToEnd conf os own conn request files both.1 both.2 info := by
  have joint := joint_of_run lib modest valid sorted started started' run
  refine ⟨executed_of_run started' run,
    nodup_of_once fun index => (conversed_at joint.responder index).once, ?_, ?_, ?_⟩
  · intro delivery member
    by_cases inside : conn < both.2.1.server.socks.count
    · exact (joint.responder.entries conn _ (List.getElem?_eq_getElem inside)).2 delivery member rfl
    · rw [(joint.responder.beyond conn (Nat.le_of_not_lt inside)).2] at member
      cases member
  · exact fun response sendable admits => joint.outcome valid found ⟨response, sendable, admits⟩
  · exact fun closed handled later first passed requester accepted =>
      joint.answered modest valid found closed first passed accepted

end Joint

/-! ## A conversation -/

/-- The request of user `a` is forwarded to user `b`, whose files cannot be opened. -/
def conversation : List (Moment ⊕ Moment) :=
  (connectionOn 4 ++
      takingIn { grantedCalls with socket := some 6, connect := true } inquiry.image [0, 1, 2, 4, 8, 16] ++
      givingOut).map .inl ++
    (connectionOn 4 ++ takingIn grantedCalls inquiry.image [0, 1, 2, 4, 8, 16] ++ givingOut).map .inr ++
    (takingIn grantedCalls (errorResponse 13).image [0] ++ givingOut).map .inl

/-- Whether the bytes are from the front of what was written to `fd`, which came up
as `origin`. -/
def writtenTo (fd : Int) (origin : List Event) (events : List Event) (bytes : List UInt8) : Bool :=
  origin.all events.contains && bytes.isPrefixOf (sentTo fd events)

/-- Whether the step of either machine is one that `Connected` asks for, when the
session relays from the socket 4 to the socket 6, and the responder has it at 4. -/
def connectedAt (own conn : Nat) (request : Packet) {σ : Type} :
    Moment ⊕ Moment → RecordedRunning Clients × RecordedRunning σ → Bool
  | .inl moment, (server, responder) =>
      match server.1.left, server.1.server.socks.sockinfos[server.1.index]? with
      | _ + 1, some info =>
          let stream : List UInt8 := match moment.calls.read with
            | .bytes stream => stream
            | _ => []
          let received := receivedFrom info.inEnd.fd (eventsAt own server.1.server.log) ++ stream
          (socksAdd moment.calls.realloc info server.1.server.socks).isSome &&
            (server.1.index != own || info.type != .mfdPktIn ||
              (moment.calls.socket.all fun fd => decide ((fd : Int) ≠ info.inEnd.fd)) &&
                decide (listingLength (server.1.server.state.vec.map Client.username) < 2 ^ 62) &&
                (info.state != .mssReqrd || received.isPrefixOf request.image) &&
                (info.state != .mssRspfwd ||
                  writtenTo 4 [.accepted 4] (eventsAt conn responder.1.server.log) received))
      | _, _ => true
  | .inr moment, (server, responder) =>
      match responder.1.left, responder.1.server.socks.sockinfos[responder.1.index]? with
      | _ + 1, some info =>
          match moment.calls.read with
          | .bytes stream => responder.1.index != conn || info.type != .mfdPktIn ||
              writtenTo 6 [.accepted 4, .created 6] (eventsAt own server.1.server.log)
                (receivedFrom info.inEnd.fd (eventsAt conn responder.1.server.log) ++ stream)
          | _ => true
      | _, _ => true

theorem writtenTo_mem {fd : Int} {origin events : List Event} {bytes : List UInt8}
    (written : writtenTo fd origin events bytes = true) {event : Event} (member : event ∈ origin) :
    event ∈ events := by
  unfold writtenTo at written
  rw [Bool.and_eq_true, List.all_eq_true] at written
  exact List.contains_iff_mem.mp (written.1 event member)

theorem writtenTo_prefix {fd : Int} {origin events : List Event} {bytes : List UInt8}
    (written : writtenTo fd origin events bytes = true) : bytes <+: sentTo fd events := by
  unfold writtenTo at written
  rw [Bool.and_eq_true] at written
  exact List.isPrefixOf_iff_prefix.mp written.2

theorem connectedAt_sound {σ : Type} {own conn : Nat} {request : Packet} {action : Moment ⊕ Moment}
    {both : RecordedRunning Clients × RecordedRunning σ}
    (granted : (action.elim Moment.calls Moment.calls).Granted)
    (checked : connectedAt own conn request action both = true) :
    Connected own conn request action both := by
  obtain ⟨server, responder⟩ := both
  cases action with
  | inl moment =>
      show Expected.Meets _ _ _
      unfold Expected.Meets
      split
      · trivial
      rename_i left more
      intro info found
      unfold connectedAt at checked
      simp only [more, found, Bool.and_eq_true, Bool.or_eq_true, bne_iff_ne] at checked
      obtain ⟨room, session⟩ := checked
      refine ⟨fun _ fd => (socksAdd_isSome _ _ _ _).trans room, fun type own_ => ?_⟩
      rcases session with (other | noPacket) | ⟨⟨⟨unlike, listable⟩, requests⟩, responses⟩
      · exact absurd own_ other
      · exact absurd type noPacket
      rw [decide_eq_true_eq] at listable
      refine ⟨⟨granted, fun _ fd socket => ?_, fun state stream read => ?_, fun state stream read => ?_⟩,
        fun _ => listable⟩
      · rw [socket] at unlike
        exact of_decide_eq_true unlike
      · rw [read] at requests
        rw [own_]
        rcases requests with no | front
        · exact absurd state no
        · exact List.isPrefixOf_iff_prefix.mp front
      · rw [read] at responses
        rw [own_]
        rcases responses with no | written
        · exact absurd state no
        · exact Or.inr ⟨4, writtenTo_mem written (by simp), writtenTo_prefix written⟩
  | inr moment =>
      show Expected.Meets _ _ _
      unfold Expected.Meets
      split
      · trivial
      rename_i left more
      intro info found
      refine ⟨fun _ => trivial, fun type own_ => ⟨granted.malloc, fun stream read => ?_⟩⟩
      unfold connectedAt at checked
      simp only [more, found, read, Bool.or_eq_true, bne_iff_ne] at checked
      rw [own_]
      rcases checked with (other | noPacket) | written
      · exact absurd own_ other
      · exact absurd type noPacket
      · exact Or.inr ⟨4, 6, writtenTo_mem written (by simp), writtenTo_mem written (by simp),
          writtenTo_prefix written⟩

/-- The conversation of a server that knows user `b` with his responder. -/
structure Conversation (server : Server Clients) (responder : Server Nat)
    (both : RecordedRunning Clients × RecordedRunning Nat) (info : Sockinfo) : Prop where
  started : serverStart memory 3 oneUser = .ok (some server)
  started' : serverStart memory 3 0 = .ok (some responder)
  runs : steps (interleaved (recording (advance (serverHi (Sorting.simpleLibrary Client))) deliveries)
      (recording (advance (clientHi ⟨userB, userB⟩ failingOs)) deliveries)) conversation
    ((⟨server, 0, 0⟩, []), (⟨responder, 0, 0⟩, [])) = .ok both
  connected : passes (interleaved (recording (advance (serverHi (Sorting.simpleLibrary Client))) deliveries)
      (recording (advance (clientHi ⟨userB, userB⟩ failingOs)) deliveries)) (connectedAt 1 1 inquiry)
    conversation ((⟨server, 0, 0⟩, []), (⟨responder, 0, 0⟩, [])) = true
  found : both.1.1.server.socks.sockinfos[1]? = some info
  closed : info.state = .mssClosed
  sent : sentTo 4 (eventsAt 1 both.1.1.server.log) = (errorResponse 13).image

theorem Conversation.run {server : Server Clients} {responder : Server Nat}
    {both : RecordedRunning Clients × RecordedRunning Nat} {info : Sockinfo}
    (talks : Conversation server responder both info) :
    Reached (interleaved (recording (advance (serverHi (Sorting.simpleLibrary Client))) deliveries)
      (recording (advance (clientHi ⟨userB, userB⟩ failingOs)) deliveries)) (Connected 1 1 inquiry)
      ((⟨server, 0, 0⟩, []), (⟨responder, 0, 0⟩, [])) both := by
  have granted : ∀ action ∈ conversation, (action.elim Moment.calls Moment.calls).Granted := by
    intro action member
    have memories : conversation.map (fun action : Moment ⊕ Moment =>
        ((action.elim Moment.calls Moment.calls).malloc,
          (action.elim Moment.calls Moment.calls).realloc)) = List.replicate 61 (memory, memory) := rfl
    have among := List.mem_map_of_mem
      (f := fun action : Moment ⊕ Moment => ((action.elim Moment.calls Moment.calls).malloc,
        (action.elim Moment.calls Moment.calls).realloc)) member
    rw [memories] at among
    have same := Prod.mk.inj (List.eq_of_mem_replicate among)
    exact ⟨same.1, same.2⟩
  exact .of_passes (fun action member _ checked => connectedAt_sound (granted action member) checked)
    talks.connected talks.runs

theorem request_endToEnd_conversation : ∃ server responder both info,
    Conversation server responder both info ∧
      EndToEnd ⟨userB, userB⟩ failingOs 1 1 inquiry 0 both.1 both.2 info := by
  have happens : ∃ server responder both info, Conversation server responder both info :=
    ⟨_, _, _, _, rfl, rfl, rfl, rfl, rfl, rfl, rfl⟩
  obtain ⟨server, responder, both, info, talks⟩ := happens
  exact ⟨server, responder, both, info, talks,
    request_endToEnd (Sorting.simpleLibrary Client) ⟨userB, userB⟩ failingOs_modest inquirySession_valid
      (show Sorting.Sorted clientCmp oneUser.vec from List.pairwise_singleton _ _) talks.started
      talks.started' talks.run talks.found⟩

end Middfs
