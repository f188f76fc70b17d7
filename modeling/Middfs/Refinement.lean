import Middfs.EndToEnd
import Middfs.Exchange
import Middfs.Network

/-!
# The network between the clients

An exchange over the abstract network is one step: the request is carried to its
owner, who executes it, and the response is carried back.  A `packet_xchg` that
comes to its end among all the steps of the server and of the owner's responder
is such a step, taken where the responder executed the request.
-/

set_option autoImplicit false

namespace Middfs

open Runs

/-! ## What the handlers make of a request -/

section Live
variable {σ : Type} (conf : ClientConf) (os : Os σ) (malloc : Nat → Bool)

theorem given_of_live {β : Type} {has has' : Bool} {x y other : β} (both : has = has')
    (same : (if has then x else other) = if has' then y else other) (given : has' = true) : x = y := by
  subst both
  rwa [if_pos given, if_pos given] at same

/-- The handlers look at the meaningful fields of a request only. -/
theorem handleRequestType_live (path : CStr) {req req' : Request} (same : req.live = req'.live)
    (rsp : Response) (files : σ) :
    handleRequestType conf os malloc path req rsp files =
      handleRequestType conf os malloc path req' rsp files := by
  have type : req.mreqType = req'.mreqType := (congrArg Request.mreqType same :)
  have mode : reqHasMode req'.mreqType = true → req.mreqMode = req'.mreqMode :=
    given_of_live (congrArg reqHasMode type) (congrArg Request.mreqMode same :)
  have size : reqHasSize req'.mreqType = true → req.mreqSize = req'.mreqSize :=
    given_of_live (congrArg reqHasSize type) (congrArg Request.mreqSize same :)
  have off : reqHasOff req'.mreqType = true → req.mreqOff = req'.mreqOff :=
    given_of_live (congrArg reqHasOff type) (congrArg Request.mreqOff same :)
  have target : reqHasTo req'.mreqType = true → req.mreqTo = req'.mreqTo :=
    given_of_live (congrArg reqHasTo type) (congrArg Request.mreqTo same :)
  have data : reqHasData req'.mreqType = true → req.mreqData = req'.mreqData :=
    given_of_live (congrArg reqHasData type) (congrArg Request.mreqData same :)
  unfold handleRequestType
  rw [type]
  split_ifs with getattr readdir access openFile truncate rename read write
  · rfl
  · rfl
  · rw [handleRequestAccess, handleRequestAccess, mode (by rw [access]; rfl)]
  · rw [handleRequestOpen, handleRequestOpen, mode (by rw [openFile]; rfl)]
  · rw [handleRequestTruncate, handleRequestTruncate, size (by rw [truncate]; rfl)]
  · rw [handleRequestRename, handleRequestRename, target (by rw [rename]; rfl)]
  · have handlers : ∀ fd, handleRequestRead os malloc fd req = handleRequestRead os malloc fd req' := by
      intro fd
      funext rsp files
      rw [handleRequestRead, handleRequestRead, size (by rw [read]; rfl), off (by rw [read]; rfl)]
    simp only [handleRequestFd, handlers]
  · have handlers : ∀ fd, handleRequestWrite os fd req = handleRequestWrite os fd req' := by
      intro fd
      funext rsp files
      rw [handleRequestWrite, handleRequestWrite, writeSource, writeSource, size (by rw [write]; rfl),
        off (by rw [write]; rfl), data (by rw [write]; rfl)]
    simp only [handleRequestFd, handlers]
  · rfl

theorem handleRequest_live {pkt pkt' : Packet} (same : pkt.mpktRequest.live = pkt'.mpktRequest.live)
    (outPkt : Packet) (files : σ) :
    handleRequest conf os malloc pkt outPkt files = handleRequest conf os malloc pkt' outPkt files := by
  have rsrc : pkt.mpktRequest.mreqRsrc = pkt'.mpktRequest.mreqRsrc :=
    (congrArg Request.mreqRsrc same :)
  simp only [handleRequest, rsrc, handleRequestType_live conf os malloc _ same]

end Live

/-! ## Packets that are carried -/

/-- A response that can be decoded with all the memory there is. -/
theorem carry_decodable {pkt : Packet} (sendable : pkt.Sendable) {used : Nat} {live : Packet}
    (complete : outcome memory pkt.image = .complete used live) :
    ∃ got, carry pkt = some got ∧ got.live = pkt.live ∧ got.Sendable ∧ got.image = pkt.image := by
  obtain ⟨buf, encoded, bytes⟩ := bufferSerialize_whole sendable.whole sendable.small bufferInit_contents
  have bound : (pkt.wire ++ []).length < 2 ^ 63 := by
    rw [List.append_nil]
    exact sendable.small
  have small : pkt.image.length < 2 ^ 63 := by
    rw [sendable.image]
    exact sendable.small
  obtain ⟨s, answer, same, _⟩ := decode_outcome memory_small memory_large small
    (zeroPacket_ready pkt.image) fun bad => by
      rw [outcome_badType bad] at complete
      cases complete
  rw [complete] at same
  obtain ⟨clean, _, within, _⟩ := verdict_complete same
  have usedLe : s.used ≤ pkt.image.length := by
    have := verdict_complete same
    omega
  obtain ⟨wf, live, wire, _⟩ := wire_decodes sendable.whole bound
    (by rw [List.append_nil, sendable.image]) answer clean usedLe
  have type : s.obj.mpktType = mpktResponseType :=
    (congrArg Packet.mpktType live).trans sendable.response
  have sent : s.obj.Sendable := ⟨type, wf.response type, by rw [wire]; exact sendable.small⟩
  refine ⟨s.obj, ?_, live, sent, by rw [sent.image, sendable.image, wire]⟩
  have used : buf.used = pkt.image.length := by rw [← buf.bytes_length, bytes]
  simp only [carry, sendable.small, encoded, bytes, answer, clean, used, usedLe, and_self, if_true]

section Request
variable {session : Session}

/-- What has the bytes of the request is carried like the request. -/
theorem carry_request (valid : session.Valid) {pkt : Packet} (wf : pkt.WellFormed)
    (small : pkt.wire.length < 2 ^ 63) (image : pkt.image = session.request.image) :
    ∃ got, carry pkt = some got ∧ RequestRead session got := by
  obtain ⟨buf, encoded, bytes⟩ := bufferSerialize_whole wf small bufferInit_contents
  rw [image, ← valid.sent_wire] at bytes
  have type := valid.sent_type
  have bound : (session.request.asSent.wire ++ []).length < 2 ^ 63 := by
    rw [List.append_nil, valid.sent_wire]
    exact valid.small
  obtain ⟨got, decoded, _⟩ := deserializePkt_wire memory_small valid.sent_wellFormed
    (show zeroPacket.Grants memory session.request.asSent from fun no =>
      absurd (type.symm.trans no) (by decide)) (zeroPacket_ready _) bound
  rw [List.append_nil] at decoded
  have used : buf.used = session.request.asSent.wire.length := by rw [← buf.bytes_length, bytes]
  refine ⟨got, ?_, ?_⟩
  · simp only [carry, small, encoded, bytes, decoded, used, le_refl, and_self, if_true]
  · exact (valid.request_decodes (by rw [valid.sent_wire]) decoded rfl (by simp)).1

/-- The server gets the request, and so does whoever it passes it on to. -/
theorem carry_twice (valid : session.Valid) : ∃ served received, carry session.request = some served ∧
    RequestRead session served ∧ carry served = some received ∧ RequestRead session received := by
  have wf := Packet.wellFormed_of_request valid.request valid.wellFormed
  obtain ⟨served, first, read⟩ := carry_request valid wf
    (by rw [← Packet.wire_length_image]; exact valid.small) rfl
  obtain ⟨received, second, read'⟩ := carry_request valid read.wellFormed read.small read.image
  exact ⟨served, received, first, read, second, read'⟩

end Request

/-! ## What the requester receives -/

def Undisturbed (results : List (Option (List UInt8))) : Prop :=
  ∀ result ∈ results, ∃ bytes, result = some bytes ∧ bytes ≠ []

def Arrived (bytes : List UInt8) (pkt : Packet) : Prop :=
  ∃ front used, front <+: bytes ∧ outcome memory front = .complete used pkt.live

section Receive
variable {malloc realloc : Nat → Bool} {fd : Int}

/-- A turn of the loop that returns has received the packet, unless it failed; else
it goes on to read. -/
theorem packetRecvLoop_attempt (large : ∀ n, malloc n = true → n < 2 ^ 63) {reads : List ReadResult}
    {buf : Buffer} {inPkt pkt : Packet} {retv : Int} (ready : inPkt.Ready buf.bytes)
    (returned : packetRecvLoop malloc realloc fd reads buf inPkt = .ok (some (retv, pkt))) :
    retv < 0 ∨ (∀ more, Arrived (buf.bytes ++ more) pkt) ∨
      ∃ pkt', bufferDeserialize malloc buf inPkt = .ok (1, buf, pkt') ∧
        ∀ more, pkt'.Ready (buf.bytes ++ more) := by
  rcases bufferDeserialize_cases large ready with ⟨aborted, _⟩ | ⟨pkt', failed⟩ |
    ⟨pkt', used, done, complete⟩ | ⟨pkt', waits, _, again⟩
  · rw [packetRecvLoop, aborted] at returned
    cases returned
  · rw [packetRecvLoop_stops (by decide) failed] at returned
    cases returned
    exact Or.inl (by decide)
  · rw [packetRecvLoop_stops (by decide) done] at returned
    cases returned
    exact Or.inr (Or.inl fun more => ⟨buf.bytes, used, List.prefix_append _ _, complete⟩)
  · exact Or.inr (Or.inr ⟨pkt', waits, again⟩)

theorem packetRecvLoop_received (large : ∀ n, malloc n = true → n < 2 ^ 63) {reads : List ReadResult}
    {buf : Buffer} {inPkt pkt : Packet} {retv : Int} (ready : inPkt.Ready buf.bytes)
    (undisturbed : Undisturbed (readResults realloc fd buf reads))
    (returned : packetRecvLoop malloc realloc fd reads buf inPkt = .ok (some (retv, pkt))) :
    retv < 0 ∨ Arrived (buf.bytes ++ gathered (readResults realloc fd buf reads)) pkt := by
  induction reads generalizing buf inPkt with
  | nil =>
      rcases packetRecvLoop_attempt large ready returned with failed | got | ⟨pkt', waits, _⟩
      · exact Or.inl failed
      · exact Or.inr (got _)
      · rw [packetRecvLoop_waits waits] at returned
        cases returned
  | cons result reads ih =>
      rcases packetRecvLoop_attempt large ready returned with failed | got | ⟨pkt', waits, again⟩
      · exact Or.inl failed
      · exact Or.inr (got _)
      rw [packetRecvLoop_waits waits] at returned
      unfold readResults at undisturbed ⊢
      rcases @bufferRead_cases realloc fd result buf with ⟨_, failed, _⟩ |
        ⟨grown, all, n, _, _, answer, _, _⟩
      · simp only [failed] at undisturbed
        obtain ⟨_, no, _⟩ := undisturbed none List.mem_cons_self
        cases no
      · have grownBytes := bufferRead_bytes answer
        simp only [answer] at undisturbed returned ⊢
        by_cases ended : all.take n = []
        · rw [if_pos ended] at undisturbed
          obtain ⟨_, same, more⟩ := undisturbed (some []) List.mem_cons_self
          cases same
          exact absurd rfl more
        · rw [if_neg ended] at undisturbed returned ⊢
          rw [gathered_cons, ← List.append_assoc, ← grownBytes]
          exact ih (grownBytes ▸ again (all.take n))
            (fun result member => undisturbed result (List.mem_cons_of_mem _ member)) returned

/-- A `packet_xchg` that returns 0 received what it gives back. -/
theorem packetXchg_received (large : ∀ n, malloc n = true → n < 2 ^ 63) {server : Connection}
    {reads : List ReadResult} {outPkt inPkt pkt : Packet} (ready : inPkt.Ready [])
    (connected : server.connected = .ok fd)
    (undisturbed : Undisturbed (readResults realloc fd bufferInit reads))
    (returned : packetXchg malloc realloc server reads outPkt inPkt = .ok (some (0, pkt))) :
    Arrived (gathered (readResults realloc fd bufferInit reads)) pkt := by
  rcases packetXchg_eq_some returned with negative | ⟨other, received, opened, answer, value⟩
  · exact absurd negative (by decide)
  rw [connected] at opened
  cases opened
  obtain ⟨loop, looped, value'⟩ := packetRecv_eq_some answer
  rcases @packetRecvLoop_received _ _ _ large _ bufferInit _ _ _ ready undisturbed looped with failed | got
  · rw [if_pos failed] at value'
    rw [value', if_pos (by decide)] at value
    exact absurd value (by decide)
  · exact got

end Receive

/-- From the front of a response nothing but the whole of it is received. -/
theorem Arrived.whole {bytes : List UInt8} {pkt rsp : Packet} (received : Arrived bytes pkt)
    (sendable : rsp.Sendable) (front : bytes <+: rsp.image) :
    bytes = rsp.image ∧ pkt.live = rsp.live ∧
      ∃ used, outcome memory rsp.image = .complete used pkt.live := by
  obtain ⟨start, used, begins, complete⟩ := received
  have small : rsp.image.length < 2 ^ 63 := by
    rw [sendable.image]
    exact sendable.small
  obtain ⟨tail, split⟩ := begins.trans front
  have within := outcome_used complete
  have all : outcome memory rsp.image = .complete used pkt.live := by
    rw [← split, outcome_grow tail (by rw [split]; exact small) (by rw [complete]; exact fun no => by cases no),
      complete]
  have bound : (rsp.wire ++ []).length < 2 ^ 63 := by
    rw [List.append_nil]
    exact sendable.small
  rcases outcome_whole sendable.whole bound with whole | error
  · rw [List.append_nil, ← sendable.image, all] at whole
    obtain ⟨length, live⟩ := Verdict.complete.inj whole
    have full : start = rsp.image := (begins.trans front).eq_of_length_le (by omega)
    rw [full] at begins
    exact ⟨front.eq_of_length_le begins.length_le, live, used, all⟩
  · rw [List.append_nil, ← sendable.image, all] at error
    cases error


/-! ## Exchanges over the network -/

section Exchange
variable {σ : Type}

/-- A network whose server has the registry, and in which the owner can be connected
to, who has what memory `malloc` grants. -/
structure Net.Stands (net : Net σ) (lib : Sorting.Library Client) (conf : ClientConf) (os : Os σ)
    (registry : Clients) (malloc : Nat → Bool) : Prop where
  lib : net.lib = lib
  home : net.home conf.username = conf.homepath
  os : net.os conf.username = os
  malloc : net.malloc conf.username = malloc
  clients : net.clients = registry
  calls : net.calls = grantedCalls
  connects : net.connects conf.username = true

variable {net : Net σ} {lib : Sorting.Library Client} {conf : ClientConf} {os : Os σ}
variable {registry : Clients} {malloc : Nat → Bool} {request : Packet} {world : World σ}

theorem Net.xchg_kept (stands : net.Stands lib conf os registry malloc)
    (valid : (sessionOf request).Valid)
    (owner : request.mpktRequest.mreqRsrc.mrOwner = some conf.username)
    (sorted : Sorting.Sorted clientCmp registry.vec) (kept : ¬ PassedOn registry request)
    (sendable : ((sessionOf request).reply registry).Sendable) {used : Nat} {live : Packet}
    (complete : outcome memory ((sessionOf request).reply registry).image = .complete used live)
    (inPkt : Packet) :
    ∃ got, net.xchg request inPkt world = .ok ((0, got), world) ∧
      got.live = ((sessionOf request).reply registry).live := by
  obtain ⟨served, _, first, read, _⟩ := carry_twice valid
  obtain ⟨got, carried, live, _⟩ := carry_decodable sendable complete
  refine ⟨got, ?_, live⟩
  have first' : carry request = some served := first
  have named : served.mpktRequest.mreqRsrc.mrOwner = some conf.username := by
    rw [read.rsrc]
    exact owner
  suffices serves : net.serve served world = (some ((sessionOf request).reply registry), world) by
    simp only [Net.xchg, first', serves, carried]
  cases root : rootRequested request.mpktRequest with
  | true =>
      have replies : (sessionOf request).reply registry =
          rootResponse grantedCalls (.accepted 0) registry request.mpktRequest := by
        rw [Session.reply]
        exact if_pos root
      have root' : rootRequested served.mpktRequest = true := read.root.trans root
      simp only [Net.serve, root', if_true, stands.calls, stands.clients]
      rw [replies]
      exact congrArg (fun rsp => (some rsp, world))
        (rootResponse_alike rfl read.live freshEntry (.accepted 0) registry)
  | false =>
      have nobody : (registry.vec.any fun client =>
          request.mpktRequest.mreqRsrc.mrOwner = some client.username) = false := by
        by_contra somebody
        exact kept ⟨root, Bool.not_eq_false _ ▸ somebody⟩
      have replies : (sessionOf request).reply registry = packetError zeroPacket enoent := by
        simp only [Session.reply, sessionOf, root, Bool.false_eq_true, if_false]
        exact ite_self _
      rw [owner] at nobody
      have missing := (clientFind_none lib sorted conf.username).mpr nobody
      have root' : rootRequested served.mpktRequest = false := read.root.trans root
      simp only [Net.serve, root', Bool.false_eq_true, if_false, named, stands.lib, stands.clients, missing,
        replies]

theorem Net.xchg_passed (stands : net.Stands lib conf os registry malloc)
    (valid : (sessionOf request).Valid)
    (owner : request.mpktRequest.mreqRsrc.mrOwner = some conf.username)
    (sorted : Sorting.Sorted clientCmp registry.vec) (passed : PassedOn registry request)
    {pkt rsp : Packet} (read : RequestRead (sessionOf request) pkt) {files files' : σ}
    (handled : handleRequest conf os malloc pkt zeroPacket files = .ok (.hsSuc, rsp, files'))
    (sendable : rsp.Sendable) {used : Nat} {live : Packet}
    (complete : outcome memory rsp.image = .complete used live) (here : world conf.username = files)
    (inPkt : Packet) :
    ∃ got, net.xchg request inPkt world =
        .ok ((0, got), Function.update world conf.username files') ∧ got.live = rsp.live := by
  obtain ⟨served, received, first, read', second, read''⟩ := carry_twice valid
  obtain ⟨relayed, carried, live, sendable', image⟩ := carry_decodable sendable complete
  obtain ⟨got, carried', live', _⟩ := carry_decodable sendable' (image.symm ▸ complete)
  refine ⟨got, ?_, live'.trans live⟩
  have first' : carry request = some served := first
  have named : served.mpktRequest.mreqRsrc.mrOwner = some conf.username := by
    rw [read'.rsrc]
    exact owner
  have root : rootRequested served.mpktRequest = false := read'.root.trans passed.1
  obtain ⟨client, found⟩ : ∃ client, clientFind lib conf.username registry = some client := by
    cases looked : clientFind lib conf.username registry with
    | some client => exact ⟨client, rfl⟩
    | none =>
        have nobody := (clientFind_none lib sorted conf.username).mp looked
        have somebody := passed.2
        rw [owner, nobody] at somebody
        cases somebody
  have same : net.conf conf.username = conf := by
    rw [Net.conf, stands.home]
  have responds : net.respond conf.username received world =
      (some rsp, Function.update world conf.username files') := by
    rw [Net.respond, same, stands.os, stands.malloc, here,
      handleRequest_live conf os malloc (read''.live.trans read.live.symm), handled]
  simp only [Net.xchg, first', Net.serve, root, Bool.false_eq_true, if_false, named, stands.lib,
    stands.clients, found, stands.connects, if_true, second, responds, carried, carried']

/-! ## Runs -/

/-- What `packet_xchg` gave back is what one exchange over the network gives, as it
stood when the server handled the request and the owner executed it. -/
structure Refines (lib : Sorting.Library Client) (conf : ClientConf) (os : Os σ) (request : Packet)
    (peers : List (Delivery σ)) (registry : Clients) (pkt : Packet) : Prop where
  passed : PassedOn registry request → ∃ delivery rsp files, peers = [delivery] ∧
    handleRequest conf os delivery.calls.malloc delivery.pkt zeroPacket delivery.state =
      .ok (.hsSuc, rsp, files) ∧
    ∀ net : Net σ, net.Stands lib conf os registry delivery.calls.malloc → ∀ inPkt world,
      world conf.username = delivery.state →
      ∃ got, net.xchg request inPkt world = .ok ((0, got), Function.update world conf.username files) ∧
        got.live = pkt.live
  kept : ¬ PassedOn registry request → registry.Listable → ∀ (net : Net σ) malloc,
    net.Stands lib conf os registry malloc → ∀ inPkt world,
      ∃ got, net.xchg request inPkt world = .ok ((0, got), world) ∧ got.live = pkt.live

variable {own conn : Nat} {both : RecordedRunning Clients × RecordedRunning σ}

/-- The request was handled, whatever response it will get. -/
theorem Joint.received (valid : (sessionOf request).Valid) (joint : Joint conf os own conn request both)
    {requester : Int} (accepted : .accepted requester ∈ eventsAt own both.1.1.server.log)
    {bytes : List UInt8} {pkt : Packet} (received : Arrived bytes pkt)
    (front : bytes <+: sentTo requester (eventsAt own both.1.1.server.log))
    (response : Awaited conf os (deliveredTo conn both.2.2)) :
    ∃ handled later, deliveredTo own both.1.2 = handled :: later ∧
      bytes <+: (⟨request, response.val⟩ : Session).answer handled.state := by
  have inside : own < both.1.1.server.socks.count := by
    by_contra outside
    rw [(joint.server.beyond own (Nat.le_of_not_lt outside)).1] at accepted
    cases accepted
  cases joint.outcome valid (List.getElem?_eq_getElem inside) response with
  | unheard _ _ silent =>
      obtain ⟨start, _, begins, complete⟩ := received
      rw [silent] at front
      rw [List.prefix_nil.mp (begins.trans front), outcome_nil] at complete
      cases complete
  | heard handled later one _ _ _ relayed =>
      exact ⟨handled, later, one, front.trans (relayed.toRequester requester accepted)⟩

/-- A reply was received that the owner gave. -/
theorem Joint.replied (modest : os.Modest) (valid : (sessionOf request).Valid)
    (joint : Joint conf os own conn request both) {requester : Int}
    (accepted : .accepted requester ∈ eventsAt own both.1.1.server.log) {bytes : List UInt8} {pkt : Packet}
    (received : Arrived bytes pkt)
    (front : bytes <+: sentTo requester (eventsAt own both.1.1.server.log))
    {handled : Delivery Clients} {later : List (Delivery Clients)}
    (first : deliveredTo own both.1.2 = handled :: later) (passed : PassedOn handled.state request) :
    ∃ delivery rsp, deliveredTo conn both.2.2 = [delivery] ∧ replyTo conf os delivery = some rsp ∧
      rsp.Sendable ∧ bytes <+: rsp.image := by
  have answers : ∀ response : Awaited conf os (deliveredTo conn both.2.2), bytes <+: response.val.image := by
    intro response
    obtain ⟨handled', _, first', answer⟩ := joint.received valid accepted received front response
    rw [first] at first'
    obtain ⟨rfl, _⟩ := List.cons.inj first'
    rwa [answer_of_passedOn passed] at answer
  cases replied : repliedTo conf os (deliveredTo conn both.2.2) with
  | none =>
      -- no bytes are the whole of one response and of another
      have admits : ∀ response, Admits conf os (deliveredTo conn both.2.2) response := by
        intro response rsp no
        rw [replied] at no
        cases no
      have one := (received.whole (sendable_error rfl)
        (answers ⟨packetError zeroPacket enoent, sendable_error rfl, admits _⟩)).1
      have other := (received.whole (sendable_error rfl)
        (answers ⟨packetError zeroPacket eio, sendable_error rfl, admits _⟩)).1
      exact absurd (one.symm.trans other) refusals_differ
  | some rsp =>
      have sendable := repliedTo_sendable modest replied
      have given := answers ⟨rsp, sendable, fun rsp' same => by
        rw [replied] at same
        exact Option.some.inj same⟩
      unfold repliedTo at replied
      split at replied
      · rename_i delivery parts
        exact ⟨delivery, rsp, parts, replied, sendable, given⟩
      · cases replied

theorem answer_of_kept (kept : ¬ PassedOn registry request) (response : Packet) :
    (⟨request, response⟩ : Session).answer registry = (sessionOf request).answer registry := by
  unfold Session.answer Session.reply sessionOf
  dsimp only
  split_ifs with root somebody
  · rfl
  · exact absurd ⟨Bool.eq_false_iff.mpr root, somebody⟩ kept
  · rfl

theorem replyTo_handled {delivery : Delivery σ} {rsp : Packet} (replied : replyTo conf os delivery = some rsp) :
    ∃ files, handleRequest conf os delivery.calls.malloc delivery.pkt zeroPacket delivery.state =
      .ok (.hsSuc, rsp, files) := by
  unfold replyTo at replied
  split at replied
  · rename_i rsp' files answered
    cases replied
    exact ⟨files, answered⟩
  · cases replied

theorem sorted_of_delivered {start : Clients} (sorted : Sorting.Sorted clientCmp start.vec)
    {history : List (Delivery Clients)} {clients : Clients}
    (chained : Chained (serverHi lib) start history clients) {delivery : Delivery Clients}
    (member : delivery ∈ history) : Sorting.Sorted clientCmp delivery.state.vec := by
  obtain ⟨before, later, parts⟩ := List.mem_iff_append.mp member
  exact (remembers_of_chained sorted (chained.before parts).1).sorted

/-- In every run of the server and an owner's responder, and whatever else is
asked of the two, an exchange that comes to its end is one step over the network. -/
theorem exchange_refines (lib : Sorting.Library Client) (conf : ClientConf) {os : Os σ}
    (modest : os.Modest) {own conn : Nat} {request : Packet} (valid : (sessionOf request).Valid)
    (owner : request.mpktRequest.mreqRsrc.mrOwner = some conf.username)
    {realloc realloc' : Nat → Bool} {servsock servsock' : Nat} {registry : Clients} {files : σ}
    (sorted : Sorting.Sorted clientCmp registry.vec) {server : Server Clients} {responder : Server σ}
    (started : serverStart realloc servsock registry = .ok (some server))
    (started' : serverStart realloc' servsock' files = .ok (some responder))
    {both : RecordedRunning Clients × RecordedRunning σ}
    (run : Reached (interleaved (recording (advance (serverHi lib)) deliveries)
      (recording (advance (clientHi conf os)) deliveries)) (Connected own conn request)
      ((⟨server, 0, 0⟩, []), (⟨responder, 0, 0⟩, [])) both)
    {requester : Int} (accepted : .accepted requester ∈ eventsAt own both.1.1.server.log)
    {malloc realloc'' : Nat → Bool} (large : ∀ n, malloc n = true → n < 2 ^ 63) {connection : Connection}
    {fd : Int} (connected : connection.connected = .ok fd) {reads : List ReadResult}
    (undisturbed : Undisturbed (readResults realloc'' fd bufferInit reads))
    (front : gathered (readResults realloc'' fd bufferInit reads) <+:
      sentTo requester (eventsAt own both.1.1.server.log))
    {inPkt pkt : Packet} (ready : inPkt.Ready [])
    (returned : packetXchg malloc realloc'' connection reads request inPkt = .ok (some (0, pkt))) :
    Executed conf os files both.2.2 both.2.1.server.state ∧
      ∃ handled later, deliveredTo own both.1.2 = handled :: later ∧
        Refines lib conf os request (deliveredTo conn both.2.2) handled.state pkt := by
  have joint := joint_of_run lib modest valid sorted started started' run
  have received := packetXchg_received large ready connected undisturbed returned
  refine ⟨executed_of_run started' run, ?_⟩
  obtain ⟨response⟩ := @awaited_nonempty σ conf os (deliveredTo conn both.2.2) modest
  obtain ⟨handled, later, first, _⟩ := joint.received valid accepted received front response
  have chained := chained_runs (serverHi_turns lib) (Program.server lib).settled run.left
    fun info member => (serverStart_entries started info member).1
  rw [(serverStart_starts started).state] at chained
  have ordered : Sorting.Sorted clientCmp handled.state.vec := by
    have among : handled ∈ deliveredTo own both.1.2 := by
      rw [first]
      exact List.mem_cons_self
    exact sorted_of_delivered sorted chained (List.mem_filter.mp among).1
  refine ⟨handled, later, first, fun passed => ?_, fun kept listable net malloc stands inPkt world => ?_⟩
  · obtain ⟨delivery, rsp, one, replied, sendable, whole⟩ :=
      joint.replied modest valid accepted received front first passed
    obtain ⟨files', executed⟩ := replyTo_handled replied
    obtain ⟨_, live, used, complete⟩ := received.whole sendable whole
    have read : RequestRead (sessionOf request) delivery.pkt := by
      have inside : conn < both.2.1.server.socks.count := by
        by_contra outside
        rw [(joint.responder.beyond conn (Nat.le_of_not_lt outside)).2] at one
        cases one
      refine (joint.responder.entries conn _ (List.getElem?_eq_getElem inside)).2 delivery ?_ rfl
      rw [one]
      exact List.mem_singleton_self delivery
    refine ⟨delivery, rsp, files', one, executed, fun net stands inPkt world here => ?_⟩
    rw [live]
    exact Net.xchg_passed stands valid owner ordered passed read executed sendable complete here inPkt
  · obtain ⟨handled', _, first', answer⟩ := joint.received valid accepted received front response
    rw [first] at first'
    obtain ⟨rfl, _⟩ := List.cons.inj first'
    rw [answer_of_kept kept] at answer
    have sendable := valid.reply_sendable listable
    obtain ⟨_, live, used, complete⟩ := received.whole sendable answer
    rw [live]
    exact Net.xchg_kept stands valid owner ordered kept sendable complete inPkt

end Exchange

/-! ## The conversation, as the requester sees it -/

def refusalReads : List ReadResult :=
  [0, 1, 2, 4, 8].map fun offset => .bytes ((errorResponse 13).image.drop offset)

theorem refusalReads_results : readResults memory 7 bufferInit refusalReads =
    [some [0], some [0], some [7, 8], some [0, 0, 0, 4], some [0, 0, 0, 4, 0, 0, 0, 13]] := by
  decide +kernel

theorem refusalReads_undisturbed : Undisturbed (readResults memory 7 bufferInit refusalReads) := by
  intro result member
  rw [refusalReads_results] at member
  fin_cases member
  all_goals exact ⟨_, rfl, List.cons_ne_nil _ _⟩

theorem refusalReads_received : packetXchg memory memory ⟨true, .ok 7, [.count 18]⟩ refusalReads inquiry
    zeroPacket = .ok (some (0, errorResponse 13)) := by
  decide +kernel

theorem exchange_refines_conversation : ∃ server responder both info handled later,
    Conversation server responder both info ∧
      Executed ⟨userB, userB⟩ failingOs 0 both.2.2 both.2.1.server.state ∧
      deliveredTo 1 both.1.2 = handled :: later ∧
      Refines (Sorting.simpleLibrary Client) ⟨userB, userB⟩ failingOs inquiry
        (deliveredTo 1 both.2.2) handled.state (errorResponse 13) := by
  have happens : ∃ server responder both info, Conversation server responder both info ∧
      .accepted 4 ∈ eventsAt 1 both.1.1.server.log :=
    ⟨_, _, _, _, ⟨rfl, rfl, rfl, rfl, rfl, rfl, rfl⟩, List.mem_cons_self⟩
  obtain ⟨server, responder, both, info, talks, accepted⟩ := happens
  have front : gathered (readResults memory 7 bufferInit refusalReads) <+:
      sentTo 4 (eventsAt 1 both.1.1.server.log) := by
    rw [talks.sent, refusalReads_results]
    exact List.prefix_refl _
  obtain ⟨executed, handled, later, first, refines⟩ :=
    exchange_refines (Sorting.simpleLibrary Client) ⟨userB, userB⟩ failingOs_modest inquirySession_valid rfl
      (show Sorting.Sorted clientCmp oneUser.vec from List.pairwise_singleton _ _) talks.started
      talks.started' talks.run accepted memory_large rfl refusalReads_undisturbed front
      (zeroPacket_ready []) refusalReads_received
  exact ⟨server, responder, both, info, handled, later, talks, executed, first, refines⟩

end Middfs
