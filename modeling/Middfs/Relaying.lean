import Middfs.Relay

/-!
# The sessions of the server

Every session goes from the request that is read to the response that is
written, with partial reads and writes, and whatever happens to other sessions
between any two of its steps.
-/

set_option autoImplicit false

namespace Middfs

open Runs

/-! ## How far a session is -/

/-- The descriptor that the session began with, and those it connected. -/
structure Linked (events : List Event) (requester : Int) (peers : List Int) : Prop where
  accepted : acceptedIn events = [requester]
  created : createdIn events = peers

inductive Progress (registry : Clients) (session : Session) (events : List Event) (info : Sockinfo) :
    Prop where
  | reading : info.state = .mssReqrd → Linked events info.inEnd.fd [] →
      receivedFrom info.inEnd.fd events = info.inEnd.buf.bytes → (∀ fd, sentTo fd events = []) →
      (∀ fd, fd ≠ info.inEnd.fd → receivedFrom fd events = []) →
      info.outEnd.buf.contents = [] → Progress registry session events info
  | forwarding : info.state = .mssReqfwd → Linked events info.inEnd.fd [info.outEnd.fd] →
      sentTo info.outEnd.fd events ++ info.outEnd.buf.bytes = session.request.image →
      sentTo info.inEnd.fd events = [] → receivedFrom info.outEnd.fd events = [] →
      info.inEnd.fd ≠ info.outEnd.fd → info.inEnd.buf.contents = [] →
      session.response.image = session.answer registry → Progress registry session events info
  | awaiting : info.state = .mssRspfwd → Linked events info.outEnd.fd [info.inEnd.fd] →
      sentTo info.inEnd.fd events = session.request.image → sentTo info.outEnd.fd events = [] →
      receivedFrom info.inEnd.fd events = info.inEnd.buf.bytes → info.outEnd.fd ≠ info.inEnd.fd →
      info.outEnd.buf.contents = [] → session.response.image = session.answer registry →
      Progress registry session events info
  | answering (peers : List Int) : info.state = .mssRspwr → Linked events info.outEnd.fd peers →
      (∀ peer ∈ peers, peer ≠ info.outEnd.fd ∧ sentTo peer events = session.request.image) →
      sentTo info.outEnd.fd events ++ info.outEnd.buf.bytes = session.answer registry →
      Progress registry session events info

/-- How requesters, peers and the system behave while an entry is handled: there
is memory, sockets connect and get descriptors of their own, every write writes
something, and what is read is what the other side sends next. -/
structure Behaves (session : Session) (events : List Event) (calls : Calls) (info : Sockinfo) : Prop where
  granted : calls.Granted
  connects : info.state = .mssReqrd →
    ∃ fd : Nat, calls.socket = some fd ∧ calls.connect = true ∧ (fd : Int) ≠ info.inEnd.fd
  writes : ∃ n, calls.write = .count n
  requests : info.state = .mssReqrd → ∀ stream, calls.read = .bytes stream →
    receivedFrom info.inEnd.fd events ++ stream <+: session.request.image
  responses : info.state = .mssRspfwd → ∀ stream, calls.read = .bytes stream →
    receivedFrom info.inEnd.fd events ++ stream <+: session.response.image

section Session
variable {registry : Clients} {session : Session} {events : List Event} {info : Sockinfo}

theorem Linked.grow {requester : Int} {peers : List Int} (linked : Linked events requester peers)
    {more : List Event} (accepted : acceptedIn more = []) (created : createdIn more = []) :
    Linked (events ++ more) requester peers where
  accepted := by rw [acceptedIn_append, linked.accepted, accepted, List.append_nil]
  created := by rw [createdIn_append, linked.created, created, List.append_nil]

theorem faithful_of_linked {requester : Int} {peers : List Int} (linked : Linked events requester peers)
    (toPeer : ∀ peer ∈ peers, sentTo peer events <+: session.request.image)
    (forwarded : info.state = .mssRspfwd ∨ info.state = .mssRspwr ∨ info.state = .mssClosed →
      ∀ peer ∈ peers, sentTo peer events = session.request.image)
    (toRequester : sentTo requester events <+: session.answer registry)
    (answered : info.type = .mfdNone → info.state = .mssRspwr ∨ info.state = .mssClosed →
      sentTo requester events = session.answer registry) :
    FaithfullyRelayed registry session events info := by
  have only : ∀ fd, .accepted fd ∈ events → fd = requester := fun fd member =>
    List.mem_singleton.mp (linked.accepted ▸ mem_acceptedIn member)
  have among : ∀ peer, .created peer ∈ events → peer ∈ peers := fun peer member =>
    linked.created ▸ mem_createdIn member
  exact
    { toPeer := fun _ peer _ created => toPeer peer (among peer created)
      forwarded := fun state _ peer _ created => forwarded state peer (among peer created)
      toRequester := fun fd accepted => only fd accepted ▸ toRequester
      answered := fun type state fd accepted => only fd accepted ▸ answered type state }

theorem faithful_of_silent {requester : Int} {peers : List Int} (linked : Linked events requester peers)
    (toPeer : ∀ peer ∈ peers, sentTo peer events <+: session.request.image)
    (forwarded : info.state = .mssRspfwd → ∀ peer ∈ peers, sentTo peer events = session.request.image)
    (silent : sentTo requester events = []) (state : info.state ≠ .mssRspwr ∧ info.state ≠ .mssClosed) :
    FaithfullyRelayed registry session events info :=
  faithful_of_linked linked toPeer
    (fun states => forwarded (states.resolve_right (not_or.mpr state))) (silent ▸ List.nil_prefix)
    fun _ states => absurd states (not_or.mpr state)

theorem Progress.faithful (progress : Progress registry session events info)
    (type : info.type = .mfdPktIn) : FaithfullyRelayed registry session events info := by
  cases progress with
  | reading state linked _ sent _ _ =>
      exact faithful_of_silent linked (fun _ no => absurd no List.not_mem_nil)
        (fun _ _ no => absurd no List.not_mem_nil) (sent _) (by rw [state]; decide)
  | forwarding state linked written silent _ _ _ _ =>
      refine faithful_of_silent linked (fun peer member => ?_) (fun no => ?_) silent (by rw [state]; decide)
      · rw [List.mem_singleton.mp member, ← written]
        exact List.prefix_append _ _
      · rw [state] at no
        cases no
  | awaiting state linked written silent _ _ _ _ =>
      have whole : ∀ peer ∈ [info.inEnd.fd], sentTo peer events = session.request.image :=
        fun peer member => List.mem_singleton.mp member ▸ written
      exact faithful_of_silent linked (fun peer member => (whole peer member) ▸ List.prefix_refl _)
        (fun _ => whole) silent (by rw [state]; decide)
  | answering peers state linked forwarded written =>
      refine faithful_of_linked linked (fun peer member => ?_)
        (fun _ peer member => (forwarded peer member).2) ?_ (fun no => ?_)
      · rw [(forwarded peer member).2]
      · rw [← written]
        exact List.prefix_append _ _
      · rw [type] at no
        cases no

/-- Closing descriptors writes nothing. -/
theorem FaithfullyRelayed.closing (faithful : FaithfullyRelayed registry session events info)
    (fds : List Int) : FaithfullyRelayed registry session (events ++ fds.map .closed) info where
  toPeer := by
    simp only [accepted_closing, created_closing, sent_closing]
    exact faithful.toPeer
  forwarded := by
    simp only [accepted_closing, created_closing, sent_closing]
    exact faithful.forwarded
  toRequester := by
    simp only [accepted_closing, sent_closing]
    exact faithful.toRequester
  answered := by
    simp only [accepted_closing, sent_closing]
    exact faithful.answered

structure Leaves (registry : Clients) (session : Session) (events : List Event) (handled : Handled Clients) :
    Prop where
  same : handled.state = registry
  type : handled.info.type = .mfdPktIn
  kept : handled.status ≠ .hsDel → Progress registry session (events ++ handled.events) handled.info
  dropped : handled.status = .hsDel →
    FaithfullyRelayed registry session (events ++ handled.events) handled.info.deleted

theorem Leaves.after {handled : Handled Clients} {first : List Event}
    (leaves : Leaves registry session (events ++ first) handled) :
    Leaves registry session events { handled with events := first ++ handled.events } where
  same := leaves.same
  type := leaves.type
  kept := fun status => by
    show Progress registry session (events ++ (first ++ handled.events)) handled.info
    rw [← List.append_assoc]
    exact leaves.kept status
  dropped := fun status => by
    show FaithfullyRelayed registry session (events ++ (first ++ handled.events)) handled.info.deleted
    rw [← List.append_assoc]
    exact leaves.dropped status

section Steps
variable (lib : Sorting.Library Client) {calls : Calls} {handled : Handled Clients}

theorem answered_leaves {rsp : Packet} (sendable : rsp.Sendable) (granted : calls.Granted)
    (type : info.type = .mfdPktIn) (linked : Linked events info.inEnd.fd [])
    (sent : ∀ fd, sentTo fd events = []) (empty : info.outEnd.buf.contents = [])
    (answer : rsp.image = session.answer registry)
    (done : queuePacket calls info.answering rsp registry [] = .ok handled) :
    Leaves registry session events handled := by
  obtain ⟨buf, queued, image⟩ := @queuePacket_whole calls registry granted info.answering rsp
    sendable.whole sendable.small empty []
  rw [queued] at done
  cases done
  refine ⟨rfl, type, fun _ => ?_, fun no => (by cases no)⟩
  rw [List.append_nil]
  refine .answering [] rfl linked (fun _ no => absurd no List.not_mem_nil) ?_
  show sentTo info.inEnd.fd events ++ buf.bytes = session.answer registry
  rw [sent, List.nil_append, image, answer]

/-- A request that was read is answered, or goes to the peer. -/
theorem request_leaves {pkt : Packet} (read : RequestRead session pkt)
    (sorted : Sorting.Sorted clientCmp registry.vec) (listable : registry.Listable)
    (granted : calls.Granted)
    (connects : ∃ fd : Nat, calls.socket = some fd ∧ calls.connect = true ∧ (fd : Int) ≠ info.inEnd.fd)
    (type : info.type = .mfdPktIn) (linked : Linked events info.inEnd.fd [])
    (sent : ∀ fd, sentTo fd events = [])
    (unheard : ∀ fd, fd ≠ info.inEnd.fd → receivedFrom fd events = [])
    (outEmpty : info.outEnd.buf.contents = []) (inEmpty : info.inEnd.buf.contents = [])
    (done : serverRdFin lib calls info pkt registry = .ok handled) :
    Leaves registry session events handled := by
  rw [serverRdFin, read.type, if_neg (by decide), if_neg (by decide), if_pos rfl] at done
  cases root : rootRequested pkt.mpktRequest with
  | true =>
      rw [handleReqRdFin_root lib calls info pkt registry root] at done
      exact answered_leaves (rootResponse_sendable granted listable info pkt.mpktRequest) granted type
        linked sent outEmpty (read.rootAnswer granted root info registry) done
  | false =>
      obtain ⟨owner, held⟩ := Option.isSome_iff_exists.mp (read.wellFormed.request read.type).rsrc.1
      have name := lookedUp_of_owner root held
      rw [handleReqRdFin_lookedUp lib calls info pkt registry name] at done
      cases found : clientFind lib owner registry with
      | none =>
          rw [found] at done
          exact answered_leaves (sendable_error rfl) granted type linked sent outEmpty
            (read.missing lib sorted name found) done
      | some client =>
          obtain ⟨fd, socket, connect, differs⟩ := connects
          have connected : inetConnect calls = (some (fd : Int), [.created fd]) := by
            simp only [inetConnect, socket, connect, if_true]
          obtain ⟨buf, queued, image⟩ := @queuePacket_whole calls registry granted (info.forwarding fd) pkt
            read.wellFormed read.small outEmpty [.created fd]
          simp only [found, connected] at done
          rw [show queuePacket calls { info with
              state := .mssReqfwd, outEnd := { info.outEnd with fd := (fd : Int) } } pkt registry
              [.created fd] = _ from queued] at done
          cases done
          refine ⟨rfl, type, fun _ => ?_, fun no => (by cases no)⟩
          refine .forwarding rfl ⟨?_, ?_⟩ ?_ ?_ ?_ differs.symm inEmpty (read.found lib sorted name found)
          · rw [acceptedIn_append, linked.accepted]
            rfl
          · rw [createdIn_append, linked.created]
            rfl
          · show sentTo fd (events ++ [.created fd]) ++ buf.bytes = _
            rw [sentTo_append, sent, image, read.image]
            rfl
          · show sentTo info.inEnd.fd (events ++ [.created fd]) = []
            rw [sentTo_append, sent]
            rfl
          · show receivedFrom fd (events ++ [.created fd]) = []
            rw [receivedFrom_append, unheard fd differs]
            rfl

/-- The bytes that are there after a read are still what the other side sent. -/
theorem gathered_front {buf : Buffer} {bytes wire : List UInt8} {s : Cursor Packet}
    (gathered : Gathered calls info buf bytes s)
    (received : receivedFrom info.inEnd.fd events = info.inEnd.buf.bytes)
    (sends : ∀ stream, calls.read = .bytes stream → receivedFrom info.inEnd.fd events ++ stream <+: wire) :
    buf.bytes <+: wire := by
  obtain ⟨stream, n, offered, rfl⟩ := gathered.read
  rw [bytes_of_read gathered.contents, ← received]
  exact ((List.prefix_append_right_inj _).mpr (List.take_prefix n stream)).trans (sends stream offered)

theorem received_gathered {buf : Buffer} {bytes : List UInt8} {s : Cursor Packet}
    (gathered : Gathered calls info buf bytes s)
    (received : receivedFrom info.inEnd.fd events = info.inEnd.buf.bytes) :
    receivedFrom info.inEnd.fd (events ++ [.received info.inEnd.fd bytes]) = buf.bytes := by
  rw [receivedFrom_append, receivedFrom_received, if_pos rfl, received, bytes_of_read gathered.contents]

/-- Events at an entry in `MSS_REQRD`. -/
theorem reading_leaves (valid : session.Valid) (sorted : Sorting.Sorted clientCmp registry.vec)
    (listable : registry.Listable) (behaves : Behaves session events calls info)
    (type : info.type = .mfdPktIn) (state : info.state = .mssReqrd)
    (linked : Linked events info.inEnd.fd [])
    (received : receivedFrom info.inEnd.fd events = info.inEnd.buf.bytes)
    (sent : ∀ fd, sentTo fd events = [])
    (unheard : ∀ fd, fd ≠ info.inEnd.fd → receivedFrom fd events = [])
    (empty : info.outEnd.buf.contents = [])
    (event : ReadEvent (serverHi lib) calls info registry handled) :
    Leaves registry session events handled := by
  have silent : ∀ (more : List Event), Linked (events ++ more) info.inEnd.fd [] →
      sentTo info.inEnd.fd more = [] → ∀ gone : Sockinfo, gone.state = .mssReqrd →
        FaithfullyRelayed registry session (events ++ more) gone := by
    intro more linked' quiet gone state'
    refine faithful_of_silent linked' (fun _ no => absurd no List.not_mem_nil)
      (fun _ _ no => absurd no List.not_mem_nil) ?_ (by rw [state']; decide)
    rw [sentTo_append, sent, quiet, List.append_nil]
  cases event with
  | nothing buf _ =>
      exact ⟨rfl, type, fun no => absurd rfl no, fun _ => silent [] (linked.grow rfl rfl) rfl _ state⟩
  | rejected buf bytes s _ _ =>
      exact ⟨rfl, type, fun no => absurd rfl no, fun _ => silent _ (linked.grow rfl rfl) rfl _ state⟩
  | unfinished buf bytes s gathered _ _ =>
      refine ⟨rfl, type, fun _ => ?_, fun no => (by cases no)⟩
      have heard := received_gathered gathered received
      refine .reading state (linked.grow rfl rfl) heard (fun fd => ?_) (fun fd differs => ?_) empty
      · rw [sentTo_append, sent]
        rfl
      · have other : fd ≠ info.inEnd.fd := differs
        rw [receivedFrom_append, unheard fd other, receivedFrom_received, if_neg other.symm]
        rfl
  | complete buf bytes s after gathered clean short _ finished =>
      have decoded := gathered.decoded
      rw [behaves.granted.malloc] at decoded
      obtain ⟨read, whole⟩ := valid.request_decodes
        (gathered_front gathered received (behaves.requests state)) decoded clean
        (by rw [buf.bytes_length]; exact short)
      refine Leaves.after (@request_leaves registry session (events ++ [.received info.inEnd.fd bytes])
        (info.withIn (bufferShift buf s.used)) lib calls after s.obj read sorted listable
        behaves.granted (behaves.connects state) type (linked.grow rfl rfl) (fun fd => ?_)
        (fun fd differs => ?_) empty ?_ finished)
      · rw [sentTo_append, sent]
        rfl
      · have other : fd ≠ info.inEnd.fd := differs
        rw [receivedFrom_append, unheard fd other, receivedFrom_received, if_neg other.symm]
        rfl
      · show (bufferShift buf s.used).contents = []
        rw [(bufferShift_contents buf s.used).1]
        apply List.drop_eq_nil_of_le
        rw [buf.bytes_length] at whole
        rw [buf.contents_length]
        exact whole

/-- Events at an entry in `MSS_RSPFWD`. -/
theorem awaiting_leaves (valid : session.Valid) (behaves : Behaves session events calls info)
    (type : info.type = .mfdPktIn) (state : info.state = .mssRspfwd)
    (linked : Linked events info.outEnd.fd [info.inEnd.fd])
    (written : sentTo info.inEnd.fd events = session.request.image)
    (silent : sentTo info.outEnd.fd events = [])
    (received : receivedFrom info.inEnd.fd events = info.inEnd.buf.bytes)
    (differs : info.outEnd.fd ≠ info.inEnd.fd) (empty : info.outEnd.buf.contents = [])
    (answer : session.response.image = session.answer registry)
    (event : ReadEvent (serverHi lib) calls info registry handled) :
    Leaves registry session events handled := by
  have quiet : ∀ (more : List Event), Linked (events ++ more) info.outEnd.fd [info.inEnd.fd] →
      (∀ fd, sentTo fd more = []) → ∀ gone : Sockinfo, gone.state = .mssRspfwd →
        FaithfullyRelayed registry session (events ++ more) gone := by
    intro more linked' nothing gone state'
    have whole : ∀ peer ∈ [info.inEnd.fd], sentTo peer (events ++ more) = session.request.image := by
      intro peer member
      rw [List.mem_singleton.mp member, sentTo_append, written, nothing, List.append_nil]
    refine faithful_of_silent linked' (fun peer member => (whole peer member) ▸ List.prefix_refl _)
      (fun _ => whole) ?_ (by rw [state']; decide)
    rw [sentTo_append, silent, nothing, List.append_nil]
  cases event with
  | nothing buf _ =>
      exact ⟨rfl, type, fun no => absurd rfl no,
        fun _ => quiet [] (linked.grow rfl rfl) (fun _ => rfl) _ state⟩
  | rejected buf bytes s _ _ =>
      exact ⟨rfl, type, fun no => absurd rfl no,
        fun _ => quiet _ (linked.grow rfl rfl) (fun _ => rfl) _ state⟩
  | unfinished buf bytes s gathered _ _ =>
      refine ⟨rfl, type, fun _ => ?_, fun no => (by cases no)⟩
      have heard := received_gathered gathered received
      refine .awaiting state (linked.grow rfl rfl) ?_ ?_ heard differs empty answer
      · show sentTo info.inEnd.fd (events ++ _) = _
        rw [sentTo_append, written]
        exact List.append_nil _
      · show sentTo info.outEnd.fd (events ++ _) = _
        rw [sentTo_append, silent]
        rfl
  | complete buf bytes s after gathered clean short _ finished =>
      have decoded := gathered.decoded
      rw [behaves.granted.malloc] at decoded
      obtain ⟨sendable, image⟩ := valid.response_decodes
        (gathered_front gathered received (behaves.responses state)) decoded clean
        (by rw [buf.bytes_length]; exact short)
      obtain ⟨out, response, outBytes⟩ := @serverRdFin_response lib calls registry behaves.granted
        (info.withIn (bufferShift buf s.used)) s.obj state empty sendable
      have same : serverRdFin lib calls (info.withIn (bufferShift buf s.used)) s.obj registry =
          .ok after := finished
      rw [response] at same
      cases same
      refine ⟨rfl, type, fun _ => ?_, fun no => (by cases no)⟩
      refine .answering [info.inEnd.fd] rfl (linked.grow rfl rfl) (fun peer member => ?_) ?_
      · rw [List.mem_singleton.mp member]
        refine ⟨differs.symm, ?_⟩
        rw [sentTo_append, written]
        exact List.append_nil _
      · show sentTo info.outEnd.fd (events ++ _) ++ out.bytes = _
        rw [sentTo_append, silent, outBytes, image, answer]
        rfl

/-- What a write takes from the buffer for output is what is sent. -/
theorem write_progress {n : Nat} {buf : Buffer} (left : buf.contents = info.outEnd.buf.contents.drop n) :
    sentTo info.outEnd.fd (events ++ [.sent info.outEnd.fd (info.outEnd.buf.bytes.take n)]) ++ buf.bytes =
      sentTo info.outEnd.fd events ++ info.outEnd.buf.bytes := by
  have rest : buf.bytes = info.outEnd.buf.bytes.drop n := by
    rw [Buffer.bytes, left]
    exact Cell.vals_drop _ n
  rw [sentTo_append, sentTo_sent, if_pos rfl, List.append_assoc, rest, List.take_append_drop]

theorem serverWrFin_reqfwd (state : info.state = .mssReqfwd) (clients : Clients) :
    serverWrFin info clients = .ok ⟨.hsSuc, info.crossed, clients, []⟩ := by
  unfold serverWrFin
  rw [state]
  exact if_pos state

theorem serverWrFin_rspwr (state : info.state = .mssRspwr) (clients : Clients) :
    serverWrFin info clients = .ok ⟨.hsDel, { info with state := .mssClosed }, clients, []⟩ := by
  unfold serverWrFin
  rw [state]
  exact if_pos state

theorem Behaves.write_counts (behaves : Behaves session events calls info) {errno : Errno}
    (failed : calls.write = .error errno) : False := by
  obtain ⟨count, writes⟩ := behaves.writes
  cases failed.symm.trans writes

/-- Events at an entry in `MSS_REQFWD`. -/
theorem forwarding_leaves (behaves : Behaves session events calls info)
    (type : info.type = .mfdPktIn) (state : info.state = .mssReqfwd)
    (linked : Linked events info.inEnd.fd [info.outEnd.fd])
    (written : sentTo info.outEnd.fd events ++ info.outEnd.buf.bytes = session.request.image)
    (silent : sentTo info.inEnd.fd events = []) (unheard : receivedFrom info.outEnd.fd events = [])
    (differs : info.inEnd.fd ≠ info.outEnd.fd) (empty : info.inEnd.buf.contents = [])
    (answer : session.response.image = session.answer registry)
    (event : WriteEvent (serverHi lib) calls info registry handled) :
    Leaves registry session events handled := by
  cases event with
  | failed errno failed => exact (behaves.write_counts failed).elim
  | sent buf n left _ =>
      refine ⟨rfl, type, fun _ => ?_, fun no => (by cases no)⟩
      have progress := @write_progress events info n buf left
      refine .forwarding state (linked.grow rfl rfl) (progress.trans written) ?_ ?_ differs empty answer
      · show sentTo info.inEnd.fd (events ++ _) = []
        rw [sentTo_append, silent, sentTo_sent, if_neg differs.symm]
        rfl
      · show receivedFrom info.outEnd.fd (events ++ _) = []
        rw [receivedFrom_append, unheard]
        rfl
  | drained buf _ nothing drained _ finished =>
      have same : serverWrFin (info.withOut buf) registry = .ok handled := finished
      rw [@serverWrFin_reqfwd (info.withOut buf) state] at same
      cases same
      rw [nothing, List.append_nil] at written
      refine ⟨rfl, type, fun _ => ?_, fun no => (by cases no)⟩
      rw [List.append_nil]
      refine .awaiting rfl linked written silent ?_ differs drained answer
      show receivedFrom info.outEnd.fd events = info.inEnd.buf.bytes
      rw [unheard, Buffer.bytes, empty]
      rfl

/-- Events at an entry in `MSS_RSPWR`. -/
theorem answering_leaves (behaves : Behaves session events calls info)
    (type : info.type = .mfdPktIn) (state : info.state = .mssRspwr) {peers : List Int}
    (linked : Linked events info.outEnd.fd peers)
    (forwarded : ∀ peer ∈ peers, peer ≠ info.outEnd.fd ∧ sentTo peer events = session.request.image)
    (written : sentTo info.outEnd.fd events ++ info.outEnd.buf.bytes = session.answer registry)
    (event : WriteEvent (serverHi lib) calls info registry handled) :
    Leaves registry session events handled := by
  cases event with
  | failed errno failed => exact (behaves.write_counts failed).elim
  | sent buf n left _ =>
      refine ⟨rfl, type, fun _ => ?_, fun no => (by cases no)⟩
      have progress := @write_progress events info n buf left
      refine .answering peers state (linked.grow rfl rfl) (fun peer member => ?_) (progress.trans written)
      obtain ⟨differs, whole⟩ := forwarded peer member
      refine ⟨differs, ?_⟩
      rw [sentTo_append, whole, sentTo_sent, if_neg differs.symm, List.append_nil]
  | drained buf _ nothing drained _ finished =>
      have same : serverWrFin (info.withOut buf) registry = .ok handled := finished
      rw [@serverWrFin_rspwr (info.withOut buf) state] at same
      cases same
      rw [nothing, List.append_nil] at written
      refine ⟨rfl, type, fun no => absurd rfl no, fun _ => ?_⟩
      rw [List.append_nil]
      exact faithful_of_linked linked
        (fun peer member => (forwarded peer member).2 ▸ List.prefix_refl _)
        (fun _ peer member => (forwarded peer member).2) (written ▸ List.prefix_refl _) fun _ _ => written

theorem handlePktEvent_leaves (valid : session.Valid) (sorted : Sorting.Sorted clientCmp registry.vec)
    (listable : registry.Listable) (behaves : Behaves session events calls info)
    (type : info.type = .mfdPktIn) (progress : Progress registry session events info)
    (done : handlePktEvent (serverHi lib) calls info registry = .ok handled) :
    Leaves registry session events handled := by
  cases handlePktEvent_cases done with
  | quiet =>
      refine ⟨rfl, type, fun _ => ?_, fun no => (by cases no)⟩
      rw [List.append_nil]
      exact progress
  | reads _ watches event =>
      cases progress with
      | reading state linked received sent unheard empty =>
          exact reading_leaves lib valid sorted listable behaves type state linked received sent unheard
            empty event
      | awaiting state linked written silent received differs empty answer =>
          exact awaiting_leaves lib valid behaves type state linked written silent received differs empty
            answer event
      | forwarding state _ _ _ _ _ _ _ => cases (state ▸ watches : SockState.mssReqfwd.watchesIn = true)
      | answering peers state _ _ _ => cases (state ▸ watches : SockState.mssRspwr.watchesIn = true)
  | writes _ watches event =>
      cases progress with
      | forwarding state linked written silent unheard differs empty answer =>
          exact forwarding_leaves lib behaves type state linked written silent unheard differs empty answer
            event
      | answering peers state linked forwarded written =>
          exact answering_leaves lib behaves type state linked forwarded written event
      | reading state _ _ _ _ _ => cases (state ▸ watches : SockState.mssReqrd.watchesIn = false)
      | awaiting state _ _ _ _ _ _ _ => cases (state ▸ watches : SockState.mssRspfwd.watchesIn = false)

end Steps

/-! ## Runs -/

structure Relaying (registry : Clients) (session : Session) (events : List Event) (info : Sockinfo) :
    Prop where
  sound : info.Sound
  packet : info.type = .mfdPktIn → Progress registry session events info
  listening : info.type = .mfdLstn → acceptedIn events = []
  unused : info.type = .mfdNone → FaithfullyRelayed registry session events info

theorem faithful_of_unaccepted (none_ : acceptedIn events = []) :
    FaithfullyRelayed registry session events info := by
  have nobody : ∀ fd, .accepted fd ∉ events := by
    intro fd member
    have among := mem_acceptedIn member
    rw [none_] at among
    cases among
  exact
    { toPeer := fun requester _ accepted => absurd accepted (nobody requester)
      forwarded := fun _ requester _ accepted => absurd accepted (nobody requester)
      toRequester := fun requester accepted => absurd accepted (nobody requester)
      answered := fun _ _ requester accepted => absurd accepted (nobody requester) }

theorem Relaying.faithful (relaying : Relaying registry session events info) :
    FaithfullyRelayed registry session events info := by
  cases type : info.type with
  | mfdNone => exact relaying.unused type
  | mfdPktIn => exact (relaying.packet type).faithful type
  | mfdLstn => exact faithful_of_unaccepted (relaying.listening type)
  | mfdPktOut =>
      have fitting := relaying.sound.fitting
      unfold Sockinfo.Fitting at fitting
      simp only [type] at fitting

/-- An entry that differs where its `revents` pointers point, and in the events
that were reported. -/
theorem Progress.slots {info' : Sockinfo} (progress : Progress registry session events info)
    (same : SameButSlots info info') (revents : Revents) :
    Progress registry session events { info' with revents := revents } := by
  cases progress with
  | reading state linked received sent unheard empty =>
      refine .reading (same.state.trans state) ?_ ?_ sent ?_ ?_
      all_goals simp only [same.inFd, same.inBuf, same.outBuf]
      · exact linked
      · exact received
      · exact unheard
      · exact empty
  | forwarding state linked written silent unheard differs empty answer =>
      refine .forwarding (same.state.trans state) ?_ ?_ ?_ ?_ ?_ ?_ answer
      all_goals simp only [same.inFd, same.inBuf, same.outFd, same.outBuf]
      · exact linked
      · exact written
      · exact silent
      · exact unheard
      · exact differs
      · exact empty
  | awaiting state linked written silent received differs empty answer =>
      refine .awaiting (same.state.trans state) ?_ ?_ ?_ ?_ ?_ ?_ answer
      all_goals simp only [same.inFd, same.inBuf, same.outFd, same.outBuf]
      · exact linked
      · exact written
      · exact silent
      · exact received
      · exact differs
      · exact empty
  | answering peers state linked forwarded written =>
      refine .answering peers (same.state.trans state) ?_ ?_ ?_
      all_goals simp only [same.outFd, same.outBuf]
      · exact linked
      · exact forwarded
      · exact written

/-- What was written does not depend on more of the entry than its type and its
state. -/
theorem FaithfullyRelayed.alike {info' : Sockinfo} (faithful : FaithfullyRelayed registry session events info)
    (type : info'.type = info.type) (state : info'.state = info.state) :
    FaithfullyRelayed registry session events info' where
  toPeer := faithful.toPeer
  forwarded := fun states => faithful.forwarded (state ▸ states)
  toRequester := faithful.toRequester
  answered := fun gone states => faithful.answered (type ▸ gone) (state ▸ states)

theorem Relaying.slots {info' : Sockinfo} (relaying : Relaying registry session events info)
    (same : SameButSlots info info') (revents : Revents) :
    Relaying registry session events { info' with revents := revents } where
  sound := by
    have sound := same.sound relaying.sound
    exact ⟨sound.fitting, sound.unreleased⟩
  packet := fun type => (relaying.packet (same.type.symm.trans type)).slots same revents
  listening := fun type => relaying.listening (same.type.symm.trans type)
  unused := fun type => (relaying.unused (same.type.symm.trans type)).alike same.type same.state

end Session

/-- The condition on a step: requesters, peers and the system behave, connections
find a place in the array, and nothing is disturbed. -/
def behaving (sessions : Nat → Session) : Expected Clients where
  polls := fun reported => ∀ ready, reported = some ready → ¬ Disturbed ready
  accepts := fun calls socks => ∀ fd : Nat, (socksAdd calls.realloc (.accepted fd) socks).isSome = true
  handles := fun index events calls info _ => Behaves (sessions index) events calls info

theorem sessionwise_relaying (lib : Sorting.Library Client) {sessions : Nat → Session}
    (valid : ∀ index, (sessions index).Valid) {registry : Clients}
    (sorted : Sorting.Sorted clientCmp registry.vec) (listable : registry.Listable) :
    Sessionwise (serverHi lib) (behaving sessions) (· = registry)
      (fun index => Relaying registry (sessions index)) (· = []) where
  sound := fun _ _ _ relaying => relaying.sound
  accepted := fun index events fd none_ => by
    subst none_
    refine ⟨sound_accepted fd, fun _ => ?_, fun no => (by cases no), fun no => by cases no⟩
    exact .reading rfl ⟨rfl, rfl⟩ rfl (fun _ => rfl) (fun _ _ => rfl) rfl
  refused := fun events calls socks fd accepts refused _ => by
    have added := accepts fd
    rw [refused] at added
    cases added
  slots := fun _ _ info info' relaying same => by
    have kept := relaying.slots same info'.revents
    exact kept
  polled := fun _ events info ready checked relaying quiet polledTo => by
    cases polledTo with
    | kept info' revents same _ =>
        have kept := relaying.slots same revents
        show Relaying registry _ (events ++ []) _
        rw [List.append_nil]
        exact kept
    | deleted info' _ _ disturbed => exact absurd disturbed (quiet ready rfl)
  listening := fun _ events info relaying type => by
    have deletable := relaying.sound.deletable (by rw [type]; intro no; cases no)
    have nobody : acceptedIn (events ++ info.held.map .closed) = [] := by
      rw [acceptedIn_append, relaying.listening type, acceptedIn_closing, List.append_nil]
    exact ⟨sound_deleted deletable (sockinfoDelete_eq deletable.inUnreleased deletable.outUnreleased),
      fun no => (by cases no), fun no => (by cases no), fun _ => faithful_of_unaccepted nobody⟩
  event := fun index events calls info clients handled relaying same type behaves done => by
    subst same
    have leaves := handlePktEvent_leaves lib (valid index) sorted listable behaves type
      (relaying.packet type) done
    obtain ⟨sound, deletable⟩ :=
      (handlePktEvent_stepped (serverHi_turns lib) done).sound type relaying.sound
    refine ⟨leaves.same, fun status => ?_, fun status => ?_⟩
    · refine ⟨sound status, fun _ => leaves.kept status, fun no => ?_, fun no => ?_⟩
      · rw [leaves.type] at no
        cases no
      · rw [leaves.type] at no
        cases no
    · have gone := deletable status
      exact ⟨sound_deleted gone (sockinfoDelete_eq gone.inUnreleased gone.outUnreleased),
        fun no => (by cases no), fun no => (by cases no),
        fun _ => (leaves.dropped status).closing _⟩

/-- In every run in which requesters, peers and the system behave, every session
is relayed faithfully: what `serialize_pkt` makes of the request goes to the peer,
and what it makes of the reply to the requester. -/
theorem sessions_relayedFaithfully (lib : Sorting.Library Client) {sessions : Nat → Session}
    (valid : ∀ index, (sessions index).Valid) {registry : Clients}
    (sorted : Sorting.Sorted clientCmp registry.vec) (listable : registry.Listable)
    {realloc : Nat → Bool} {servsock : Nat} {server : Server Clients} {running : Running Clients}
    (started : serverStart realloc servsock registry = .ok (some server))
    (run : Reached (advance (serverHi lib)) (behaving sessions).Meets ⟨server, 0, 0⟩ running)
    (index : Nat) {info : Sockinfo}
    (found : running.server.socks.sockinfos[index]? = some info) :
    Encodes (sessions index).request (sessions index).request.image ∧
      Encodes ((sessions index).reply registry) ((sessions index).answer registry) ∧
      FaithfullyRelayed registry (sessions index) (eventsAt index running.server.log) info := by
  have listens : Relaying registry (sessions 0) [.created servsock] (.listens servsock) :=
    ⟨sound_listens servsock, fun no => (by cases no), fun _ => rfl, fun no => by cases no⟩
  have relayed := (sessionwise_relaying lib valid sorted listable).runs (serverHi_turns lib) run
    (sessions_started started rfl listens rfl)
  obtain ⟨sent, answered⟩ := (valid index).encodes listable
  exact ⟨sent, answered, (relayed.entries index info found).faithful⟩

/-- User `a` asks about the root of user `b`, who says that there is no such file. -/
def inquirySession : Session := ⟨inquiry, packetError zeroPacket enoent⟩

theorem inquirySession_valid : inquirySession.Valid where
  request := rfl
  wellFormed :=
    { requester := rfl
      rsrc := ⟨rfl, rfl⟩
      target := fun no => absurd no (by decide)
      data := fun no => absurd no (by decide) }
  write := fun no => absurd no (by decide)
  small := by decide
  response := sendable_error rfl

theorem socksAdd_isSome (realloc : Nat → Bool) (info info' : Sockinfo) (socks : Socks) :
    (socksAdd realloc info socks).isSome = (socksAdd realloc info' socks).isSome := by
  unfold socksAdd
  split <;> rfl

/-- What goes on at a moment: there is memory, writes write something, and nothing is
disturbed. -/
structure Moment.Calm (moment : Moment) : Prop where
  granted : moment.calls.Granted
  writes : ∃ n, moment.calls.write = .count n
  quiet : ∀ ready, moment.ready = some ready → ¬ Disturbed ready

theorem happening_calm {own other : Revents} (quiet : own.pollerr = false ∧ own.pollhup = false)
    (quiet' : other.pollerr = false ∧ other.pollhup = false) {calls : List Calls}
    (fine : ∀ call ∈ calls, call.Granted ∧ ∃ n, call.write = .count n) :
    ∀ moment ∈ happening own other calls, moment.Calm := by
  intro moment member
  rcases List.mem_cons.mp member with rfl | later
  · refine ⟨⟨rfl, rfl⟩, ⟨0, rfl⟩, fun ready same => ?_⟩
    cases same
    rintro ⟨slot, disturbed⟩
    dsimp only at disturbed
    split_ifs at disturbed
    · rw [quiet.1, quiet.2] at disturbed
      simp at disturbed
    · rw [quiet'.1, quiet'.2] at disturbed
      simp at disturbed
    · simp [Revents.none] at disturbed
  · obtain ⟨call, among, rfl⟩ := List.mem_map.mp later
    obtain ⟨granted, writes⟩ := fine call among
    exact ⟨granted, writes, fun ready no => by cases no⟩

/-- Whether an entry is handled as `behaving` asks, if every session is this one. -/
def behavesAt (session : Session) (moment : Moment) (running : Running Clients) : Bool :=
  match running.left, running.server.socks.sockinfos[running.index]? with
  | _ + 1, some info =>
      let stream : List UInt8 := match moment.calls.read with
        | .bytes stream => stream
        | _ => []
      let received := receivedFrom info.inEnd.fd (eventsAt running.index running.server.log) ++ stream
      (socksAdd moment.calls.realloc info running.server.socks).isSome &&
        (info.type != .mfdPktIn ||
          (info.state != .mssReqrd || moment.calls.connect &&
            (moment.calls.socket.any fun fd : Nat => decide ((fd : Int) ≠ info.inEnd.fd)) &&
              received.isPrefixOf session.request.image) &&
          (info.state != .mssRspfwd || received.isPrefixOf session.response.image))
  | _, _ => true

theorem behavesAt_sound {session : Session} {moment : Moment} {running : Running Clients}
    (calm : moment.Calm) (checked : behavesAt session moment running = true) :
    (behaving fun _ => session).Meets moment running := by
  unfold Expected.Meets
  split
  · exact calm.quiet
  rename_i left more
  intro info found
  unfold behavesAt at checked
  simp only [more, found, Bool.and_eq_true, Bool.or_eq_true, bne_iff_ne] at checked
  obtain ⟨room, session_⟩ := checked
  refine ⟨fun _ fd => (socksAdd_isSome _ _ _ _).trans room, fun type => ?_⟩
  obtain ⟨reading, responding⟩ := session_.resolve_left (not_not.mpr type)
  refine ⟨calm.granted, fun state => ?_, calm.writes, fun state stream read => ?_,
    fun state stream read => ?_⟩
  · obtain ⟨⟨connect, socket⟩, _⟩ := reading.resolve_left (not_not.mpr state)
    obtain ⟨fd, same, differs⟩ := (Option.any_eq_true _ _).mp socket
    exact ⟨fd, same, connect, of_decide_eq_true differs⟩
  · obtain ⟨_, front⟩ := reading.resolve_left (not_not.mpr state)
    rw [read] at front
    exact List.isPrefixOf_iff_prefix.mp front
  · have front := responding.resolve_left (not_not.mpr state)
    rw [read] at front
    exact List.isPrefixOf_iff_prefix.mp front

theorem connectionOn_calm (fd : Nat) : ∀ moment ∈ connectionOn fd, moment.Calm := by
  intro moment member
  rcases List.mem_cons.mp member with rfl | accepts
  · refine ⟨⟨rfl, rfl⟩, ⟨0, rfl⟩, fun ready same => ?_⟩
    cases same
    rintro ⟨_, no | no⟩ <;> cases no
  · rw [List.mem_singleton.mp accepts]
    exact ⟨⟨rfl, rfl⟩, ⟨0, rfl⟩, fun ready no => by cases no⟩

theorem attendingTo_calm {revents : Revents} {calls : Calls}
    (quiet : revents.pollerr = false ∧ revents.pollhup = false) (granted : calls.Granted)
    (writes : ∃ n, calls.write = .count n) : ∀ moment ∈ attendingTo revents calls, moment.Calm := by
  refine happening_calm quiet quiet fun call among => ?_
  rcases List.mem_cons.mp among with rfl | last
  · exact ⟨⟨rfl, rfl⟩, 0, rfl⟩
  · rw [List.mem_singleton.mp last]
    exact ⟨granted, writes⟩

theorem takingIn_calm {calls : Calls} (granted : calls.Granted) (writes : ∃ n, calls.write = .count n)
    (bytes : List UInt8) (offsets : List Nat) : ∀ moment ∈ takingIn calls bytes offsets, moment.Calm := by
  intro moment member
  obtain ⟨offset, _, here⟩ := List.mem_flatMap.mp member
  refine attendingTo_calm ⟨rfl, rfl⟩ ?_ ?_ moment here
  · exact ⟨granted.malloc, granted.realloc⟩
  · exact writes

theorem givingOut_calm : ∀ moment ∈ givingOut, moment.Calm := by
  intro moment member
  rcases List.mem_append.mp member with writes | ends
  · exact attendingTo_calm ⟨rfl, rfl⟩ ⟨rfl, rfl⟩ ⟨100, rfl⟩ moment writes
  · exact attendingTo_calm ⟨rfl, rfl⟩ ⟨rfl, rfl⟩ ⟨0, rfl⟩ moment ends

theorem inquiry_calm : ∀ moment ∈ inquiryForwarded ++ inquiryAnswered, moment.Calm := by
  intro moment member
  rcases List.mem_append.mp member with forwarded | answered
  · rcases List.mem_append.mp forwarded with earlier | given
    · rcases List.mem_append.mp earlier with connects | takes
      · exact connectionOn_calm 4 moment connects
      · exact @takingIn_calm { grantedCalls with socket := some 6, connect := true } ⟨rfl, rfl⟩
          ⟨0, rfl⟩ _ _ moment takes
    · exact givingOut_calm moment given
  · rcases List.mem_append.mp answered with takes | given
    · exact @takingIn_calm grantedCalls ⟨rfl, rfl⟩ ⟨0, rfl⟩ _ _ moment takes
    · exact givingOut_calm moment given

structure InquiryRelayed (server : Server Clients) (running : Running Clients) (info : Sockinfo) :
    Prop where
  started : serverStart memory 3 oneUser = .ok (some server)
  runs : steps (advance (serverHi (Sorting.simpleLibrary Client))) (inquiryForwarded ++ inquiryAnswered)
    ⟨server, 0, 0⟩ = .ok running
  behaves : passes (advance (serverHi (Sorting.simpleLibrary Client))) (behavesAt inquirySession)
    (inquiryForwarded ++ inquiryAnswered) ⟨server, 0, 0⟩ = true
  found : running.server.socks.sockinfos[1]? = some info
  closed : info.state = .mssClosed
  sent : sentTo 6 (eventsAt 1 running.server.log) = inquiry.image ∧
    sentTo 4 (eventsAt 1 running.server.log) = (packetError zeroPacket enoent).image

theorem sessions_relayedFaithfully_inquiry : ∃ server running info, InquiryRelayed server running info ∧
    Encodes inquiry inquiry.image ∧
    Encodes (inquirySession.reply oneUser) (inquirySession.answer oneUser) ∧
    FaithfullyRelayed oneUser inquirySession (eventsAt 1 running.server.log) info := by
  have happens : ∃ server running info, InquiryRelayed server running info :=
    ⟨_, _, _, rfl, rfl, rfl, rfl, rfl, ⟨rfl, rfl⟩⟩
  obtain ⟨server, running, info, relayed⟩ := happens
  exact ⟨server, running, info, relayed,
    sessions_relayedFaithfully (Sorting.simpleLibrary Client) (fun _ => inquirySession_valid)
      (show Sorting.Sorted clientCmp oneUser.vec from List.pairwise_singleton _ _) oneUser_listable
      relayed.started
      (.of_passes (fun moment member _ checked => behavesAt_sound (inquiry_calm moment member) checked)
        relayed.behaves relayed.runs) 1 relayed.found⟩

end Middfs
