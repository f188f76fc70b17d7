import Middfs.Enrolment

/-!
# One session among others

What the server does in one session depends on the others through the registry
only, as it is when the request is handled.  A session whose requester and peer
send what they should is relayed faithfully, whatever comes in on the other
connections, and even if its own writes fail or a descriptor is disturbed.
-/

set_option autoImplicit false

namespace Middfs

open Runs

/-! ## Sessions that may be cut short -/

/-- What was written in a session; all of the answer, if the session came to its
end. -/
structure Relayed (registry : Clients) (session : Session) (events : List Event) (info : Sockinfo) :
    Prop where
  toPeer : ∀ requester peer, .accepted requester ∈ events → .created peer ∈ events →
    sentTo peer events <+: session.request.image
  forwarded : info.state = .mssRspfwd ∨ info.state = .mssRspwr ∨ info.state = .mssClosed →
    ∀ requester peer, .accepted requester ∈ events → .created peer ∈ events →
      sentTo peer events = session.request.image
  toRequester : ∀ requester, .accepted requester ∈ events →
    sentTo requester events <+: session.answer registry
  answered : info.state = .mssClosed →
    ∀ requester, .accepted requester ∈ events → sentTo requester events = session.answer registry

/-- What a requester and a peer owe the session: they send its request and its
response, and a socket that is created has a descriptor of its own.  There is
memory. -/
structure Cooperates (session : Session) (events : List Event) (calls : Calls) (info : Sockinfo) :
    Prop where
  granted : calls.Granted
  fresh : info.state = .mssReqrd → ∀ fd : Nat, calls.socket = some fd → (fd : Int) ≠ info.inEnd.fd
  requests : info.state = .mssReqrd → ∀ stream, calls.read = .bytes stream →
    receivedFrom info.inEnd.fd events ++ stream <+: session.request.image
  responses : info.state = .mssRspfwd → ∀ stream, calls.read = .bytes stream →
    receivedFrom info.inEnd.fd events ++ stream <+: session.response.image

section Session
variable {registry : Clients} {session : Session} {events : List Event} {info : Sockinfo}

theorem FaithfullyRelayed.relayed (faithful : FaithfullyRelayed registry session events info)
    (unused : info.state = .mssClosed → info.type = .mfdNone) : Relayed registry session events info where
  toPeer := faithful.toPeer
  forwarded := faithful.forwarded
  toRequester := faithful.toRequester
  answered := fun closed => faithful.answered (unused closed) (Or.inr closed)

theorem Progress.state (progress : Progress registry session events info) :
    info.state ≠ .mssClosed := by
  cases progress with
  | reading state _ _ _ _ _ => rw [state]; exact fun no => by cases no
  | forwarding state _ _ _ _ _ _ _ => rw [state]; exact fun no => by cases no
  | awaiting state _ _ _ _ _ _ _ => rw [state]; exact fun no => by cases no
  | answering _ state _ _ _ => rw [state]; exact fun no => by cases no

theorem Progress.relayed (progress : Progress registry session events info)
    (type : info.type = .mfdPktIn) : Relayed registry session events info :=
  (progress.faithful type).relayed fun closed => absurd closed progress.state

/-- Closing descriptors writes nothing. -/
theorem Relayed.closing (relayed : Relayed registry session events info) (fds : List Int) :
    Relayed registry session (events ++ fds.map .closed) info.deleted where
  toPeer := by
    simp only [accepted_closing, created_closing, sent_closing]
    exact relayed.toPeer
  forwarded := by
    simp only [accepted_closing, created_closing, sent_closing]
    exact relayed.forwarded
  toRequester := by
    simp only [accepted_closing, sent_closing]
    exact relayed.toRequester
  answered := by
    simp only [accepted_closing, sent_closing]
    exact relayed.answered

structure Proceeds (registry : Clients) (session : Session) (events : List Event)
    (handled : Handled Clients) : Prop where
  type : handled.info.type = .mfdPktIn
  kept : handled.status ≠ .hsDel → Progress registry session (events ++ handled.events) handled.info
  dropped : handled.status = .hsDel → Relayed registry session (events ++ handled.events) handled.info

theorem Leaves.proceeds {handled : Handled Clients} (leaves : Leaves registry session events handled) :
    Proceeds registry session events handled where
  type := leaves.type
  kept := leaves.kept
  dropped := fun status => by
    have relayed := (leaves.dropped status).relayed fun _ => rfl
    exact ⟨relayed.toPeer, relayed.forwarded, relayed.toRequester, relayed.answered⟩

end Session

/-! ## Events -/

section Events
variable (lib : Sorting.Library Client) {registry clients : Clients} {session : Session}
variable {events : List Event} {info : Sockinfo} {calls : Calls} {handled : Handled Clients}

/-- The calls for a socket that connects, and a write that does not fail. -/
def Calls.connecting (calls : Calls) (fd : Nat) : Calls :=
  { calls with write := .count 0, socket := some fd, connect := true }

/-- Whether a socket connects matters to a request for a registered client only. -/
theorem handleReqRdFin_connecting {pkt : Packet} {fd : Nat}
    (same : ∀ fd' : Nat, calls.socket = some fd' → calls.connect = true → fd' = fd)
    (done : handleReqRdFin lib calls info pkt registry = .ok handled) :
    handleReqRdFin lib (calls.connecting fd) info pkt registry = .ok handled ∨
      ∃ more, handled = ⟨.hsDel, { info with state := .mssReqfwd }, registry, more⟩ ∧
        (more = [] ∨ ∃ fd : Nat, more = [.created fd]) := by
  cases root : rootRequested pkt.mpktRequest with
  | true =>
      rw [handleReqRdFin_root lib calls info pkt registry root] at done
      rw [handleReqRdFin_root lib _ info pkt registry root]
      exact Or.inl done
  | false =>
      cases held : pkt.mpktRequest.mreqRsrc.mrOwner with
      | none =>
          rw [handleReqRdFin_unnamed lib calls info pkt registry root held] at done
          cases done
      | some owner =>
          have name := lookedUp_of_owner root held
          rw [handleReqRdFin_lookedUp lib calls info pkt registry name] at done
          rw [handleReqRdFin_lookedUp lib _ info pkt registry name]
          cases found : clientFind lib owner registry with
          | none =>
              rw [found] at done
              exact Or.inl done
          | some client =>
              have connects : inetConnect (calls.connecting fd) = (some (fd : Int), [.created fd]) := rfl
              rcases inetConnect_cases calls with ⟨fd', connected⟩ | ⟨more, failed, created⟩
              · have own : fd' = fd := by
                  unfold inetConnect at connected
                  split at connected
                  · cases connected
                  · rename_i socket
                    split_ifs at connected with connect
                    · cases connected
                      exact same fd' socket connect
                    · cases connected
                subst own
                simp only [found, connected] at done
                simp only [connects]
                exact Or.inl done
              · simp only [found, failed] at done
                cases done
                exact Or.inr ⟨more, rfl, created⟩

theorem serverRdFin_connecting {pkt : Packet} {fd : Nat}
    (same : ∀ fd' : Nat, calls.socket = some fd' → calls.connect = true → fd' = fd)
    (done : serverRdFin lib calls info pkt registry = .ok handled) :
    serverRdFin lib (calls.connecting fd) info pkt registry = .ok handled ∨
      pkt.mpktType = mpktRequestType ∧
        ∃ more, handled = ⟨.hsDel, { info with state := .mssReqfwd }, registry, more⟩ ∧
          (more = [] ∨ ∃ fd : Nat, more = [.created fd]) := by
  unfold serverRdFin at done ⊢
  split_ifs at done ⊢ with connect disconnect request response
  · exact Or.inl done
  · exact (handleReqRdFin_connecting lib same done).imp_right fun unconnected => ⟨request, unconnected⟩
  · exact Or.inl done
  · exact Or.inl done

/-- While a packet is read, only its handler looks at sockets. -/
theorem handlePktEvent_connecting {fd : Nat} (reading : info.state.watchesIn = true)
    (same : ∀ fd' : Nat, calls.socket = some fd' → calls.connect = true → fd' = fd)
    (done : handlePktEvent (serverHi lib) calls info registry = .ok handled) :
    handlePktEvent (serverHi lib) (calls.connecting fd) info registry = .ok handled ∨
      ∃ buf bytes s more, Gathered calls info buf bytes s ∧ s.err = 0 ∧ s.used ≤ buf.used ∧
        s.obj.mpktType = mpktRequestType ∧ handled = ⟨.hsDel, { info.withIn (bufferShift buf s.used) with state := .mssReqfwd }, registry,
          .received info.inEnd.fd bytes :: more⟩ ∧ (more = [] ∨ ∃ fd : Nat, more = [.created fd]) := by
  have reads : handlePktRd (serverHi lib) calls info registry = .ok handled →
      handlePktRd (serverHi lib) (calls.connecting fd) info registry = .ok handled ∨
      ∃ buf bytes s more, Gathered calls info buf bytes s ∧ s.err = 0 ∧ s.used ≤ buf.used ∧
        s.obj.mpktType = mpktRequestType ∧ handled = ⟨.hsDel, { info.withIn (bufferShift buf s.used) with state := .mssReqfwd }, registry,
          .received info.inEnd.fd bytes :: more⟩ ∧
        (more = [] ∨ ∃ fd : Nat, more = [.created fd]) := by
    intro done
    unfold handlePktRd at done ⊢
    rw [show receivePacket (calls.connecting fd) info = receivePacket calls info from rfl]
    cases received : receivePacket calls info with
    | error trap =>
        rw [received] at done
        cases done
    | ok result =>
        rw [received] at done
        cases receivePacket_cases received with
        | nothing _ _ => exact Or.inl done
        | rejected _ _ _ _ _ => exact Or.inl done
        | unfinished _ _ _ _ _ _ => exact Or.inl done
        | complete buf bytes s gathered clean within =>
            cases finished : (serverHi lib).rdFin calls (info.withIn (bufferShift buf s.used)) s.obj
              registry with
            | error trap =>
                simp only [finished] at done
                cases done
            | ok after =>
                simp only [finished] at done
                rcases serverRdFin_connecting lib same finished with
                  connected | ⟨request, more, rfl, created⟩
                · have connected' : (serverHi lib).rdFin (calls.connecting fd)
                      (info.withIn (bufferShift buf s.used)) s.obj registry = .ok after := connected
                  simp only [connected']
                  exact Or.inl done
                · cases done
                  exact Or.inr ⟨buf, bytes, s, more, gathered, clean, within, request, rfl, created⟩
  unfold handlePktEvent at done ⊢
  split_ifs at done ⊢ with quiet
  · exact Or.inl done
  cases current : info.state <;> rw [current] at reading <;> simp only [current] at done ⊢
  case mssReqrd => exact reads done
  case mssRspfwd => exact reads done
  all_goals first | cases done | cases reading

/-- Nothing but a socket that does not connect, or a write that fails, keeps the
session from going on. -/
theorem Cooperates.behaves (cooperates : Cooperates session events calls info) {fd : Nat}
    (differs : info.state = .mssReqrd → (fd : Int) ≠ info.inEnd.fd) :
    Behaves session events (calls.connecting fd) info where
  granted := ⟨cooperates.granted.malloc, cooperates.granted.realloc⟩
  connects := fun state => ⟨fd, rfl, rfl, differs state⟩
  writes := ⟨0, rfl⟩
  requests := cooperates.requests
  responses := cooperates.responses

theorem exists_fresh (fd : Int) : ∃ other : Nat, (other : Int) ≠ fd :=
  ⟨fd.toNat + 1, by omega⟩

/-- A write that fails ends the session where it is. -/
theorem handlePktEvent_failing {errno : Errno} (writing : info.state.watchesIn = false)
    (failed : calls.write = .error errno)
    (done : handlePktEvent (serverHi lib) calls info registry = .ok handled) :
    handled = ⟨.hsSuc, info, registry, []⟩ ∨ handled = ⟨.hsDel, info, registry, []⟩ := by
  have writes : handlePktWr (serverHi lib) calls info registry = .ok handled →
      handled = ⟨.hsDel, info, registry, []⟩ := by
    intro done
    unfold handlePktWr at done
    split_ifs at done
    rw [failed] at done
    cases done
    rfl
  unfold handlePktEvent at done
  split_ifs at done
  · cases done
    exact Or.inl rfl
  cases current : info.state <;> rw [current] at writing <;> simp only [current] at done
  case mssRspwr => exact Or.inr (writes done)
  case mssReqfwd => exact Or.inr (writes done)
  all_goals first | cases done | cases writing

theorem writing_proceeds (valid : session.Valid) (sorted : Sorting.Sorted clientCmp registry.vec)
    (listable : registry.Listable) (cooperates : Cooperates session events calls info)
    (type : info.type = .mfdPktIn) (writing : info.state.watchesIn = false)
    (progress : Progress registry session events info)
    (done : handlePktEvent (serverHi lib) calls info registry = .ok handled) :
    Proceeds registry session events handled := by
  have notReading : ∀ state : SockState, state.watchesIn = true → info.state ≠ state := by
    intro state watches same
    rw [same, watches] at writing
    cases writing
  cases result : calls.write with
  | count n =>
      exact (handlePktEvent_leaves lib valid sorted listable
        ⟨cooperates.granted, fun no => absurd no (notReading _ rfl), ⟨n, result⟩,
          fun no => absurd no (notReading _ rfl), fun no => absurd no (notReading _ rfl)⟩
        type progress done).proceeds
  | error errno =>
      rcases handlePktEvent_failing lib writing result done with rfl | rfl
      · refine ⟨type, fun _ => ?_, fun no => by cases no⟩
        rw [List.append_nil]
        exact progress
      · refine ⟨type, fun no => absurd rfl no, fun _ => ?_⟩
        rw [List.append_nil]
        exact progress.relayed type

theorem unconnected_relayed {bytes : List UInt8} {more : List Event} {gone : Sockinfo}
    (sent : ∀ fd, sentTo fd events = [])
    (created : more = [] ∨ ∃ fd : Nat, more = [.created fd]) (state : gone.state = .mssReqfwd) :
    Relayed registry session (events ++ .received info.inEnd.fd bytes :: more) gone := by
  have silent : ∀ fd, sentTo fd (events ++ .received info.inEnd.fd bytes :: more) = [] := by
    intro fd
    rw [sentTo_append, sent]
    rcases created with rfl | ⟨_, rfl⟩ <;> rfl
  refine ⟨fun _ peer _ _ => ?_, fun states => ?_, fun requester _ => ?_, fun closed => ?_⟩
  · rw [silent]
    exact List.nil_prefix
  · rw [state] at states
    rcases states with no | no | no <;> cases no
  · rw [silent]
    exact List.nil_prefix
  · rw [state] at closed
    cases closed

theorem reading_proceeds (valid : session.Valid) (sorted : Sorting.Sorted clientCmp registry.vec)
    (listable : registry.Listable) (cooperates : Cooperates session events calls info)
    (type : info.type = .mfdPktIn) (reading : info.state.watchesIn = true)
    (progress : Progress registry session events info)
    (done : handlePktEvent (serverHi lib) calls info registry = .ok handled) :
    Proceeds registry session events handled := by
  -- a descriptor that the socket has, or could have had
  have chosen : ∃ fd : Nat, (info.state = .mssReqrd → (fd : Int) ≠ info.inEnd.fd) ∧
      ∀ fd' : Nat, calls.socket = some fd' → calls.connect = true → fd' = fd := by
    cases socket : calls.socket with
    | none =>
        obtain ⟨fd, differs⟩ := exists_fresh info.inEnd.fd
        exact ⟨fd, fun _ => differs, fun _ no => by cases no⟩
    | some fd =>
        exact ⟨fd, fun state => cooperates.fresh state fd socket, fun fd' same _ => by cases same; rfl⟩
  obtain ⟨fd, differs, same⟩ := chosen
  rcases handlePktEvent_connecting lib reading same done with
    connected | ⟨buf, bytes, s, more, gathered, clean, within, request, rfl, created⟩
  · exact (handlePktEvent_leaves lib valid sorted listable (cooperates.behaves differs) type progress
      connected).proceeds
  · cases progress with
    | reading _ _ _ sent _ _ =>
        refine ⟨type, fun no => absurd rfl no, fun _ => ?_⟩
        exact unconnected_relayed sent created rfl
    | forwarding state _ _ _ _ _ _ _ => cases (state ▸ reading : SockState.mssReqfwd.watchesIn = true)
    | answering _ state _ _ _ => cases (state ▸ reading : SockState.mssRspwr.watchesIn = true)
    | awaiting state _ _ _ received _ _ _ =>
        have decoded := gathered.decoded
        rw [cooperates.granted.malloc] at decoded
        have sendable := (valid.response_decodes
          (gathered_front gathered received (cooperates.responses state)) decoded clean
          (by rw [buf.bytes_length]; exact within)).1
        exact absurd (sendable.response.symm.trans request) (by decide)

theorem Progress.event (valid : session.Valid) (sorted : Sorting.Sorted clientCmp registry.vec)
    (listable : registry.Listable) (cooperates : Cooperates session events calls info)
    (type : info.type = .mfdPktIn) (progress : Progress registry session events info)
    (done : handlePktEvent (serverHi lib) calls info registry = .ok handled) :
    Proceeds registry session events handled := by
  cases watches : info.state.watchesIn with
  | true => exact reading_proceeds lib valid sorted listable cooperates type watches progress done
  | false => exact writing_proceeds lib valid sorted listable cooperates type watches progress done

/-! ## Other sessions -/

theorem Progress.of_reqrd (state : info.state = .mssReqrd)
    (progress : Progress registry session events info) :
    receivedFrom info.inEnd.fd events = info.inEnd.buf.bytes ∧ ∀ fd, sentTo fd events = [] := by
  cases progress with
  | reading _ _ received sent _ _ => exact ⟨received, sent⟩
  | forwarding no _ _ _ _ _ _ _ =>
      rw [state] at no
      cases no
  | awaiting no _ _ _ _ _ _ _ =>
      rw [state] at no
      cases no
  | answering _ no _ _ _ =>
      rw [state] at no
      cases no

/-- While a request is read, the registry does not matter. -/
theorem Progress.anywhere {other : Clients} (state : info.state = .mssReqrd)
    (progress : Progress registry session events info) : Progress other session events info := by
  cases progress with
  | reading state linked received sent unheard empty =>
      exact .reading state linked received sent unheard empty
  | forwarding no _ _ _ _ _ _ _ =>
      rw [state] at no
      cases no
  | awaiting no _ _ _ _ _ _ _ =>
      rw [state] at no
      cases no
  | answering _ no _ _ _ =>
      rw [state] at no
      cases no

theorem serverWrFin_anyRegistry (done : serverWrFin info clients = .ok handled) (other : Clients) :
    serverWrFin info other = .ok { handled with state := other } := by
  unfold serverWrFin handleReqWrFin handleRspWrFin at done ⊢
  split at done
  · split_ifs at done ⊢
    cases done
    rfl
  · split_ifs at done ⊢
    cases done
    rfl
  · cases done
    rfl

theorem queuePacket_anyRegistry {pkt : Packet} {more : List Event}
    (done : queuePacket calls info pkt clients more = .ok handled) (other : Clients) :
    queuePacket calls info pkt other more = .ok { handled with state := other } := by
  unfold queuePacket at done ⊢
  split at done
  · cases done
  · cases done
    rfl
  · cases done
    rfl

theorem serverRdFin_anyRegistry {pkt : Packet} (response : pkt.mpktType = mpktResponseType)
    (done : serverRdFin lib calls info pkt clients = .ok handled) (other : Clients) :
    serverRdFin lib calls info pkt other = .ok { handled with state := other } := by
  rw [serverRdFin, response, if_neg (by decide), if_neg (by decide), if_neg (by decide), if_pos rfl]
    at done ⊢
  unfold handleRspRdFin at done ⊢
  split_ifs at done ⊢
  exact queuePacket_anyRegistry done other

/-- Once the request was handled, the registry does not matter any more. -/
theorem handlePktEvent_anyRegistry
    (responses : ∀ read pkt, handedOver calls info = some (read, pkt) → pkt.mpktType = mpktResponseType)
    (done : handlePktEvent (serverHi lib) calls info clients = .ok handled) (other : Clients) :
    handlePktEvent (serverHi lib) calls info other = .ok { handled with state := other } := by
  have reads : info.revents ≠ Revents.none → info.state.watchesIn = true →
      handlePktRd (serverHi lib) calls info clients = .ok handled →
      handlePktRd (serverHi lib) calls info other = .ok { handled with state := other } := by
    intro happened watches done
    unfold handlePktRd at done ⊢
    cases received : receivePacket calls info with
    | error trap =>
        rw [received] at done
        cases done
    | ok result =>
        rw [received] at done
        obtain ⟨read, received', status | pkt⟩ := result
        · cases done
          rfl
        · have over_ : handedOver calls info = some (read, pkt) := by
            rw [handedOver, if_pos ⟨happened, watches⟩, received]
          cases finished : (serverHi lib).rdFin calls read pkt clients with
          | error trap =>
              simp only [finished] at done
              cases done
          | ok after =>
              simp only [finished] at done
              cases done
              have finished' : (serverHi lib).rdFin calls read pkt other =
                  .ok { after with state := other } :=
                serverRdFin_anyRegistry lib (responses read pkt over_) finished other
              simp only [finished']
  have writes : handlePktWr (serverHi lib) calls info clients = .ok handled →
      handlePktWr (serverHi lib) calls info other = .ok { handled with state := other } := by
    intro done
    unfold handlePktWr at done ⊢
    split_ifs at done ⊢
    split at done
    · cases done
      rfl
    · split_ifs at done ⊢
      · cases done
        rfl
      · exact serverWrFin_anyRegistry done other
  unfold handlePktEvent at done ⊢
  split_ifs at done ⊢ with quiet
  · cases done
    rfl
  cases current : info.state <;> simp only [current] at done ⊢
  case mssReqrd => exact reads quiet (by rw [current]; rfl) done
  case mssRspfwd => exact reads quiet (by rw [current]; rfl) done
  case mssRspwr => exact writes done
  case mssReqfwd => exact writes done
  all_goals cases done

end Events

/-! ## The histories of a session -/

section Histories
variable (session : Session) (history : List (Delivery Clients)) (events : List Event) (info : Sockinfo)

/-- How far a session is, with the registry as it was when its request was
handled. -/
inductive Going : Prop where
  | unheard : history = [] → info.state = .mssReqrd →
      (∀ registry, Progress registry session events info) → Going
  | heard (delivery : Delivery Clients) (later : List (Delivery Clients)) :
      history = delivery :: later → RequestRead session delivery.pkt →
      Sorting.Sorted clientCmp delivery.state.vec → delivery.state.Listable →
      info.state ≠ .mssReqrd → Progress delivery.state session events info → Going

/-- What came of a session: nothing was written in it, or its request was handled
and relayed. -/
inductive Outcome : Prop where
  | unheard : history = [] → info.state ≠ .mssClosed → (∀ fd, sentTo fd events = []) → Outcome
  | heard (delivery : Delivery Clients) (later : List (Delivery Clients)) :
      history = delivery :: later → RequestRead session delivery.pkt →
      Encodes session.request session.request.image →
      Encodes (session.reply delivery.state) (session.answer delivery.state) →
      Relayed delivery.state session events info → Outcome

end Histories

section Events
variable (lib : Sorting.Library Client) {clients : Clients} {session : Session}
variable {history : List (Delivery Clients)} {events : List Event} {info : Sockinfo}
variable {index : Nat} {calls : Calls} {handled : Handled Clients}

theorem Going.outcome (valid : session.Valid) (going : Going session history events info)
    (type : info.type = .mfdPktIn) : Outcome session history events info := by
  cases going with
  | unheard none_ state progress =>
      exact .unheard none_ (by rw [state]; exact fun no => by cases no)
        ((progress clientsInit).of_reqrd state).2
  | heard delivery later one read _ listable _ progress =>
      obtain ⟨sent, answered⟩ := valid.encodes listable
      exact .heard delivery later one read sent answered (progress.relayed type)

theorem Outcome.closing (outcome : Outcome session history events info) (fds : List Int) :
    Outcome session history (events ++ fds.map .closed) info.deleted := by
  cases outcome with
  | unheard none_ state silent =>
      refine .unheard none_ state fun fd => ?_
      rw [sent_closing]
      exact silent fd
  | heard delivery later one read sent answered relayed =>
      exact .heard delivery later one read sent answered (relayed.closing fds)

structure Advances (session : Session) (history : List (Delivery Clients)) (events : List Event)
    (handled : Handled Clients) : Prop where
  type : handled.info.type = .mfdPktIn
  kept : handled.status ≠ .hsDel → Going session history (events ++ handled.events) handled.info
  dropped : handled.status = .hsDel → Outcome session history (events ++ handled.events) handled.info

/-- An event before the request was read completely, and the one at which it was. -/
theorem unheard_advances (valid : session.Valid) (sorted : Sorting.Sorted clientCmp clients.vec)
    (listable : clients.Listable) (cooperates : Cooperates session events calls info)
    (type : info.type = .mfdPktIn) (state : info.state = .mssReqrd)
    (progress : ∀ registry, Progress registry session events info)
    (done : handlePktEvent (serverHi lib) calls info clients = .ok handled) :
    Advances session (deliveredAt calls index info clients) events handled := by
  have proceeds := (progress clients).event lib valid sorted listable cooperates type done
  have recounted := handlePktEvent_recounted done
  obtain ⟨received, silent⟩ := (progress clients).of_reqrd state
  have still : ∀ info' : Sockinfo, info'.state = .mssReqrd →
      Progress clients session (events ++ handled.events) info' →
      Going session [] (events ++ handled.events) info' :=
    fun info' state' here => .unheard rfl state' fun registry => here.anywhere state'
  rw [deliveredAt, if_pos type]
  generalize handedOver calls info = delivered at recounted
  cases recounted with
  | quiet => exact ⟨type, fun status => still info state (proceeds.kept status), fun no => by cases no⟩
  | nothing buf _ _ =>
      refine ⟨type, fun no => absurd rfl no, fun _ => .unheard rfl ?_ fun fd => ?_⟩
      · show info.state ≠ .mssClosed
        rw [state]
        exact fun no => by cases no
      · rw [sentTo_append, silent]
        rfl
  | rejected buf bytes s _ _ _ =>
      refine ⟨type, fun no => absurd rfl no, fun _ => .unheard rfl ?_ fun fd => ?_⟩
      · show info.state ≠ .mssClosed
        rw [state]
        exact fun no => by cases no
      · rw [sentTo_append, silent]
        rfl
  | unfinished buf bytes s _ _ _ _ =>
      exact ⟨type, fun status => still (info.withIn buf) state (proceeds.kept status),
        fun no => by cases no⟩
  | complete buf bytes s after watches gathered clean within finished =>
      have read : RequestRead session s.obj := by
        have decoded := gathered.decoded
        rw [cooperates.granted.malloc] at decoded
        exact (valid.request_decodes (gathered_front gathered received (cooperates.requests state))
          decoded clean (by rw [buf.bytes_length]; exact within)).1
      have moves : after.status ≠ .hsDel → after.info.state ≠ .mssReqrd := by
        intro status
        obtain ⟨turned, out, turns, left, _⟩ := (serverHi_turns lib).rdFin calls
          (info.withIn (bufferShift buf s.used)) s.obj clients after watches finished
        have same : after.info.state = (turned.withOut out).state := congrArg Sockinfo.state left
        rw [same]
        exact turns.moves status
      obtain ⟨sent, answered⟩ := valid.encodes listable
      exact ⟨proceeds.type,
        fun status => .heard ⟨index, calls, info.withIn (bufferShift buf s.used), s.obj, clients⟩ [] rfl
          read sorted listable (moves status) (proceeds.kept status),
        fun status => .heard ⟨index, calls, info.withIn (bufferShift buf s.used), s.obj, clients⟩ [] rfl
          read sent answered (proceeds.dropped status)⟩
  | writes _ watches _ =>
      rw [state] at watches
      cases watches

/-- Once the request was handled, the registry does not matter any more. -/
theorem Progress.moved {registry : Clients} (valid : session.Valid)
    (cooperates : Cooperates session events calls info) (state : info.state ≠ .mssReqrd)
    (progress : Progress registry session events info)
    (done : handlePktEvent (serverHi lib) calls info clients = .ok handled) (other : Clients) :
    handlePktEvent (serverHi lib) calls info other = .ok { handled with state := other } := by
  refine handlePktEvent_anyRegistry lib (fun read pkt delivered => ?_) done other
  have recounted := handlePktEvent_recounted done
  rw [delivered] at recounted
  cases recounted with
  | complete buf bytes s after watches gathered clean within _ =>
      have decoded := gathered.decoded
      rw [cooperates.granted.malloc] at decoded
      cases progress with
      | reading no _ _ _ _ _ => exact absurd no state
      | awaiting awaits _ _ _ received _ _ _ =>
          exact (valid.response_decodes
            (gathered_front gathered received (cooperates.responses awaits)) decoded clean
            (by rw [buf.bytes_length]; exact within)).1.response
      | forwarding writing _ _ _ _ _ _ _ =>
          rw [writing] at watches
          cases watches
      | answering _ writing _ _ _ =>
          rw [writing] at watches
          cases watches

/-- An event after the request was handled. -/
theorem heard_advances (valid : session.Valid) (cooperates : Cooperates session events calls info)
    (type : info.type = .mfdPktIn) {delivery : Delivery Clients} {later : List (Delivery Clients)}
    (one : history = delivery :: later) (read : RequestRead session delivery.pkt)
    (sorted : Sorting.Sorted clientCmp delivery.state.vec) (listable : delivery.state.Listable)
    (state : info.state ≠ .mssReqrd) (progress : Progress delivery.state session events info)
    (done : handlePktEvent (serverHi lib) calls info clients = .ok handled) :
    Advances session (history ++ deliveredAt calls index info clients) events handled := by
  have moved := progress.moved lib valid cooperates state done delivery.state
  have proceeds := progress.event lib valid sorted listable cooperates type moved
  have later' : history ++ deliveredAt calls index info clients =
      delivery :: (later ++ deliveredAt calls index info clients) := by
    rw [one]
    rfl
  obtain ⟨sent, answered⟩ := valid.encodes listable
  refine ⟨proceeds.type, fun status => ?_, fun status => ?_⟩
  · refine .heard delivery _ later' read sorted listable ?_ (proceeds.kept status)
    intro still
    exact state ((handlePktEvent_stepped (serverHi_turns lib) done).reading status still)
  · exact .heard delivery _ later' read sent answered (proceeds.dropped status)

theorem Going.event (valid : session.Valid) (sorted : Sorting.Sorted clientCmp clients.vec)
    (listable : info.state = .mssReqrd → clients.Listable)
    (cooperates : Cooperates session events calls info) (type : info.type = .mfdPktIn)
    (going : Going session history events info)
    (done : handlePktEvent (serverHi lib) calls info clients = .ok handled) :
    Advances session (history ++ deliveredAt calls index info clients) events handled := by
  cases going with
  | unheard none_ state progress =>
      rw [none_]
      exact unheard_advances lib valid sorted (listable state) cooperates type state progress done
  | heard delivery later one read sorted' listable' state progress =>
      exact heard_advances lib valid cooperates type one read sorted' listable' state progress done

theorem Going.slots {info' : Sockinfo} (going : Going session history events info)
    (same : SameButSlots info info') (revents : Revents) :
    Going session history events { info' with revents := revents } := by
  cases going with
  | unheard none_ state progress =>
      exact .unheard none_ (same.state.trans state) fun registry => (progress registry).slots same revents
  | heard delivery later one read sorted listable state progress =>
      exact .heard delivery later one read sorted listable (fun no => state (same.state.symm.trans no))
        (progress.slots same revents)

theorem Outcome.alike {info' : Sockinfo} (outcome : Outcome session history events info)
    (state : info'.state = info.state) : Outcome session history events info' := by
  cases outcome with
  | unheard none_ open_ silent => exact .unheard none_ (state ▸ open_) silent
  | heard delivery later one read sent answered relayed =>
      exact .heard delivery later one read sent answered
        ⟨relayed.toPeer, fun states => relayed.forwarded (state ▸ states), relayed.toRequester,
          fun closed => relayed.answered (state ▸ closed)⟩

end Events

/-! ## Runs -/

structure Isolated (session : Session) (history : List (Delivery Clients)) (events : List Event)
    (info : Sockinfo) : Prop where
  sound : info.Sound
  packet : info.type = .mfdPktIn → Going session history events info
  unused : info.type ≠ .mfdPktIn → Outcome session history events info

section Runs
variable {session : Session} {history : List (Delivery Clients)} {events : List Event} {info : Sockinfo}

theorem Isolated.outcome (valid : session.Valid) (isolated : Isolated session history events info) :
    Outcome session history events info := by
  by_cases type : info.type = .mfdPktIn
  · exact (isolated.packet type).outcome valid type
  · exact isolated.unused type

theorem Isolated.slots {info' : Sockinfo} (isolated : Isolated session history events info)
    (same : SameButSlots info info') (revents : Revents) :
    Isolated session history events { info' with revents := revents } where
  sound := by
    have sound := same.sound isolated.sound
    exact ⟨sound.fitting, sound.unreleased⟩
  packet := fun type => (isolated.packet (same.type.symm.trans type)).slots same revents
  unused := fun type =>
    (isolated.unused fun packet => type (same.type.trans packet)).alike same.state

theorem isolated_deleted (outcome : Outcome session history events info) (deletable : info.Deletable)
    (fds : List Int) : Isolated session history (events ++ fds.map .closed) info.deleted where
  sound := sound_deleted deletable (sockinfoDelete_eq deletable.inUnreleased deletable.outUnreleased)
  packet := fun no => by cases no
  unused := fun _ => outcome.closing fds

/-- The condition on a step: there is room for connections, and those who take
part in the session at `own` cooperate. -/
def cooperating (own : Nat) (session : Session) : Expected Clients where
  polls := fun _ => True
  accepts := fun calls socks => ∀ fd : Nat, (socksAdd calls.realloc (.accepted fd) socks).isSome = true
  handles := fun index events calls info clients => index = own →
    Cooperates session events calls info ∧ (info.state = .mssReqrd → clients.Listable)

theorem historic_isolated (lib : Sorting.Library Client) {own : Nat} {session : Session}
    (valid : session.Valid) :
    Historic (serverHi lib) (cooperating own session)
      (fun clients => Sorting.Sorted clientCmp clients.vec)
      (fun index history events info => info.Sound ∧ (index = own → Isolated session history events info))
      (· = []) where
  sound := fun _ _ _ _ both => both.1
  accepted := fun _ events fd none_ => by
    subst none_
    refine ⟨sound_accepted fd, fun _ => ⟨sound_accepted fd, fun _ => ?_, fun no => absurd rfl no⟩⟩
    exact .unheard rfl rfl fun _ =>
      .reading rfl ⟨rfl, rfl⟩ rfl (fun _ => rfl) (fun _ _ => rfl) rfl
  refused := fun _ _ _ fd room refused _ => by
    have added := room fd
    rw [refused] at added
    cases added
  slots := fun _ _ _ _ info' both same => by
    refine ⟨same.sound both.1, fun own => ?_⟩
    have kept := (both.2 own).slots same info'.revents
    exact kept
  polled := fun _ history events info ready checked both _ polledTo => by
    cases polledTo with
    | kept info' revents same _ =>
        have sound := same.sound both.1
        refine ⟨⟨sound.fitting, sound.unreleased⟩, fun own => ?_⟩
        show Isolated session history (events ++ []) _
        rw [List.append_nil]
        exact (both.2 own).slots same revents
    | deleted info' same inUse _ =>
        have deletable := (same.sound both.1).deletable fun no => inUse (same.type.symm.trans no)
        exact ⟨sound_deleted deletable
            (sockinfoDelete_eq deletable.inUnreleased deletable.outUnreleased),
          fun own => isolated_deleted (((both.2 own).outcome valid).alike same.state) deletable info.held⟩
  listening := fun _ _ _ info both type => by
    have deletable := both.1.deletable (by rw [type]; intro no; cases no)
    exact ⟨sound_deleted deletable (sockinfoDelete_eq deletable.inUnreleased deletable.outUnreleased),
      fun own => isolated_deleted ((both.2 own).outcome valid) deletable info.held⟩
  event := fun index history events calls info clients handled both sorted type cooperates done => by
    obtain ⟨sound, deletable⟩ :=
      (handlePktEvent_stepped (serverHi_turns lib) done).sound type both.1
    have advances : index = own →
        Advances session (history ++ deliveredAt calls index info clients) events handled := fun own =>
      ((both.2 own).packet type).event lib valid sorted (cooperates own).2 (cooperates own).1 type done
    refine ⟨sorted_of_event sorted done, fun status => ⟨sound status, fun own => ?_⟩, fun status => ?_⟩
    · exact ⟨sound status, fun _ => (advances own).kept status,
        fun no => absurd (advances own).type no⟩
    · have gone := deletable status
      exact ⟨sound_deleted gone (sockinfoDelete_eq gone.inUnreleased gone.outUnreleased),
        fun own => isolated_deleted ((advances own).dropped status) gone handled.info.held⟩

/-- In every run in which the requester and the peer of one session cooperate,
that session is relayed faithfully as far as it goes, and completely if it comes to
its end, with the registry as it was when its request was handled: whatever the
other connections send, whichever users introduce themselves, and whichever writes
and descriptors fail. -/
theorem session_isolated (lib : Sorting.Library Client) {own : Nat} {session : Session}
    (valid : session.Valid) {registry : Clients} (sorted : Sorting.Sorted clientCmp registry.vec)
    {realloc : Nat → Bool} {servsock : Nat} {server : Server Clients} {running : Running Clients}
    {history : List (Delivery Clients)}
    (started : serverStart realloc servsock registry = .ok (some server))
    (run : Reached (recording (advance (serverHi lib)) deliveries)
      (fun moment recorded => (cooperating own session).Meets moment recorded.1)
      (⟨server, 0, 0⟩, []) (running, history))
    {info : Sockinfo} (found : running.server.socks.sockinfos[own]? = some info) :
    Outcome session (deliveredTo own history) (eventsAt own running.server.log) info := by
  have listens : (Sockinfo.listens servsock).Sound ∧
      (0 = own → Isolated session [] [.created servsock] (.listens servsock)) :=
    ⟨sound_listens servsock, fun _ => ⟨sound_listens servsock, fun no => (by cases no), fun _ =>
      .unheard rfl (fun no => by cases no) fun _ => rfl⟩⟩
  have histories := (historic_isolated lib valid).runs (serverHi_turns lib) run
    (histories_started started sorted listens rfl)
  exact ((histories.entries own info found).2 rfl).outcome valid

end Runs

/-! ## An intrusion -/

/-- User `a` asks for the root of user `b`, while somebody else introduces himself
as user `a` over another connection. -/
def intrusion : List Moment :=
  ⟨true, some fun _ => { pollin := true }, grantedCalls⟩ ::
    ⟨true, none, { grantedCalls with accept := some 4 }⟩ ::
    ⟨true, some fun slot => if slot = 0 then { pollin := true } else Revents.none, grantedCalls⟩ ::
    ⟨true, none, { grantedCalls with accept := some 5 }⟩ :: ⟨true, none, grantedCalls⟩ ::
    [0, 1, 2, 4, 8].flatMap (fun offset => happening { pollin := true } { pollin := true }
      [grantedCalls, { grantedCalls with read := .bytes (inquiry.image.drop offset) },
        { grantedCalls with
          peername := some loopback
          read := .bytes ((connectPacket (some userA) 4001).wire.drop offset) }]) ++
    happening { pollin := true } Revents.none
      [grantedCalls, { grantedCalls with read := .bytes (inquiry.image.drop 16) }, grantedCalls] ++
    happening { pollout := true } Revents.none
      [grantedCalls, { grantedCalls with write := .count 100 }, grantedCalls] ++
    happening { pollout := true } Revents.none [grantedCalls, grantedCalls, grantedCalls]

/-- Whether the session at `own` is handled as `cooperating` asks, by a server that
creates no sockets. -/
def cooperatesAt (own : Nat) (session : Session) (moment : Moment) (running : Running Clients) : Bool :=
  match running.left, running.server.socks.sockinfos[running.index]? with
  | _ + 1, some info =>
      (socksAdd moment.calls.realloc info running.server.socks).isSome &&
        (running.index != own || info.type != .mfdPktIn ||
          moment.calls.socket.isNone && info.state != .mssRspfwd &&
            decide (listingLength (running.server.state.vec.map Client.username) < 2 ^ 62) &&
            match moment.calls.read with
            | .bytes stream => info.state != .mssReqrd ||
                (receivedFrom info.inEnd.fd (eventsAt own running.server.log) ++ stream).isPrefixOf
                  session.request.image
            | _ => true)
  | _, _ => true

theorem cooperatesAt_sound {own : Nat} {session : Session} {moment : Moment} {running : Running Clients}
    (granted : moment.calls.Granted) (checked : cooperatesAt own session moment running = true) :
    (cooperating own session).Meets moment running := by
  unfold Expected.Meets
  split
  · trivial
  rename_i left more
  intro info found
  unfold cooperatesAt at checked
  simp only [more, found, Bool.and_eq_true, Bool.or_eq_true, bne_iff_ne, decide_eq_true_eq] at checked
  obtain ⟨room, session_⟩ := checked
  refine ⟨fun _ fd => (socksAdd_isSome _ _ _ _).trans room, fun type own_ => ?_⟩
  rcases session_ with (other | noPacket) | ⟨⟨⟨unconnected, awaits⟩, listable⟩, reads⟩
  · exact absurd own_ other
  · exact absurd type noPacket
  refine ⟨⟨granted, fun _ fd socket => ?_, fun state stream read => ?_, fun state => absurd state awaits⟩,
    fun _ => listable⟩
  · rw [socket] at unconnected
    cases unconnected
  · rw [read] at reads
    rw [own_]
    simp only [Bool.or_eq_true, bne_iff_ne] at reads
    rcases reads with no | front
    · exact absurd state no
    · exact List.isPrefixOf_iff_prefix.mp front

structure Intrusion (server : Server Clients) (running : Running Clients)
    (history : List (Delivery Clients)) (info : Sockinfo) : Prop where
  started : serverStart memory 3 clientsInit = .ok (some server)
  runs : steps (recording (advance (serverHi (Sorting.simpleLibrary Client))) deliveries) intrusion
    (⟨server, 0, 0⟩, []) = .ok (running, history)
  cooperates : passes (recording (advance (serverHi (Sorting.simpleLibrary Client))) deliveries)
    (fun moment recorded => cooperatesAt 1 inquirySession moment recorded.1) intrusion
    (⟨server, 0, 0⟩, []) = true
  found : running.server.socks.sockinfos[1]? = some info
  closed : info.state = .mssClosed
  registered : running.server.state.vec.map Client.username = [userA]

theorem session_isolated_intrusion : ∃ server running history info,
    Intrusion server running history info ∧
      Outcome inquirySession (deliveredTo 1 history) (eventsAt 1 running.server.log) info := by
  have happens : ∃ server running history info, Intrusion server running history info :=
    ⟨_, _, _, _, rfl, rfl, rfl, rfl, rfl, rfl⟩
  obtain ⟨server, running, history, info, intrusion_⟩ := happens
  have granted : ∀ moment ∈ intrusion, moment.calls.Granted := by
    intro moment member
    have memories : intrusion.map (fun moment => (moment.calls.malloc, moment.calls.realloc)) =
        List.replicate 37 (memory, memory) := rfl
    have among := List.mem_map_of_mem
      (f := fun moment : Moment => (moment.calls.malloc, moment.calls.realloc)) member
    rw [memories] at among
    have same := Prod.mk.inj (List.eq_of_mem_replicate among)
    exact ⟨same.1, same.2⟩
  exact ⟨server, running, history, info, intrusion_,
    session_isolated (Sorting.simpleLibrary Client) inquirySession_valid
      (show Sorting.Sorted clientCmp clientsInit.vec from List.Pairwise.nil) intrusion_.started
      (.of_passes (fun moment member _ checked => cooperatesAt_sound (granted moment member) checked)
        intrusion_.cooperates intrusion_.runs) intrusion_.found⟩

end Middfs
