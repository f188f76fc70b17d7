import Middfs.Histories
import Middfs.Relaying

/-!
# One request after the other

The client responder has many connections at a time.  Whatever comes in on them,
its files are what `handle_request` makes of the requests that were read
completely, executed one after the other, and what was written to a connection
is the beginning of the response to the one request that was read from it.
-/

set_option autoImplicit false

namespace Middfs

open Runs

/-! ## Executions -/

section Executions
variable {σ : Type} (conf : ClientConf) (os : Os σ)

/-- The files after the packets of a history, of which the requests are executed
in order, each on the files that the one before left. -/
inductive Executed (start : σ) : List (Delivery σ) → σ → Prop where
  | start : Executed start [] start
  | request (history : List (Delivery σ)) (delivery : Delivery σ) (retv : HandlerE) (rsp : Packet)
      (files : σ) : Executed start history delivery.state → delivery.pkt.mpktType = mpktRequestType →
      handleRequest conf os delivery.calls.malloc delivery.pkt zeroPacket delivery.state =
        .ok (retv, rsp, files) →
      Executed start (history ++ [delivery]) files
  | other (history : List (Delivery σ)) (delivery : Delivery σ) : Executed start history delivery.state →
      delivery.pkt.mpktType ≠ mpktRequestType → Executed start (history ++ [delivery]) delivery.state

def Understood (delivery : Delivery σ) (bytes : List UInt8) : Prop :=
  ∃ s, deserializePkt delivery.calls.malloc bytes zeroPacket 0 = .ok s ∧ s.err = 0 ∧
    s.used ≤ bytes.length ∧ s.obj = delivery.pkt

def Replied (delivery : Delivery σ) (bytes : List UInt8) : Prop :=
  ∃ rsp files, delivery.pkt.mpktType = mpktRequestType ∧
    handleRequest conf os delivery.calls.malloc delivery.pkt zeroPacket delivery.state =
      .ok (.hsSuc, rsp, files) ∧
    Encodes rsp rsp.image ∧ bytes <+: rsp.image

/-- What was read and written over a connection, and handed over for it. -/
inductive Conversed (history : List (Delivery σ)) (events : List Event) : Prop where
  | silent : history = [] → (∀ fd, receivedFrom fd events = [] ∧ sentTo fd events = []) →
      Conversed history events
  | reading (fd : Int) : history = [] → .accepted fd ∈ events →
      (∀ other, other ≠ fd → receivedFrom other events = []) → (∀ other, sentTo other events = []) →
      Conversed history events
  | served (fd : Int) (delivery : Delivery σ) : history = [delivery] → .accepted fd ∈ events →
      (∀ other, other ≠ fd → receivedFrom other events = [] ∧ sentTo other events = []) →
      Understood delivery (receivedFrom fd events) →
      (sentTo fd events = [] ∨ Replied conf os delivery (sentTo fd events)) →
      Conversed history events

theorem executed_of_chained {start files : σ} {history : List (Delivery σ)}
    (chained : Chained (clientHi conf os) start history files) : Executed conf os start history files := by
  induction chained with
  | start => exact .start
  | next history delivery after _ done ih =>
      have handled : clientRdFin conf os delivery.calls delivery.info delivery.pkt delivery.state =
          .ok after := done
      unfold clientRdFin at handled
      split_ifs at handled with state request
      · split at handled
        · cases handled
        rename_i retv rsp files answered
        have executed : Executed conf os start (history ++ [delivery]) files :=
          .request history delivery retv rsp files ih request answered
        split_ifs at handled
        · cases handled
          exact executed
        split at handled
        · cases handled
        · cases handled
          exact executed
        · cases handled
          exact executed
      · cases handled
        exact .other history delivery ih request

variable {conf os}

theorem handleRequestType_answerable (modest : os.Modest) {malloc : Nat → Bool} {path : CStr}
    {req : Request} {rsp : Response} {files : σ} {answer : (Int32 × Response) × σ}
    (answered : handleRequestType conf os malloc path req rsp files = .ok (some answer)) :
    Answerable answer := by
  unfold handleRequestType at answered
  split_ifs at answered
  · cases answered
    exact handleRequestGetattr_answers path rsp files
  · cases answered
    exact handleRequestReaddir_answers modest malloc path rsp files
  · cases answered
    exact handleRequestAccess_answers path req rsp files
  · cases answered
    exact handleRequestOpen_answers path req rsp files
  · cases answered
    exact handleRequestTruncate_answers path req rsp files
  · cases target : req.mreqTo.mrPath with
    | none =>
        rw [handleRequestRename, target] at answered
        cases answered
    | some toPath =>
        obtain ⟨renamed, done, answerable⟩ :=
          @handleRequestRename_answers _ conf os path req rsp files _ target
        rw [done] at answered
        cases answered
        exact answerable
  · cases answered
    exact handleRequestFd_answers path req rsp files fun fd files =>
      handleRequestRead_answers modest malloc req rsp files fd
  · cases answered
    exact handleRequestFd_answers path req rsp files fun fd files =>
      handleRequestWrite_answers req rsp files fd
  · cases answered

theorem handleRequest_sendable (modest : os.Modest) {malloc : Nat → Bool} {inPkt rsp : Packet}
    {files files' : σ} {retv : HandlerE}
    (answered : handleRequest conf os malloc inPkt zeroPacket files = .ok (retv, rsp, files'))
    (kept : retv ≠ .hsDel) : retv = .hsSuc ∧ rsp.Sendable := by
  simp only [handleRequest] at answered
  split at answered
  · cases answered
  split at answered
  · cases answered
  · cases answered
    exact absurd rfl kept
  · rename_i status response files'' handled
    cases answered
    refine ⟨rfl, ?_⟩
    by_cases failing : status < 0
    · simp only [if_pos failing]
      exact sendable_error rfl
    · simp only [if_neg failing]
      exact (handleRequestType_answerable modest handled).resolve_left failing

end Executions

/-! ## Connections -/

section Connections
variable {σ : Type} (conf : ClientConf) (os : Os σ)

/-- How far a connection is: a request is read from it, or the response is
written. -/
inductive Conversing (history : List (Delivery σ)) (events : List Event) (info : Sockinfo) : Prop where
  | reading : info.state = .mssReqrd → history = [] → .accepted info.inEnd.fd ∈ events →
      (∀ other, other ≠ info.inEnd.fd → receivedFrom other events = []) →
      receivedFrom info.inEnd.fd events = info.inEnd.buf.bytes → (∀ other, sentTo other events = []) →
      info.outEnd.buf.contents = [] → Conversing history events info
  | answering (delivery : Delivery σ) (rsp : Packet) (files : σ) : info.state = .mssRspwr →
      history = [delivery] → .accepted info.outEnd.fd ∈ events →
      (∀ other, other ≠ info.outEnd.fd → receivedFrom other events = [] ∧ sentTo other events = []) →
      Understood delivery (receivedFrom info.outEnd.fd events) →
      delivery.pkt.mpktType = mpktRequestType →
      handleRequest conf os delivery.calls.malloc delivery.pkt zeroPacket delivery.state =
        .ok (.hsSuc, rsp, files) →
      rsp.Sendable → sentTo info.outEnd.fd events ++ info.outEnd.buf.bytes = rsp.image →
      Conversing history events info

structure Responding (history : List (Delivery σ)) (events : List Event) (info : Sockinfo) : Prop where
  sound : info.Sound
  packet : info.type = .mfdPktIn → Conversing conf os history events info
  unused : info.type ≠ .mfdPktIn → Conversed conf os history events
  listening : info.type = .mfdLstn → history = [] ∧
    ∀ fd, receivedFrom fd events = [] ∧ sentTo fd events = []

variable {conf os} {history : List (Delivery σ)} {events : List Event} {info : Sockinfo}

theorem Packet.Sendable.encodes {rsp : Packet} (sendable : rsp.Sendable) : Encodes rsp rsp.image := by
  have small := sendable.small
  refine serializePkt_encodes sendable.whole ?_
  rw [sendable.image]
  omega

theorem Conversing.conversed (conversing : Conversing conf os history events info) :
    Conversed conf os history events := by
  cases conversing with
  | reading _ none_ accepted others _ sent _ =>
      exact .reading info.inEnd.fd none_ accepted others sent
  | answering delivery rsp files _ one accepted others understood request answered sendable written =>
      refine .served info.outEnd.fd delivery one accepted others understood
        (Or.inr ⟨rsp, files, request, answered, sendable.encodes, ?_⟩)
      rw [← written]
      exact List.prefix_append _ _

/-- Closing descriptors is no part of a conversation. -/
theorem Conversed.closing (conversed : Conversed conf os history events) (fds : List Int) :
    Conversed conf os history (events ++ fds.map .closed) := by
  cases conversed with
  | silent none_ quiet =>
      refine .silent none_ fun fd => ?_
      rw [received_closing, sent_closing]
      exact quiet fd
  | reading fd none_ accepted others silent =>
      refine .reading fd none_ (List.mem_append_left _ accepted) (fun other differs => ?_) fun other => ?_
      · rw [received_closing]
        exact others other differs
      · rw [sent_closing]
        exact silent other
  | served fd delivery one accepted others understood replied =>
      refine .served fd delivery one (List.mem_append_left _ accepted) (fun other differs => ?_) ?_ ?_
      · rw [received_closing, sent_closing]
        exact others other differs
      · rw [received_closing]
        exact understood
      · rw [sent_closing]
        exact replied

structure Responds (conf : ClientConf) (os : Os σ) (history : List (Delivery σ)) (events : List Event)
    (handled : Handled σ) : Prop where
  type : handled.info.type = .mfdPktIn
  kept : handled.status ≠ .hsDel →
    Conversing conf os history (events ++ handled.events) handled.info
  dropped : handled.status = .hsDel → Conversed conf os history (events ++ handled.events)

theorem Responds.after {handled : Handled σ} {first : List Event}
    (responds : Responds conf os history (events ++ first) handled) :
    Responds conf os history events { handled with events := first ++ handled.events } where
  type := responds.type
  kept := fun status => by
    show Conversing conf os history (events ++ (first ++ handled.events)) handled.info
    rw [← List.append_assoc]
    exact responds.kept status
  dropped := fun status => by
    show Conversed conf os history (events ++ (first ++ handled.events))
    rw [← List.append_assoc]
    exact responds.dropped status

section Events
variable {index : Nat} {calls : Calls} {files : σ} {handled : Handled σ}

/-- The bytes that were read, and those of nobody else. -/
theorem received_reading {buf : Buffer} {bytes : List UInt8} {s : Cursor Packet}
    (gathered : Gathered calls info buf bytes s)
    (others : ∀ other, other ≠ info.inEnd.fd → receivedFrom other events = [])
    (received : receivedFrom info.inEnd.fd events = info.inEnd.buf.bytes) :
    receivedFrom info.inEnd.fd (events ++ [.received info.inEnd.fd bytes]) = buf.bytes ∧
      ∀ other, other ≠ info.inEnd.fd →
        receivedFrom other (events ++ [.received info.inEnd.fd bytes]) = [] := by
  refine ⟨received_gathered gathered received, fun other differs => ?_⟩
  rw [receivedFrom_append, others other differs, receivedFrom_received, if_neg differs.symm]
  rfl

theorem clientRdFin_responds (modest : os.Modest) (type : info.type = .mfdPktIn)
    {delivery : Delivery σ} (pkt : Packet) (asked : delivery.pkt = pkt)
    (state : info.state = .mssReqrd) (accepted : .accepted info.inEnd.fd ∈ events)
    (others : ∀ other, other ≠ info.inEnd.fd → receivedFrom other events = [])
    (sent : ∀ other, sentTo other events = []) (empty : info.outEnd.buf.contents = [])
    (understood : Understood delivery (receivedFrom info.inEnd.fd events))
    (done : clientRdFin conf os delivery.calls info pkt delivery.state = .ok handled) :
    Responds conf os [delivery] events handled := by
  subst asked
  have silent : Conversed conf os [delivery] (events ++ []) := by
    rw [List.append_nil]
    exact .served info.inEnd.fd delivery rfl accepted
      (fun other differs => ⟨others other differs, sent other⟩) understood (Or.inl (sent _))
  unfold clientRdFin at done
  rw [if_pos state] at done
  split_ifs at done with request
  · split at done
    · cases done
    rename_i retv rsp files' answered
    split_ifs at done with dropped
    · cases done
      exact ⟨type, fun no => absurd rfl no, fun _ => silent⟩
    obtain ⟨rfl, sendable⟩ := handleRequest_sendable modest answered dropped
    have short : rsp.wire.length < 2 ^ 63 := sendable.small
    rcases @bufferSerialize_emits delivery.calls.realloc _ _ (serializePkt_emits sendable.whole)
      (rsp.wire_length_image ▸ short) info.outEnd.buf with
        ⟨buf, failed, _, _⟩ | ⟨buf, encoded, contents, _⟩
    · rw [failed] at done
      cases done
      exact ⟨type, fun no => absurd rfl no, fun _ => silent⟩
    · rw [encoded] at done
      cases done
      refine ⟨type, fun _ => ?_, fun no => (by cases no)⟩
      rw [List.append_nil]
      refine .answering delivery rsp files' rfl rfl accepted
        (fun other differs => ⟨others other differs, sent other⟩) understood request answered sendable ?_
      show sentTo info.inEnd.fd events ++ buf.bytes = rsp.image
      rw [sent, List.nil_append, Buffer.bytes, contents, empty, List.nil_append, vals_cells]
  · cases done
    exact ⟨type, fun no => absurd rfl no, fun _ => silent⟩

/-- Events at an entry in `MSS_REQRD`. -/
theorem reading_responds (modest : os.Modest) (type : info.type = .mfdPktIn)
    (state : info.state = .mssReqrd) (none_ : history = [])
    (accepted : .accepted info.inEnd.fd ∈ events)
    (others : ∀ other, other ≠ info.inEnd.fd → receivedFrom other events = [])
    (received : receivedFrom info.inEnd.fd events = info.inEnd.buf.bytes)
    (sent : ∀ other, sentTo other events = []) (empty : info.outEnd.buf.contents = [])
    (recounted : Recounted (clientHi conf os) calls info files (handedOver calls info) handled) :
    Responds conf os (history ++ deliveredAt calls index info files) events handled := by
  subst none_
  rw [deliveredAt, if_pos type]
  have reading : info.state.watchesIn = true := by
    rw [state]
    rfl
  generalize handedOver calls info = handed at recounted
  cases recounted with
  | quiet =>
      refine ⟨type, fun _ => ?_, fun no => (by cases no)⟩
      show Conversing conf os [] (events ++ []) info
      rw [List.append_nil]
      exact .reading state rfl accepted others received sent empty
  | nothing buf _ _ =>
      refine ⟨type, fun no => absurd rfl no, fun _ => ?_⟩
      show Conversed conf os [] (events ++ [])
      rw [List.append_nil]
      exact .reading info.inEnd.fd rfl accepted others sent
  | rejected buf bytes s _ gathered _ =>
      obtain ⟨_, others'⟩ := received_reading gathered others received
      refine ⟨type, fun no => absurd rfl no, fun _ =>
        .reading info.inEnd.fd rfl (List.mem_append_left _ accepted) others' fun other => ?_⟩
      rw [sentTo_append, sent]
      rfl
  | unfinished buf bytes s _ gathered _ _ =>
      obtain ⟨received', others'⟩ := received_reading gathered others received
      refine ⟨type, fun _ => ?_, fun no => (by cases no)⟩
      refine .reading state rfl (List.mem_append_left _ accepted) others' received' (fun other => ?_) empty
      rw [sentTo_append, sent]
      rfl
  | complete buf bytes s after _ gathered clean within finished =>
      obtain ⟨received', others'⟩ := received_reading gathered others received
      have understood : Understood (⟨index, calls, info.withIn (bufferShift buf s.used), s.obj, files⟩ :
          Delivery σ) (receivedFrom info.inEnd.fd (events ++ [.received info.inEnd.fd bytes])) := by
        rw [received']
        exact ⟨s, gathered.decoded, clean, by rw [buf.bytes_length]; exact within, rfl⟩
      have silent : ∀ other, sentTo other (events ++ [.received info.inEnd.fd bytes]) = [] := by
        intro other
        rw [sentTo_append, sent]
        rfl
      have stays : .accepted info.inEnd.fd ∈ events ++ [.received info.inEnd.fd bytes] :=
        List.mem_append_left _ accepted
      exact @Responds.after σ conf os _ events after [.received info.inEnd.fd bytes]
        (@clientRdFin_responds σ conf os _ (info.withIn (bufferShift buf s.used)) after modest type
          ⟨index, calls, _, s.obj, files⟩ s.obj rfl state stays others' silent empty understood finished)
  | writes _ watches _ =>
      rw [reading] at watches
      cases watches

/-- Events at an entry in `MSS_RSPWR`. -/
theorem answering_responds (type : info.type = .mfdPktIn) (state : info.state = .mssRspwr)
    {delivery : Delivery σ} {rsp : Packet} {files' : σ} (one : history = [delivery])
    (accepted : .accepted info.outEnd.fd ∈ events)
    (others : ∀ other, other ≠ info.outEnd.fd →
      receivedFrom other events = [] ∧ sentTo other events = [])
    (understood : Understood delivery (receivedFrom info.outEnd.fd events))
    (request : delivery.pkt.mpktType = mpktRequestType)
    (answered : handleRequest conf os delivery.calls.malloc delivery.pkt zeroPacket delivery.state =
      .ok (.hsSuc, rsp, files'))
    (sendable : rsp.Sendable)
    (written : sentTo info.outEnd.fd events ++ info.outEnd.buf.bytes = rsp.image)
    (recounted : Recounted (clientHi conf os) calls info files (handedOver calls info) handled) :
    Responds conf os (history ++ deliveredAt calls index info files) events handled := by
  rw [deliveredAt, if_pos type]
  have writing : info.state.watchesIn = false := by
    rw [state]
    rfl
  have here : Conversing conf os history events info :=
    .answering delivery rsp files' state one accepted others understood request answered sendable written
  generalize handedOver calls info = handed at recounted
  cases recounted with
  | quiet =>
      refine ⟨type, fun _ => ?_, fun no => (by cases no)⟩
      rw [List.append_nil, List.append_nil]
      exact here
  | writes _ _ event =>
      cases event with
      | failed errno _ =>
          refine ⟨type, fun no => absurd rfl no, fun _ => ?_⟩
          rw [List.append_nil, List.append_nil]
          exact here.conversed
      | sent buf n left _ =>
          refine ⟨type, fun _ => ?_, fun no => (by cases no)⟩
          rw [List.append_nil]
          have progress := @write_progress events info n buf left
          refine .answering delivery rsp files' state one (List.mem_append_left _ accepted)
            (fun other differs => ?_) ?_ request answered sendable (progress.trans written)
          · have differs' : other ≠ info.outEnd.fd := differs
            rw [receivedFrom_append, sentTo_append, (others other differs').1, (others other differs').2,
              sentTo_sent, if_neg differs'.symm]
            exact ⟨rfl, rfl⟩
          · show Understood delivery (receivedFrom info.outEnd.fd (events ++ [.sent info.outEnd.fd _]))
            rw [receivedFrom_append]
            exact (List.append_nil (receivedFrom info.outEnd.fd events)).symm ▸ understood
      | drained buf _ nothing _ _ finished =>
          have same : clientWrFin (info.withOut buf) files = .ok handled := finished
          unfold clientWrFin at same
          split_ifs at same
          cases same
          refine ⟨type, fun no => absurd rfl no, fun _ => ?_⟩
          rw [List.append_nil, List.append_nil]
          exact here.conversed
  | nothing _ watches _ =>
      rw [writing] at watches
      cases watches
  | rejected _ _ _ watches _ _ =>
      rw [writing] at watches
      cases watches
  | unfinished _ _ _ watches _ _ _ =>
      rw [writing] at watches
      cases watches
  | complete _ _ _ _ watches _ _ _ _ =>
      rw [writing] at watches
      cases watches

theorem Conversing.event (modest : os.Modest) (conversing : Conversing conf os history events info)
    (type : info.type = .mfdPktIn)
    (done : handlePktEvent (clientHi conf os) calls info files = .ok handled) :
    Responds conf os (history ++ deliveredAt calls index info files) events handled := by
  have recounted := handlePktEvent_recounted done
  cases conversing with
  | reading state none_ accepted others received sent empty =>
      exact reading_responds modest type state none_ accepted others received sent empty recounted
  | answering delivery rsp files' state one accepted others understood request answered sendable
      written =>
      exact answering_responds type state one accepted others understood request answered sendable
        written recounted

end Events

theorem Conversing.slots {info' : Sockinfo} (conversing : Conversing conf os history events info)
    (same : SameButSlots info info') (revents : Revents) :
    Conversing conf os history events { info' with revents := revents } := by
  cases conversing with
  | reading state none_ accepted others received sent empty =>
      refine .reading (same.state.trans state) none_ ?_ ?_ ?_ sent ?_
      all_goals simp only [same.inFd, same.inBuf, same.outBuf]
      · exact accepted
      · exact others
      · exact received
      · exact empty
  | answering delivery rsp files state one accepted others understood request answered sendable written =>
      refine .answering delivery rsp files (same.state.trans state) one ?_ ?_ ?_ request answered sendable ?_
      all_goals simp only [same.outFd, same.outBuf]
      · exact accepted
      · exact others
      · exact understood
      · exact written

theorem Responding.slots {info' : Sockinfo} (responding : Responding conf os history events info)
    (same : SameButSlots info info') (revents : Revents) :
    Responding conf os history events { info' with revents := revents } where
  sound := by
    have sound := same.sound responding.sound
    exact ⟨sound.fitting, sound.unreleased⟩
  packet := fun type => (responding.packet (same.type.symm.trans type)).slots same revents
  unused := fun type => responding.unused fun packet => type (same.type.trans packet)
  listening := fun type => responding.listening (same.type.symm.trans type)

theorem Responding.conversed (responding : Responding conf os history events info) :
    Conversed conf os history events := by
  by_cases type : info.type = .mfdPktIn
  · exact (responding.packet type).conversed
  · exact responding.unused type

theorem Responding.deleted (conversed : Conversed conf os history events) (deletable : info.Deletable)
    (fds : List Int) : Responding conf os history (events ++ fds.map .closed) info.deleted where
  sound := sound_deleted deletable (sockinfoDelete_eq deletable.inUnreleased deletable.outUnreleased)
  packet := fun no => by cases no
  unused := fun _ => conversed.closing fds
  listening := fun no => by cases no

end Connections

/-! ## Runs -/

section Runs
variable {σ : Type}

def anything (κ : Type) : Expected κ where
  polls := fun _ => True
  accepts := fun _ _ => True
  handles := fun _ _ _ _ _ => True

theorem anything_meets {κ : Type} (moment : Moment) (running : Running κ) :
    (anything κ).Meets moment running := by
  unfold Expected.Meets
  split
  · trivial
  · exact fun _ _ => ⟨fun _ => trivial, fun _ => trivial⟩

def Untouched (events : List Event) : Prop :=
  ∀ fd, receivedFrom fd events = [] ∧ sentTo fd events = []

theorem Untouched.refused {events : List Event} (untouched : Untouched events) (fd : Nat) :
    Untouched (events ++ [.accepted (fd : Int), .closed fd]) := by
  intro other
  rw [receivedFrom_append, sentTo_append, (untouched other).1, (untouched other).2]
  exact ⟨rfl, rfl⟩

theorem historic_responding (conf : ClientConf) {os : Os σ} (modest : os.Modest) :
    Historic (clientHi conf os) (anything σ) (fun _ => True) (fun _ => Responding conf os)
      Untouched where
  sound := fun _ _ _ _ responding => responding.sound
  accepted := fun _ events fd untouched => by
    have quiet : ∀ other, receivedFrom other (events ++ [.accepted (fd : Int)]) = [] ∧
        sentTo other (events ++ [.accepted (fd : Int)]) = [] := by
      intro other
      rw [receivedFrom_append, sentTo_append, (untouched other).1, (untouched other).2]
      exact ⟨rfl, rfl⟩
    refine ⟨sound_accepted fd, fun _ => ?_, fun no => absurd rfl no, fun no => by cases no⟩
    exact .reading rfl rfl (List.mem_append_right _ List.mem_cons_self)
      (fun other _ => (quiet other).1) (quiet _).1 (fun other => (quiet other).2) rfl
  refused := fun events _ _ fd _ _ untouched => untouched.refused fd
  slots := fun _ _ _ _ info' responding same => by
    have kept := responding.slots same info'.revents
    exact kept
  polled := fun _ history events info ready checked responding _ polledTo => by
    cases polledTo with
    | kept info' revents same _ =>
        have kept := responding.slots same revents
        show Responding conf os history (events ++ []) _
        rw [List.append_nil]
        exact kept
    | deleted info' same inUse _ =>
        have deletable := (same.sound responding.sound).deletable fun no => inUse (same.type.symm.trans no)
        exact Responding.deleted responding.conversed deletable info.held
  listening := fun _ _ _ info responding type => by
    have deletable := responding.sound.deletable (by rw [type]; intro no; cases no)
    exact Responding.deleted responding.conversed deletable info.held
  event := fun index history events calls info files handled responding _ type _ done => by
    have responds := @Conversing.event _ conf os _ _ info index _ _ handled modest
      (responding.packet type) type done
    obtain ⟨sound, deletable⟩ :=
      (handlePktEvent_stepped (clientHi_turns conf os) done).sound type responding.sound
    refine ⟨trivial, fun status => ?_, fun status => ?_⟩
    · refine ⟨sound status, fun _ => responds.kept status, fun no => absurd responds.type no,
        fun no => ?_⟩
      rw [responds.type] at no
      cases no
    · exact Responding.deleted (responds.dropped status) (deletable status) handled.info.held

theorem Conversed.once {conf : ClientConf} {os : Os σ} {history : List (Delivery σ)} {events : List Event}
    (conversed : Conversed conf os history events) : history.length ≤ 1 := by
  cases conversed with
  | silent none_ _ => rw [none_]; exact Nat.zero_le 1
  | reading _ none_ _ _ _ => rw [none_]; exact Nat.zero_le 1
  | served _ _ one _ _ _ _ => rw [one]; exact Nat.le_refl 1

theorem nodup_of_once {κ : Type} {history : List (Delivery κ)}
    (once : ∀ index, (deliveredTo index history).length ≤ 1) :
    (history.map Delivery.index).Nodup := by
  refine List.nodup_iff_count_le_one.mpr fun index => ?_
  have same : List.count index (history.map Delivery.index) = (deliveredTo index history).length := by
    rw [List.count_eq_countP, List.countP_map, List.countP_eq_length_filter]
    rfl
  rw [same]
  exact once index

/-- In every run of the responder, its files are those that the requests of the
history, executed one after the other, make of the files at the start; there is
one request at most for every connection, which is what the bytes read from it
say, and what was written to it is from the front of the response that
`handle_request` gave to it in its turn. -/
theorem responder_serializes (conf : ClientConf) {os : Os σ} (modest : os.Modest)
    {realloc : Nat → Bool} {servsock : Nat} {files : σ} {server : Server σ} {running : Running σ}
    {history : List (Delivery σ)}
    (started : serverStart realloc servsock files = .ok (some server))
    (run : Reached (recording (advance (clientHi conf os)) deliveries) (fun _ _ => True)
      (⟨server, 0, 0⟩, []) (running, history)) :
    Executed conf os files history running.server.state ∧
      (history.map Delivery.index).Nodup ∧
      ∀ index info, running.server.socks.sockinfos[index]? = some info →
        Conversed conf os (deliveredTo index history) (eventsAt index running.server.log) := by
  have listens : Responding conf os [] [.created servsock] (.listens servsock) :=
    ⟨sound_listens servsock, fun no => (by cases no), fun _ => .silent rfl fun _ => ⟨rfl, rfl⟩,
      fun _ => ⟨rfl, fun _ => ⟨rfl, rfl⟩⟩⟩
  have histories := (historic_responding conf modest).runs (clientHi_turns conf os)
    (run.mono fun moment recorded _ => anything_meets moment recorded.1)
    (histories_started started trivial listens fun _ => ⟨rfl, rfl⟩)
  have chained := chained_runs (clientHi_turns conf os) (Program.client conf os).settled run
    fun info member => (serverStart_entries started info member).1
  rw [(serverStart_starts started).state] at chained
  refine ⟨executed_of_chained conf os chained, nodup_of_once fun index => ?_,
    fun index info found => (histories.entries index info found).conversed⟩
  by_cases inside : index < running.server.socks.count
  · exact (histories.entries index _ (List.getElem?_eq_getElem inside)).conversed.once
  · rw [(histories.beyond index (Nat.le_of_not_lt inside)).2]
    exact Nat.zero_le 1

end Runs

/-- What is ready at the connection beside the listening socket is reported, and
it is handled. -/
def attending (revents : Revents) (calls : Calls) : List Moment :=
  [⟨true, some fun slot => if slot = 1 then revents else Revents.none, quietCalls⟩,
    ⟨true, none, quietCalls⟩, ⟨true, none, calls⟩]

/-- A connection over which a request is read, in the chunks that the buffer has
room for, and the first bytes of the response are written. -/
def oneExchange : List Moment :=
  [firstPoll, firstAccept] ++
    [0, 1, 2, 4, 8, 16, 32].flatMap (fun offset => attending { pollin := true }
      { quietCalls with
        malloc := memory, realloc := memory, read := .bytes (smallRead.wire.drop offset) }) ++
    attending { pollout := true } { quietCalls with write := .count 10 }

theorem failingOs_modest {φ : Type} : (failingOs : Os φ).Modest where
  pread := fun _ _ _ _ _ no => by cases no
  opendir := fun _ _ _ no => by cases no

/-- The responder of user `b`, whose files cannot be opened, refuses to read. -/
structure OneExchange (server : Server Nat) (running : Running Nat) (history : List (Delivery Nat)) :
    Prop where
  started : serverStart (fun _ => true) 3 0 = .ok (some server)
  runs : steps (recording (advance (clientHi ⟨userB, userB⟩ failingOs)) deliveries) oneExchange
    (⟨server, 0, 0⟩, []) = .ok (running, history)
  handed : history.map Delivery.index = [1]
  sent : sentTo 4 (eventsAt 1 running.server.log) = (errorResponse 13).image.take 10

theorem responder_serializes_refusal : ∃ server running history, OneExchange server running history ∧
    Executed ⟨userB, userB⟩ failingOs 0 history running.server.state ∧
    (history.map Delivery.index).Nodup ∧
    ∀ index info, running.server.socks.sockinfos[index]? = some info →
      Conversed ⟨userB, userB⟩ failingOs (deliveredTo index history)
        (eventsAt index running.server.log) := by
  have exchange : ∃ server running history, OneExchange server running history :=
    ⟨_, _, _, rfl, rfl, rfl, rfl⟩
  obtain ⟨server, running, history, exchange⟩ := exchange
  exact ⟨server, running, history, exchange,
    responder_serializes ⟨userB, userB⟩ failingOs_modest exchange.started (.of_steps exchange.runs)⟩

end Middfs
