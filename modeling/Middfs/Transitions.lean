import Middfs.Buffers
import Middfs.Client.Handler
import Middfs.Polling
import Middfs.Server.Handler

/-!
# What the handlers make of an entry

Whatever a packet holds, and whichever program handles it, there are a few ways
only in which the state and the descriptors of an entry change.  What is in the
buffers of the entry is another matter.
-/

set_option autoImplicit false

namespace Middfs

/-! ## Entries after a packet -/

/-- An entry that goes on to write a response to where the request came from. -/
def Sockinfo.answering (info : Sockinfo) : Sockinfo :=
  { info with
    state := .mssRspwr
    outEnd := { info.outEnd with fd := info.inEnd.fd }
    inEnd := { info.inEnd with fd := -1 } }

/-- An entry that goes on to write the request to a peer. -/
def Sockinfo.forwarding (info : Sockinfo) (fd : Int) : Sockinfo :=
  { info with state := .mssReqfwd, outEnd := { info.outEnd with fd := fd } }

/-- An entry that goes on to read from the peer. -/
def Sockinfo.crossed (info : Sockinfo) : Sockinfo :=
  { info with
    state := .mssRspfwd
    outEnd := { info.outEnd with fd := info.inEnd.fd }
    inEnd := { info.inEnd with fd := info.outEnd.fd } }

def Sockinfo.withOut (info : Sockinfo) (buf : Buffer) : Sockinfo :=
  { info with outEnd := { info.outEnd with buf := buf } }

def Sockinfo.withIn (info : Sockinfo) (buf : Buffer) : Sockinfo :=
  { info with inEnd := { info.inEnd with buf := buf } }

/-- The status, the events and the entry that a handler leaves behind, the buffer
for output apart. -/
inductive Turned (info : Sockinfo) : HandlerE → List Event → Sockinfo → Prop where
  | dropped : Turned info .hsDel [] info
  | answered (status : HandlerE) : info.state.watchesIn = true → Turned info status [] info.answering
  | forwarded (status : HandlerE) (fd : Nat) : info.state.watchesIn = true →
      Turned info status [.created fd] (info.forwarding fd)
  | unconnected (events : List Event) : info.state.watchesIn = true →
      (events = [] ∨ ∃ fd : Nat, events = [.created fd]) →
      Turned info .hsDel events { info with state := .mssReqfwd }
  | relayed (status : HandlerE) : info.state = .mssRspfwd →
      Turned info status [] { info with state := .mssRspwr }
  | crossed : info.state = .mssReqfwd → Turned info .hsSuc [] info.crossed
  | finished : info.state = .mssRspwr → Turned info .hsDel [] { info with state := .mssClosed }

def TurnedInto {κ : Type} (info : Sockinfo) (handled : Handled κ) : Prop :=
  ∃ turned buf, Turned info handled.status handled.events turned ∧
    handled.info = turned.withOut buf ∧ buf.freed = info.outEnd.buf.freed

/-! ## Requests at the server -/

/-- The name that the server looks up for a request, unless it is one for the
root. -/
def lookedUp (req : Request) : Option CStr :=
  if rootRequested req then none else req.mreqRsrc.mrOwner

section Server
variable (lib : Sorting.Library Client) (calls : Calls) (info : Sockinfo) (inPkt : Packet)
variable (clients : Clients)

/-- A request that is not for the root goes to the client that is found. -/
theorem handleReqRdFin_lookedUp {owner : CStr} (name : lookedUp inPkt.mpktRequest = some owner) :
    handleReqRdFin lib calls info inPkt clients =
      match clientFind lib owner clients, inetConnect calls with
      | none, _ => queuePacket calls info.answering (packetError zeroPacket enoent) clients []
      | some _, (none, events) => .ok ⟨.hsDel, { info with state := .mssReqfwd }, clients, events⟩
      | some _, (some fd, events) =>
          queuePacket calls
            { info with state := .mssReqfwd, outEnd := { info.outEnd with fd := fd } } inPkt clients
            events := by
  unfold lookedUp at name
  split_ifs at name with root
  unfold handleReqRdFin handleReqRdFinPeer
  simp only [root, Bool.false_eq_true, if_false, name]
  cases clientFind lib owner clients with
  | none => rfl
  | some client =>
      obtain ⟨_ | fd, events⟩ := inetConnect calls
      · rfl
      · rfl

def rootResponse (req : Request) : Packet :=
  { packetInit zeroPacket mpktResponseType with
    mpktResponse :=
      (handleReqRdFinRoot calls info req (packetInit zeroPacket mpktResponseType).mpktResponse
        clients).2 }

theorem handleReqRdFin_root (root : rootRequested inPkt.mpktRequest = true) :
    handleReqRdFin lib calls info inPkt clients =
      queuePacket calls info.answering (rootResponse calls info clients inPkt.mpktRequest) clients
        [] := by
  unfold handleReqRdFin
  simp only [root, if_true]
  rfl

theorem handleReqRdFin_unnamed (notRoot : rootRequested inPkt.mpktRequest = false)
    (unnamed : inPkt.mpktRequest.mreqRsrc.mrOwner = none) :
    handleReqRdFin lib calls info inPkt clients = .error .wild := by
  unfold handleReqRdFin handleReqRdFinPeer
  simp only [notRoot, Bool.false_eq_true, if_false, unnamed]

theorem lookedUp_of_owner {req : Request} {owner : CStr} (notRoot : rootRequested req = false)
    (held : req.mreqRsrc.mrOwner = some owner) : lookedUp req = some owner := by
  rw [lookedUp, notRoot]
  exact held

end Server

/-! ## Buffers that are not released -/

theorem bufferResize_freed {realloc : Nat → Bool} {buf buf' : Buffer} {newsize : Nat}
    (resized : bufferResize realloc buf newsize = some buf') : buf'.freed = buf.freed := by
  unfold bufferResize at resized
  split at resized
  · cases resized
    rfl
  · cases resized

theorem bufferAdvance_freed {buf buf' : Buffer} {n : Nat}
    (advanced : bufferAdvance buf n = .ok buf') : buf'.freed = buf.freed := by
  unfold bufferAdvance at advanced
  split at advanced
  · cases advanced
    rfl
  · cases advanced

theorem bufferSerializeLoop_freed {realloc : Nat → Bool} {f : Serialize} {fuel rem : Nat}
    {buf buf' : Buffer} {result : Option Nat}
    (done : bufferSerializeLoop realloc f fuel buf rem = .ok (buf', result)) :
    buf'.freed = buf.freed := by
  induction fuel generalizing buf rem with
  | zero =>
      cases done
      rfl
  | succ fuel ih =>
      unfold bufferSerializeLoop at done
      cases emitted : f rem with
      | error trap =>
          rw [emitted] at done
          cases done
      | ok s =>
          simp only [emitted] at done
          cases stored : storeAll (Cell.vals (buf.mem.drop buf.ptr)) s.writes with
          | none =>
              rw [stored] at done
              cases done
          | some bytes =>
              have put : (buf.put (cells bytes)).freed = buf.freed := rfl
              simp only [stored] at done
              split_ifs at done with more
              · cases resized : bufferResize realloc (buf.put (cells bytes))
                    (sizeAdd (buf.put (cells bytes)).used s.used) with
                | none =>
                    rw [resized] at done
                    cases done
                    exact put
                | some grown =>
                    simp only [resized] at done
                    rw [ih done, bufferResize_freed resized, put]
              · cases done
                exact put

theorem bufferSerialize_freed {realloc : Nat → Bool} {f : Serialize} {buf buf' : Buffer}
    {result : Option Nat} (done : bufferSerialize realloc f buf = .ok (buf', result)) :
    buf'.freed = buf.freed := by
  unfold bufferSerialize at done
  split at done
  · cases done
  · rename_i looped
    cases done
    exact bufferSerializeLoop_freed looped
  · rename_i looped
    split at done
    · cases done
    · rename_i advanced
      cases done
      rw [bufferAdvance_freed advanced, bufferSerializeLoop_freed looped]

/-! ## The handlers -/

theorem queuePacket_cases {calls : Calls} {info : Sockinfo} {pkt : Packet} {clients : Clients}
    {events : List Event} {handled : Handled Clients}
    (queued : queuePacket calls info pkt clients events = .ok handled) :
    ∃ status buf, handled = ⟨status, info.withOut buf, clients, events⟩ ∧
      buf.freed = info.outEnd.buf.freed := by
  unfold queuePacket at queued
  split at queued
  · cases queued
  · rename_i serialized
    cases queued
    exact ⟨_, _, rfl, bufferSerialize_freed serialized⟩
  · rename_i serialized
    cases queued
    exact ⟨_, _, rfl, bufferSerialize_freed serialized⟩

theorem turnedInto_queue {calls : Calls} {info turned : Sockinfo} {pkt : Packet} {clients : Clients}
    {events : List Event} {handled : Handled Clients}
    (turns : ∀ status, Turned info status events turned)
    (same : turned.outEnd.buf = info.outEnd.buf)
    (queued : queuePacket calls turned pkt clients events = .ok handled) :
    TurnedInto info handled := by
  obtain ⟨status, buf, rfl, freed⟩ := queuePacket_cases queued
  exact ⟨turned, buf, turns status, rfl, freed.trans (congrArg Buffer.freed same)⟩

theorem turnedInto_same {κ : Type} {info turned : Sockinfo} {status : HandlerE} {state : κ}
    {events : List Event} (turns : Turned info status events turned)
    (same : turned.outEnd.buf = info.outEnd.buf) :
    TurnedInto info (⟨status, turned, state, events⟩ : Handled κ) :=
  ⟨turned, turned.outEnd.buf, turns, rfl, congrArg Buffer.freed same⟩

theorem inetConnect_cases (calls : Calls) :
    (∃ fd : Nat, inetConnect calls = (some (fd : Int), [.created fd])) ∨
      ∃ events, inetConnect calls = (none, events) ∧
        (events = [] ∨ ∃ fd : Nat, events = [.created fd]) := by
  unfold inetConnect
  cases calls.socket with
  | none => exact Or.inr ⟨[], rfl, Or.inl rfl⟩
  | some fd =>
      cases calls.connect with
      | false => exact Or.inr ⟨_, rfl, Or.inr ⟨fd, rfl⟩⟩
      | true => exact Or.inl ⟨fd, rfl⟩

section ServerHandlers
variable (lib : Sorting.Library Client) (calls : Calls) (info : Sockinfo) (inPkt : Packet)
variable (clients : Clients)

inductive RequestServed : Except Trap (Handled Clients) → Prop where
  | unnamed : RequestServed (.error .wild)
  | root (result : Except Trap (Handled Clients)) : rootRequested inPkt.mpktRequest = true →
      queuePacket calls info.answering (rootResponse calls info clients inPkt.mpktRequest) clients [] =
        result →
      RequestServed result
  | unregistered (owner : CStr) (result : Except Trap (Handled Clients)) :
      lookedUp inPkt.mpktRequest = some owner → clientFind lib owner clients = none →
      queuePacket calls info.answering (packetError zeroPacket enoent) clients [] = result →
      RequestServed result
  | unconnected (owner : CStr) (client : Client) (events : List Event) :
      lookedUp inPkt.mpktRequest = some owner → clientFind lib owner clients = some client →
      inetConnect calls = (none, events) → (events = [] ∨ ∃ fd : Nat, events = [.created fd]) →
      RequestServed (.ok ⟨.hsDel, { info with state := .mssReqfwd }, clients, events⟩)
  | forwarded (owner : CStr) (client : Client) (fd : Nat) (result : Except Trap (Handled Clients)) :
      lookedUp inPkt.mpktRequest = some owner → clientFind lib owner clients = some client →
      inetConnect calls = (some (fd : Int), [.created fd]) →
      queuePacket calls (info.forwarding fd) inPkt clients [.created fd] = result →
      RequestServed result

inductive PacketServed : Except Trap (Handled Clients) → Prop where
  | connect (result : Except Trap (Handled Clients)) : inPkt.mpktType = mpktConnectType →
      handleConnectFin lib calls info inPkt clients = result → PacketServed result
  | disconnect : inPkt.mpktType = mpktDisconnect → PacketServed (.error .abort)
  | request (result : Except Trap (Handled Clients)) : inPkt.mpktType = mpktRequestType →
      RequestServed lib calls info inPkt clients result → PacketServed result
  | unawaited : inPkt.mpktType = mpktResponseType → info.state ≠ .mssRspfwd →
      PacketServed (.error .assertFail)
  | response (result : Except Trap (Handled Clients)) : info.state = .mssRspfwd →
      queuePacket calls { info with state := .mssRspwr } inPkt clients [] = result →
      PacketServed result
  | unknown : PacketServed (.ok ⟨.hsDel, info, clients, []⟩)

inductive WriteServed : Except Trap (Handled Clients) → Prop where
  | request : info.state = .mssReqfwd → WriteServed (.ok ⟨.hsSuc, info.crossed, clients, []⟩)
  | response : info.state = .mssRspwr →
      WriteServed (.ok ⟨.hsDel, { info with state := .mssClosed }, clients, []⟩)
  | unexpected : WriteServed (.ok ⟨.hsDel, info, clients, []⟩)

variable {calls info inPkt clients} {result : Except Trap (Handled Clients)}

theorem handleReqRdFin_cases (done : handleReqRdFin lib calls info inPkt clients = result) :
    RequestServed lib calls info inPkt clients result := by
  cases root : rootRequested inPkt.mpktRequest with
  | true =>
      rw [handleReqRdFin_root lib calls info inPkt clients root] at done
      exact .root result root done
  | false =>
      cases held : inPkt.mpktRequest.mreqRsrc.mrOwner with
      | none =>
          rw [handleReqRdFin_unnamed lib calls info inPkt clients root held] at done
          cases done
          exact .unnamed
      | some owner =>
          have named := lookedUp_of_owner root held
          rw [handleReqRdFin_lookedUp lib calls info inPkt clients named] at done
          cases found : clientFind lib owner clients with
          | none =>
              simp only [found] at done
              exact .unregistered owner result named found done
          | some client =>
              rcases inetConnect_cases calls with ⟨fd, connected⟩ | ⟨events, failed, created⟩
              · simp only [found, connected] at done
                exact .forwarded owner client fd result named found connected done
              · simp only [found, failed] at done
                cases done
                exact .unconnected owner client events named found failed created

/-- A `CONNECT` leaves the entry as it is, to be deleted. -/
theorem handleConnectFin_cases {handled : Handled Clients}
    (done : handleConnectFin lib calls info inPkt clients = .ok handled) :
    ∃ clients', handled = ⟨.hsDel, info, clients', []⟩ := by
  unfold handleConnectFin at done
  split at done
  · cases done
  · cases done
    exact ⟨_, rfl⟩
  · cases done
    exact ⟨_, rfl⟩

theorem handleConnectFin_error {trap : Trap}
    (failed : handleConnectFin lib calls info inPkt clients = .error trap) : trap = .wild := by
  unfold handleConnectFin at failed
  split at failed
  · rename_i unhandled
    cases failed
    unfold handleConnect at unhandled
    split at unhandled
    · rename_i uncreated
      cases unhandled
      unfold clientCreate at uncreated
      split at uncreated
      · cases uncreated
      split at uncreated
      · cases uncreated
        rfl
      · split_ifs at uncreated
    · cases unhandled
    · cases unhandled
  · cases failed
  · cases failed

theorem serverRdFin_cases (done : serverRdFin lib calls info inPkt clients = result) :
    PacketServed lib calls info inPkt clients result := by
  unfold serverRdFin at done
  split_ifs at done with connect disconnect request response
  · exact .connect result connect done
  · cases done
    exact .disconnect disconnect
  · exact .request result request (handleReqRdFin_cases lib done)
  · unfold handleRspRdFin at done
    split_ifs at done with awaited
    · exact .response result awaited done
    · cases done
      exact .unawaited response awaited
  · cases done
    exact .unknown

theorem serverWrFin_cases (done : serverWrFin info clients = result) :
    WriteServed info clients result := by
  unfold serverWrFin at done
  split at done
  · rename_i state
    rw [handleReqWrFin, if_pos state] at done
    cases done
    exact .request state
  · rename_i state
    rw [handleRspWrFin, if_pos state] at done
    cases done
    exact .response state
  · cases done
    exact .unexpected

variable {handled : Handled Clients}

theorem RequestServed.turns (reading : info.state.watchesIn = true)
    (served : RequestServed lib calls info inPkt clients (.ok handled)) : TurnedInto info handled := by
  cases served with
  | root _ _ queued => exact turnedInto_queue (fun status => .answered status reading) rfl queued
  | unregistered _ _ _ _ queued =>
      exact turnedInto_queue (fun status => .answered status reading) rfl queued
  | unconnected _ _ events _ _ _ created =>
      exact turnedInto_same (.unconnected events reading created) rfl
  | forwarded _ _ fd _ _ _ _ queued =>
      exact turnedInto_queue (fun status => .forwarded status fd reading) rfl queued

theorem serverRdFin_turns (reading : info.state.watchesIn = true)
    (done : serverRdFin lib calls info inPkt clients = .ok handled) : TurnedInto info handled := by
  cases serverRdFin_cases lib done with
  | connect _ _ connected =>
      obtain ⟨clients', rfl⟩ := handleConnectFin_cases lib connected
      exact turnedInto_same .dropped rfl
  | request _ _ served => exact served.turns lib reading
  | response _ awaited queued =>
      exact @turnedInto_queue calls info { info with state := .mssRspwr } _ _ _ _
        (fun status => .relayed status awaited) rfl queued
  | unknown => exact turnedInto_same .dropped rfl

theorem serverWrFin_turns (done : serverWrFin info clients = .ok handled) :
    TurnedInto info handled := by
  cases serverWrFin_cases done with
  | request state => exact turnedInto_same (.crossed state) rfl
  | response state => exact turnedInto_same (.finished state) rfl
  | unexpected => exact turnedInto_same .dropped rfl

end ServerHandlers

section ClientHandlers
variable {σ : Type} (conf : ClientConf) (os : Os σ) {calls : Calls} {info : Sockinfo} {inPkt : Packet}
variable {files : σ} {handled : Handled σ}

theorem clientRdFin_turns (done : clientRdFin conf os calls info inPkt files = .ok handled) :
    TurnedInto info handled := by
  unfold clientRdFin at done
  split_ifs at done with state
  · cases handles : handleRequest conf os calls.malloc inPkt zeroPacket files with
    | error trap =>
        rw [handles] at done
        cases done
    | ok answer =>
        obtain ⟨retv, outPkt, files'⟩ := answer
        simp only [handles] at done
        split_ifs at done
        · cases done
          exact turnedInto_same .dropped rfl
        split at done
        · cases done
        · rename_i serialized
          cases done
          exact ⟨info, _, .dropped, rfl, bufferSerialize_freed serialized⟩
        · rename_i serialized
          cases done
          refine ⟨info.answering, _, .answered .hsSuc ?_, rfl, bufferSerialize_freed serialized⟩
          rw [state]
          rfl
  · cases done
    exact turnedInto_same .dropped rfl

theorem clientWrFin_turns (done : clientWrFin info files = .ok handled) : TurnedInto info handled := by
  unfold clientWrFin at done
  split_ifs at done
  cases done
  exact turnedInto_same .dropped rfl

end ClientHandlers

/-- What both programs' handlers have in common. -/
structure HandlerInfo.Turns {κ : Type} (hi : HandlerInfo κ) : Prop where
  rdFin : ∀ calls (info : Sockinfo) pkt state handled, info.state.watchesIn = true →
    hi.rdFin calls info pkt state = .ok handled → TurnedInto info handled
  wrFin : ∀ calls info state handled, hi.wrFin calls info state = .ok handled →
    TurnedInto info handled

theorem serverHi_turns (lib : Sorting.Library Client) : (serverHi lib).Turns where
  rdFin := fun _ _ _ _ _ reading done => serverRdFin_turns lib reading done
  wrFin := fun _ _ _ _ done => serverWrFin_turns done

theorem clientHi_turns {σ : Type} (conf : ClientConf) (os : Os σ) : (clientHi conf os).Turns where
  rdFin := fun _ _ _ _ _ _ done => clientRdFin_turns conf os done
  wrFin := fun _ _ _ _ done => clientWrFin_turns done

/-- The two programs that run `server_loop`, with the state of their handlers. -/
inductive Program : Type → Type 1 where
  | server (lib : Sorting.Library Client) : Program Clients
  | client {σ : Type} (conf : ClientConf) (os : Os σ) : Program σ

def Program.hi : {κ : Type} → Program κ → HandlerInfo κ
  | _, .server lib => serverHi lib
  | _, .client conf os => clientHi conf os

theorem Program.turns {κ : Type} (program : Program κ) : program.hi.Turns := by
  cases program with
  | server lib => exact serverHi_turns lib
  | client conf os => exact clientHi_turns conf os

/-! ## Reading and writing -/

/-- Bytes were read behind those in the buffer for input, and what there is now
was decoded. -/
structure Gathered (calls : Calls) (info : Sockinfo) (buf : Buffer) (bytes : List UInt8)
    (s : Cursor Packet) : Prop where
  some : bytes ≠ []
  read : ∃ stream n, calls.read = .bytes stream ∧ bytes = stream.take n
  contents : buf.contents = info.inEnd.buf.contents ++ readFrom info.inEnd.fd bytes
  freed : buf.freed = info.inEnd.buf.freed
  decoded : deserializePkt calls.malloc buf.bytes zeroPacket 0 = .ok s

inductive Receipt (calls : Calls) (info : Sockinfo) :
    Sockinfo × List Event × (HandlerE ⊕ Packet) → Prop where
  | nothing (buf : Buffer) : Kept info.inEnd.buf buf →
      Receipt calls info (info.withIn buf, [], .inl .hsDel)
  | rejected (buf : Buffer) (bytes : List UInt8) (s : Cursor Packet) :
      Gathered calls info buf bytes s → s.err ≠ 0 →
      Receipt calls info (info.withIn buf, [.received info.inEnd.fd bytes], .inl .hsDel)
  | unfinished (buf : Buffer) (bytes : List UInt8) (s : Cursor Packet) :
      Gathered calls info buf bytes s → s.err = 0 → buf.used < s.used →
      Receipt calls info (info.withIn buf, [.received info.inEnd.fd bytes], .inl .hsSuc)
  | complete (buf : Buffer) (bytes : List UInt8) (s : Cursor Packet) :
      Gathered calls info buf bytes s → s.err = 0 → s.used ≤ buf.used →
      Receipt calls info
        (info.withIn (bufferShift buf s.used), [.received info.inEnd.fd bytes], .inr s.obj)

theorem receivePacket_cases {calls : Calls} {info : Sockinfo}
    {result : Sockinfo × List Event × (HandlerE ⊕ Packet)}
    (received : receivePacket calls info = .ok result) : Receipt calls info result := by
  unfold receivePacket at received
  split_ifs at received
  rcases @bufferRead_cases calls.realloc info.inEnd.fd calls.read info.inEnd.buf with
    ⟨buf, read, kept⟩ | ⟨buf, stream, n, stream_, _, read, contents, freed⟩
  · rw [read] at received
    cases received
    exact .nothing buf kept
  simp only [read] at received
  split_ifs at received with none_
  · cases received
    rw [none_] at contents
    exact .nothing buf ⟨contents.trans (List.append_nil _), freed⟩
  cases decoded : deserializePkt calls.malloc buf.bytes zeroPacket 0 with
  | error trap =>
      rw [decoded] at received
      cases received
  | ok s =>
      have gathered : Gathered calls info buf (stream.take n) s :=
        ⟨none_, ⟨stream, n, stream_, rfl⟩, contents, freed, decoded⟩
      simp only [decoded] at received
      split_ifs at received with failing short
      · cases received
        exact .rejected buf _ s gathered failing
      · cases received
        exact .unfinished buf _ s gathered (not_not.mp failing) short
      · cases received
        exact .complete buf _ s gathered (not_not.mp failing) (Nat.le_of_not_lt short)

section EntryEvents
variable {κ : Type} (hi : HandlerInfo κ) (calls : Calls) (info : Sockinfo) (state : κ)

inductive ReadEvent : Handled κ → Prop where
  | nothing (buf : Buffer) : Kept info.inEnd.buf buf →
      ReadEvent ⟨.hsDel, info.withIn buf, state, []⟩
  | rejected (buf : Buffer) (bytes : List UInt8) (s : Cursor Packet) :
      Gathered calls info buf bytes s → s.err ≠ 0 →
      ReadEvent ⟨.hsDel, info.withIn buf, state, [.received info.inEnd.fd bytes]⟩
  | unfinished (buf : Buffer) (bytes : List UInt8) (s : Cursor Packet) :
      Gathered calls info buf bytes s → s.err = 0 → buf.used < s.used →
      ReadEvent ⟨.hsSuc, info.withIn buf, state, [.received info.inEnd.fd bytes]⟩
  | complete (buf : Buffer) (bytes : List UInt8) (s : Cursor Packet) (after : Handled κ) :
      Gathered calls info buf bytes s → s.err = 0 → s.used ≤ buf.used →
      receivePacket calls info =
        .ok (info.withIn (bufferShift buf s.used), [.received info.inEnd.fd bytes], .inr s.obj) →
      hi.rdFin calls (info.withIn (bufferShift buf s.used)) s.obj state = .ok after →
      ReadEvent { after with events := .received info.inEnd.fd bytes :: after.events }

inductive WriteEvent : Handled κ → Prop where
  | failed (errno : Errno) : calls.write = .error errno →
      WriteEvent ⟨.hsDel, info, state, []⟩
  | sent (buf : Buffer) (n : Nat) : buf.contents = info.outEnd.buf.contents.drop n →
      buf.freed = info.outEnd.buf.freed →
      WriteEvent
        ⟨.hsSuc, info.withOut buf, state, [.sent info.outEnd.fd (info.outEnd.buf.bytes.take n)]⟩
  | drained (buf : Buffer) (handled : Handled κ) : info.outEnd.buf.bytes = [] → buf.contents = [] →
      buf.freed = info.outEnd.buf.freed → hi.wrFin calls (info.withOut buf) state = .ok handled →
      WriteEvent handled

/-- What an event at an entry comes to: nothing, a read or a write. -/
inductive PktEvent : Handled κ → Prop where
  | quiet : PktEvent ⟨.hsSuc, info, state, []⟩
  | reads (handled : Handled κ) : info.state.watchesIn = true →
      ReadEvent hi calls info state handled → PktEvent handled
  | writes (handled : Handled κ) : info.state.watchesIn = false →
      WriteEvent hi calls info state handled → PktEvent handled

variable {hi calls info state} {handled : Handled κ}

theorem handlePktRd_cases (done : handlePktRd hi calls info state = .ok handled) :
    ReadEvent hi calls info state handled := by
  unfold handlePktRd at done
  cases received : receivePacket calls info with
  | error trap =>
      rw [received] at done
      cases done
  | ok result =>
      rw [received] at done
      cases receivePacket_cases received with
      | nothing buf kept =>
          cases done
          exact .nothing buf kept
      | rejected buf bytes s gathered failing =>
          cases done
          exact .rejected buf bytes s gathered failing
      | unfinished buf bytes s gathered clean short =>
          cases done
          exact .unfinished buf bytes s gathered clean short
      | complete buf bytes s gathered clean within =>
          cases finished : hi.rdFin calls (info.withIn (bufferShift buf s.used)) s.obj state with
          | error trap =>
              simp only [finished] at done
              cases done
          | ok after =>
              simp only [finished] at done
              cases done
              exact .complete buf bytes s after gathered clean within received finished

theorem handlePktWr_cases (done : handlePktWr hi calls info state = .ok handled) :
    WriteEvent hi calls info state handled := by
  unfold handlePktWr at done
  split_ifs at done
  rcases bufferWrite_cases calls.write info.outEnd.buf with failed | ⟨n, positive, written, left⟩
  · rw [failed] at done
    cases done
    cases result : calls.write with
    | error errno => exact .failed errno result
    | count n =>
        rw [result] at failed
        cases congrArg Prod.snd failed
  have freed := (bufferShift_contents info.outEnd.buf (min info.outEnd.buf.used n)).2
  simp only [written] at done
  split_ifs at done with more
  · cases done
    exact .sent _ n left freed
  · have nothing := (List.take_eq_nil_iff.mp (not_not.mp more)).resolve_left positive.ne'
    refine .drained _ _ nothing ?_ freed done
    rw [left, List.map_eq_nil_iff.mp nothing, List.drop_nil]

theorem handlePktEvent_cases (done : handlePktEvent hi calls info state = .ok handled) :
    PktEvent hi calls info state handled := by
  unfold handlePktEvent at done
  split_ifs at done
  · cases done
    exact .quiet
  cases current : info.state <;> simp only [current] at done
  case mssReqrd => exact .reads _ (by rw [current]; rfl) (handlePktRd_cases done)
  case mssRspfwd => exact .reads _ (by rw [current]; rfl) (handlePktRd_cases done)
  case mssRspwr => exact .writes _ (by rw [current]; rfl) (handlePktWr_cases done)
  case mssReqfwd => exact .writes _ (by rw [current]; rfl) (handlePktWr_cases done)
  all_goals cases done

end EntryEvents

/-- Two entries that differ in what their buffers hold at most. -/
structure SameButBytes (info info' : Sockinfo) : Prop where
  type : info'.type = info.type
  state : info'.state = info.state
  inFd : info'.inEnd.fd = info.inEnd.fd
  outFd : info'.outEnd.fd = info.outEnd.fd
  inFreed : info'.inEnd.buf.freed = info.inEnd.buf.freed
  outFreed : info'.outEnd.buf.freed = info.outEnd.buf.freed

theorem SameButBytes.refl (info : Sockinfo) : SameButBytes info info := ⟨rfl, rfl, rfl, rfl, rfl, rfl⟩

theorem sameButBytes_withIn {info : Sockinfo} {buf : Buffer}
    (freed : buf.freed = info.inEnd.buf.freed) : SameButBytes info (info.withIn buf) :=
  ⟨rfl, rfl, rfl, rfl, freed, rfl⟩

theorem sameButBytes_withOut {info : Sockinfo} {buf : Buffer}
    (freed : buf.freed = info.outEnd.buf.freed) : SameButBytes info (info.withOut buf) :=
  ⟨rfl, rfl, rfl, rfl, rfl, freed⟩

/-- The events that are about bytes. -/
def Event.transfer : Event → Bool
  | .received _ _ | .sent _ _ => true
  | .accepted _ | .created _ | .closed _ => false

/-- The events that are about descriptors being opened and closed. -/
def ledger (events : List Event) : List Event := events.filter fun event => !event.transfer

inductive Stepped {κ : Type} (info : Sockinfo) (handled : Handled κ) : Prop where
  | goesOn : handled.status = .hsSuc → ledger handled.events = [] → SameButBytes info handled.info →
      Stepped info handled
  | turns (read turned : Sockinfo) : SameButBytes info read →
      Turned read handled.status (ledger handled.events) turned → SameButBytes turned handled.info →
      Stepped info handled

theorem Turned.outFreed {info turned : Sockinfo} {status : HandlerE} {events : List Event}
    (turns : Turned info status events turned) :
    turned.outEnd.buf.freed = info.outEnd.buf.freed := by
  cases turns <;> rfl

theorem Turned.ledger {info turned : Sockinfo} {status : HandlerE} {events : List Event}
    (turns : Turned info status events turned) : Middfs.ledger events = events := by
  cases turns with
  | unconnected _ _ created =>
      rcases created with rfl | ⟨fd, rfl⟩
      · rfl
      · rfl
  | _ => rfl

section Events
variable {κ : Type} {hi : HandlerInfo κ} (both : hi.Turns) {calls : Calls} {info : Sockinfo}
variable {state : κ} {handled : Handled κ}

theorem TurnedInto.stepped {read : Sockinfo} (same : SameButBytes info read) (transfers : List Event)
    (moved : ledger transfers = []) (into : TurnedInto read handled) :
    Stepped info { handled with events := transfers ++ handled.events } := by
  obtain ⟨turned, buf, turns, left, freed⟩ := into
  have events : ledger (transfers ++ handled.events) = handled.events := by
    rw [ledger, List.filter_append]
    show ledger transfers ++ ledger handled.events = handled.events
    rw [moved, turns.ledger, List.nil_append]
  refine .turns read turned same ?_ ?_
  · show Turned read handled.status (ledger (transfers ++ handled.events)) turned
    rw [events]
    exact turns
  · show SameButBytes turned handled.info
    rw [left]
    exact sameButBytes_withOut (freed.trans turns.outFreed.symm)

include both

theorem ReadEvent.stepped (reading : info.state.watchesIn = true)
    (event : ReadEvent hi calls info state handled) : Stepped info handled := by
  cases event with
  | nothing buf kept =>
      exact .turns _ _ (sameButBytes_withIn kept.freed) .dropped (SameButBytes.refl _)
  | rejected buf bytes s gathered _ =>
      exact .turns _ _ (sameButBytes_withIn gathered.freed) .dropped (SameButBytes.refl _)
  | unfinished buf bytes s gathered _ _ =>
      exact .goesOn rfl rfl (sameButBytes_withIn gathered.freed)
  | complete buf bytes s after gathered _ _ _ finished =>
      have same : SameButBytes info (info.withIn (bufferShift buf s.used)) :=
        sameButBytes_withIn ((bufferShift_contents buf s.used).2.trans gathered.freed)
      have into := both.rdFin calls (info.withIn (bufferShift buf s.used)) s.obj state after reading
        finished
      exact into.stepped same [.received info.inEnd.fd bytes] rfl

theorem WriteEvent.stepped (event : WriteEvent hi calls info state handled) :
    Stepped info handled := by
  cases event with
  | failed errno _ =>
      exact .turns info info (SameButBytes.refl info) .dropped (SameButBytes.refl info)
  | sent buf n _ freed => exact .goesOn rfl rfl (sameButBytes_withOut freed)
  | drained buf _ _ _ freed finished =>
      have into := both.wrFin _ _ _ _ finished
      exact into.stepped (sameButBytes_withOut freed) [] rfl

theorem handlePktEvent_stepped (done : handlePktEvent hi calls info state = .ok handled) :
    Stepped info handled := by
  cases handlePktEvent_cases done with
  | quiet => exact .goesOn rfl rfl (SameButBytes.refl info)
  | reads _ watches event => exact event.stepped both watches
  | writes _ _ event => exact event.stepped both

end Events
end Middfs
