import Middfs.Descriptors
import Middfs.Sessions

/-!
# Where responses come from

An entry reads the requester's bytes and later the peer's into one buffer.
Where nothing was read behind a request that is forwarded, all that the buffer
holds while a response is waited for came from the peer; bytes that were read
behind it stay there and are taken for the beginning of the response.
-/

set_option autoImplicit false

namespace Middfs

open Runs

/-! ## Sessions whose buffers were emptied -/

def Forwards (lib : Sorting.Library Client) (calls : Calls) (pkt : Packet) (clients : Clients) : Prop :=
  pkt.mpktType = mpktRequestType ∧
    (∃ owner, lookedUp pkt.mpktRequest = some owner ∧ (clientFind lib owner clients).isSome = true) ∧
    (inetConnect calls).1.isSome = true

def ReadsWhole (lib : Sorting.Library Client) (calls : Calls) (info : Sockinfo)
    (clients : Clients) : Prop :=
  info.state.watchesIn = true → ∀ read events pkt,
    receivePacket calls info = .ok (read, events, .inr pkt) → Forwards lib calls pkt clients →
      read.inEnd.buf.contents = []

/-- All bytes that are there came from this end's descriptor. -/
def Sockend.Own (sockend : Sockend) : Prop :=
  ∀ cell ∈ sockend.buf.contents, cell.src = some sockend.fd

/-- Once a request goes to a peer the buffer is empty, and once a response is
waited for it holds the peer's bytes only. -/
structure Provenant (events : List Event) (info : Sockinfo) : Prop where
  sound : info.Sound
  forwarding : info.type = .mfdPktIn → info.state = .mssReqfwd →
    .created info.outEnd.fd ∈ events ∧ info.inEnd.buf.contents = []
  awaiting : info.type = .mfdPktIn → info.state = .mssRspfwd →
    .created info.inEnd.fd ∈ events ∧ info.inEnd.Own

/-! ## The handlers of the server -/

section Server
variable {lib : Sorting.Library Client} {calls : Calls} {info : Sockinfo} {inPkt : Packet}
variable {clients : Clients} {handled : Handled Clients}

theorem queuePacket_keeps {pkt : Packet} {events : List Event}
    (queued : queuePacket calls info pkt clients events = .ok handled) :
    handled.info.state = info.state ∧ handled.info.inEnd = info.inEnd ∧
      handled.info.outEnd.fd = info.outEnd.fd ∧ handled.events = events := by
  obtain ⟨status, buf, rfl, _⟩ := queuePacket_cases queued
  exact ⟨rfl, rfl, rfl, rfl⟩

theorem RequestServed.forwards (request : inPkt.mpktType = mpktRequestType)
    (served : RequestServed lib calls info inPkt clients (.ok handled))
    (status : handled.status ≠ .hsDel) :
    handled.info.state = .mssRspwr ∨
      handled.info.state = .mssReqfwd ∧ Forwards lib calls inPkt clients ∧
        .created handled.info.outEnd.fd ∈ handled.events := by
  cases served with
  | root _ _ queued => exact Or.inl (queuePacket_keeps queued).1
  | unregistered _ _ _ _ queued => exact Or.inl (queuePacket_keeps queued).1
  | unconnected _ _ _ _ _ _ _ => exact absurd rfl status
  | forwarded owner client fd _ named found connected queued =>
      obtain ⟨state, _, outFd, events⟩ := queuePacket_keeps queued
      refine Or.inr ⟨state, ⟨request, ⟨owner, named, by rw [found]; rfl⟩, ?_⟩, ?_⟩
      · rw [connected]
        rfl
      · rw [outFd, events]
        exact List.mem_singleton_self _

/-- A handler that keeps the entry makes it write, to the requester or to a peer. -/
theorem serverRdFin_forwards (done : serverRdFin lib calls info inPkt clients = .ok handled)
    (status : handled.status ≠ .hsDel) :
    handled.info.state = .mssRspwr ∨
      handled.info.state = .mssReqfwd ∧ Forwards lib calls inPkt clients ∧
        .created handled.info.outEnd.fd ∈ handled.events := by
  cases serverRdFin_cases lib done with
  | connect _ _ connected =>
      obtain ⟨clients', rfl⟩ := handleConnectFin_cases lib connected
      exact absurd rfl status
  | request _ request served => exact served.forwards request status
  | response _ _ queued => exact Or.inl (queuePacket_keeps queued).1
  | unknown => exact absurd rfl status

theorem serverRdFin_buffer (reading : info.state.watchesIn = true)
    (done : serverRdFin lib calls info inPkt clients = .ok handled) :
    handled.info.inEnd.buf = info.inEnd.buf := by
  obtain ⟨turned, buf, turns, left, _⟩ := serverRdFin_turns lib reading done
  rw [left]
  exact turns.freed.2.1

theorem serverWrFin_crosses (done : serverWrFin info clients = .ok handled) :
    handled.status = .hsDel ∨
      info.state = .mssReqfwd ∧ handled.info = info.crossed ∧ handled.events = [] := by
  cases serverWrFin_cases done with
  | request state => exact Or.inr ⟨state, rfl, rfl⟩
  | response _ => exact Or.inl rfl
  | unexpected => exact Or.inl rfl

end Server

/-! ## What an event leaves behind -/

section Sessions
variable {events : List Event} {info info' : Sockinfo}

theorem Provenant.slots (provenant : Provenant events info) (same : SameButSlots info info') :
    Provenant events info' where
  sound := same.sound provenant.sound
  forwarding := fun type state => by
    rw [same.outFd, same.inBuf]
    exact provenant.forwarding (same.type ▸ type) (same.state ▸ state)
  awaiting := fun type state => by
    unfold Sockend.Own
    rw [same.inFd, same.inBuf]
    exact provenant.awaiting (same.type ▸ type) (same.state ▸ state)

theorem Provenant.grow (provenant : Provenant events info) (more : List Event) :
    Provenant (events ++ more) info where
  sound := provenant.sound
  forwarding := fun type state =>
    (provenant.forwarding type state).imp_left fun created => List.mem_append_left more created
  awaiting := fun type state =>
    (provenant.awaiting type state).imp_left fun created => List.mem_append_left more created

theorem provenant_unused (sound : info.Sound) (unused : info.type ≠ .mfdPktIn) :
    Provenant events info :=
  ⟨sound, fun type => absurd type unused, fun type => absurd type unused⟩

theorem Sockinfo.Deletable.provenant (deletable : info.Deletable) :
    Provenant events info.deleted := by
  apply provenant_unused
  · exact sound_deleted deletable (sockinfoDelete_eq deletable.inUnreleased deletable.outUnreleased)
  · intro no
    cases no

theorem Sockend.Own.gathered {sockend : Sockend} {buf : Buffer} {bytes : List UInt8}
    (own : sockend.Own)
    (contents : buf.contents = sockend.buf.contents ++ readFrom sockend.fd bytes) :
    ∀ cell ∈ buf.contents, cell.src = some sockend.fd := by
  intro cell member
  rw [contents] at member
  rcases List.mem_append.mp member with old | new
  · exact own cell old
  · obtain ⟨val, _, rfl⟩ := List.mem_map.mp new
    rfl

end Sessions

section Event
variable {lib : Sorting.Library Client} {calls : Calls} {info : Sockinfo} {clients : Clients}
variable {handled : Handled Clients} {events : List Event}

theorem ReadEvent.provenant (provenant : Provenant events info) (type : info.type = .mfdPktIn)
    (watches : info.state.watchesIn = true) (whole : ReadsWhole lib calls info clients)
    (sound : handled.info.Sound)
    (event : ReadEvent (serverHi lib) calls info clients handled)
    (status : handled.status ≠ .hsDel) : Provenant (events ++ handled.events) handled.info := by
  cases event with
  | nothing buf _ => exact absurd rfl status
  | rejected buf bytes s _ _ => exact absurd rfl status
  | unfinished buf bytes s gathered _ _ =>
      refine ⟨sound, fun _ forwarding => ?_, fun _ awaiting => ?_⟩
      · have state : info.state = .mssReqfwd := forwarding
        rw [state] at watches
        cases watches
      · obtain ⟨created, own⟩ := provenant.awaiting type awaiting
        exact ⟨List.mem_append_left _ created, own.gathered gathered.contents⟩
  | complete buf bytes s after _ _ _ received finished =>
      rcases serverRdFin_forwards finished status with responds | ⟨sends, forwards, created⟩
      · refine ⟨sound, fun _ forwarding => ?_, fun _ awaiting => ?_⟩
        · cases responds.symm.trans forwarding
        · cases responds.symm.trans awaiting
      · refine ⟨sound, fun _ _ => ⟨?_, ?_⟩, fun _ awaiting => ?_⟩
        · exact List.mem_append_right _ (List.mem_cons_of_mem _ created)
        · show after.info.inEnd.buf.contents = []
          rw [@serverRdFin_buffer lib calls (info.withIn (bufferShift buf s.used)) s.obj clients
            after watches finished]
          exact whole watches _ _ _ received forwards
        · cases sends.symm.trans awaiting

theorem WriteEvent.provenant (provenant : Provenant events info) (type : info.type = .mfdPktIn)
    (sound : handled.info.Sound)
    (event : WriteEvent (serverHi lib) calls info clients handled)
    (status : handled.status ≠ .hsDel) : Provenant (events ++ handled.events) handled.info := by
  cases event with
  | failed errno _ => exact absurd rfl status
  | sent buf n _ _ => exact ⟨sound, (provenant.grow _).forwarding, (provenant.grow _).awaiting⟩
  | drained buf _ _ _ _ finished =>
      rcases serverWrFin_crosses finished with dropped | ⟨state, crossed, none_⟩
      · exact absurd dropped status
      · obtain ⟨created, empty⟩ := provenant.forwarding type state
        refine ⟨sound, fun _ forwarding => ?_, fun _ _ => ?_⟩
        · rw [crossed] at forwarding
          cases forwarding
        · rw [crossed]
          refine ⟨List.mem_append_left _ created, fun cell member => ?_⟩
          have among : cell ∈ info.inEnd.buf.contents := member
          rw [empty] at among
          cases among

theorem handlePktEvent_provenant (provenant : Provenant events info) (type : info.type = .mfdPktIn)
    (whole : ReadsWhole lib calls info clients) (sound : handled.info.Sound)
    (done : handlePktEvent (serverHi lib) calls info clients = .ok handled)
    (status : handled.status ≠ .hsDel) : Provenant (events ++ handled.events) handled.info := by
  cases handlePktEvent_cases done with
  | quiet => exact provenant.grow []
  | reads _ watches event => exact event.provenant provenant type watches whole sound status
  | writes _ _ event => exact event.provenant provenant type sound status

end Event

/-! ## Runs -/

def wholeRequests (lib : Sorting.Library Client) : Expected Clients where
  polls := fun _ => True
  accepts := fun _ _ => True
  handles := fun _ _ calls info clients => ReadsWhole lib calls info clients

theorem sessionwise_provenant (lib : Sorting.Library Client) :
    Sessionwise (serverHi lib) (wholeRequests lib) (fun _ => True) (fun _ => Provenant)
      (fun _ => True) where
  sound := fun _ _ _ provenant => provenant.sound
  accepted := fun _ _ fd _ =>
    ⟨sound_accepted fd, fun _ no => (by cases no), fun _ no => by cases no⟩
  refused := fun _ _ _ _ _ _ _ => trivial
  slots := fun _ _ _ _ provenant same => provenant.slots same
  polled := fun _ events info ready checked provenant _ polledTo => by
    cases polledTo with
    | kept info' revents same _ =>
        have slots := (provenant.slots same).grow []
        exact ⟨⟨slots.sound.fitting, slots.sound.unreleased⟩, slots.forwarding, slots.awaiting⟩
    | deleted info' same inUse _ =>
        exact ((same.sound provenant.sound).deletable (same.type ▸ inUse)).provenant
  listening := fun _ _ _ provenant type =>
    (provenant.sound.deletable (by rw [type]; intro no; cases no)).provenant
  event := fun _ _ _ _ _ _ provenant _ type whole done => by
    obtain ⟨sound, deletable⟩ :=
      (handlePktEvent_stepped (serverHi_turns lib) done).sound type provenant.sound
    exact ⟨trivial,
      fun status => handlePktEvent_provenant provenant type whole (sound status) done status,
      fun status => (deletable status).provenant⟩

/-- All that an entry has read of a response, and all that it goes on to read,
came from a peer that it connected to. -/
structure FromPeer (events : List Event) (info : Sockinfo) : Prop where
  peer : .created info.inEnd.fd ∈ events
  held : ∀ cell ∈ info.inEnd.buf.contents, cell.src = some info.inEnd.fd
  read : ∀ (calls : Calls) buf bytes,
    bufferRead calls.realloc info.inEnd.fd calls.read info.inEnd.buf = .ok (buf, some bytes) →
      ∀ cell ∈ buf.contents, cell.src = some info.inEnd.fd

def ResponsesFromPeers (server : Server Clients) : Prop :=
  ∀ index (info : Sockinfo), server.socks.sockinfos[index]? = some info → info.type = .mfdPktIn →
    info.state = .mssRspfwd → FromPeer (eventsAt index server.log) info

theorem Provenant.fromPeer {events : List Event} {info : Sockinfo} (provenant : Provenant events info)
    (type : info.type = .mfdPktIn) (state : info.state = .mssRspfwd) : FromPeer events info := by
  obtain ⟨created, own⟩ := provenant.awaiting type state
  refine ⟨created, own, fun calls buf bytes read => ?_⟩
  rcases @bufferRead_cases calls.realloc info.inEnd.fd calls.read info.inEnd.buf with
    ⟨_, failed, _⟩ | ⟨buf', stream, n, _, _, answer, contents, _⟩
  · rw [failed] at read
    cases read
  · rw [answer] at read
    cases read
    exact own.gathered contents

/-- In every run in which nothing is read behind the requests that are forwarded,
responses come from peers. -/
theorem responses_fromPeers (lib : Sorting.Library Client) {realloc : Nat → Bool} {servsock : Nat}
    {clients : Clients} {server : Server Clients} {running : Running Clients}
    (started : serverStart realloc servsock clients = .ok (some server))
    (run : Reached (advance (serverHi lib)) (wholeRequests lib).Meets ⟨server, 0, 0⟩ running) :
    ResponsesFromPeers running.server := by
  have sessions := (sessionwise_provenant lib).runs (serverHi_turns lib) run
    (sessions_started started trivial
      (provenant_unused (sound_listens servsock) (by intro no; cases no)) trivial)
  intro index info found type state
  exact (sessions.entries index info found).fromPeer type state

def wholeAt (moment : Moment) (running : Running Clients) : Bool :=
  match running.left, running.server.socks.sockinfos[running.index]? with
  | _ + 1, some info =>
      match receivePacket moment.calls info with
      | .ok (read, _, .inr _) => read.inEnd.buf.contents.isEmpty
      | _ => true
  | _, _ => true

theorem wholeAt_sound (lib : Sorting.Library Client) {moment : Moment} {running : Running Clients}
    (checked : wholeAt moment running = true) : (wholeRequests lib).Meets moment running := by
  unfold Expected.Meets
  split
  · trivial
  rename_i left more
  intro info found
  refine ⟨fun _ => trivial, fun _ _ read events pkt received _ => ?_⟩
  unfold wholeAt at checked
  simp only [more, found, received, List.isEmpty_iff] at checked
  exact checked

/-- The request went to the peer, who has sent five bytes. -/
structure AwaitingRest (server : Server Clients) (running : Running Clients) (info : Sockinfo) : Prop where
  started : serverStart memory 3 oneUser = .ok (some server)
  runs : steps (advance (serverHi (Sorting.simpleLibrary Client)))
    (inquiryForwarded ++ takingIn grantedCalls ((packetError zeroPacket enoent).wire.take 5) [0])
    ⟨server, 0, 0⟩ = .ok running
  whole : passes (advance (serverHi (Sorting.simpleLibrary Client))) wholeAt
    (inquiryForwarded ++ takingIn grantedCalls ((packetError zeroPacket enoent).wire.take 5) [0])
    ⟨server, 0, 0⟩ = true
  found : running.server.socks.sockinfos[1]? = some info
  state : info.type = .mfdPktIn ∧ info.state = .mssRspfwd
  held : info.inEnd.buf.bytes = (packetError zeroPacket enoent).wire.take 5

theorem responses_fromPeers_inquiry : ∃ server running info, AwaitingRest server running info ∧
    ResponsesFromPeers running.server := by
  have happens : ∃ server running info, AwaitingRest server running info :=
    ⟨_, _, _, rfl, rfl, rfl, rfl, ⟨rfl, rfl⟩, rfl⟩
  obtain ⟨server, running, info, awaiting⟩ := happens
  exact ⟨server, running, info, awaiting, responses_fromPeers (Sorting.simpleLibrary Client)
    awaiting.started (.of_passes (fun _ _ _ checked => wholeAt_sound _ checked) awaiting.whole awaiting.runs)⟩

def reachable : Calls := { quietCalls with socket := some 5, connect := true }

/-- The entry is written from until its buffer is empty, and once more. -/
def writingAll : List Iteration :=
  [⟨fun slot => if slot = 1 then { pollout := true } else Revents.none,
      fun _ => { quietCalls with write := .count 100 }⟩,
    ⟨fun slot => if slot = 1 then { pollout := true } else Revents.none, fun _ => quietCalls⟩]

/-- A byte behind the request is read together with its end. -/
theorem pipelined_notFromPeer : ∃ server server' : Server Clients,
    serverStart (fun _ => true) 3 clientsInit = .ok (some server) ∧
      serverLoops (serverHi (Sorting.simpleLibrary Client))
        (announced ++ accepting 4 :: readingAll reachable (inquiry.wire ++ [7]) 6 ++ writingAll)
        server = .ok server' ∧
      ¬ ResponsesFromPeers server' := by
  refine ⟨_, _, rfl, rfl, fun responses => ?_⟩
  have held := (responses 2 _ rfl rfl rfl).held ⟨7, some 4⟩ (by decide)
  revert held
  decide

end Middfs
