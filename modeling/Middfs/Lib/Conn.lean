import Middfs.Lib.Deserialize
import Middfs.Lib.Sock

/-!
# The connection manager

`middfs-conn.c` and `middfs-handler.h`.  What the system does while one entry
of the socket array is handled is given by `Calls`; the server and the client
responder plug in their own handlers, which also work on a state of their own,
here of type `κ`.  A handler gives the list of what it did to descriptors, which
`server_loop` writes to a log that no function looks at.
-/

set_option autoImplicit false

namespace Middfs

/-- The results of the system and library calls made for one entry; a call that
is not made has no influence.  `none` and `false` are failures. -/
structure Calls where
  malloc : Nat → Bool
  realloc : Nat → Bool
  accept : Option Nat
  read : ReadResult
  write : WriteResult
  socket : Option Nat
  connect : Bool
  peername : Option CStr

/-- Memory is granted, and nothing comes in or goes out. -/
def quietCalls : Calls where
  malloc := fun _ => true
  realloc := fun _ => true
  accept := none
  read := .bytes []
  write := .count 0
  socket := none
  connect := false
  peername := none

inductive Event where
  | accepted (fd : Int)
  | created (fd : Int)
  | closed (fd : Int)
  | received (fd : Int) (bytes : List UInt8)
  | sent (fd : Int) (bytes : List UInt8)
  deriving DecidableEq, Repr

inductive HandlerE where
  | hsErr
  | hsSuc
  | hsNew
  | hsDel
  deriving DecidableEq, Repr

structure Handled (κ : Type) where
  status : HandlerE
  info : Sockinfo
  state : κ
  events : List Event

structure HandlerInfo (κ : Type) where
  rdFin : Calls → Sockinfo → Packet → κ → Except Trap (Handled κ)
  wrFin : Calls → Sockinfo → κ → Except Trap (Handled κ)

/-- `socket` and `connect`, as `inet_connect` calls them.  The descriptor of a
socket that does not connect is not closed. -/
def inetConnect (calls : Calls) : Option Int × List Event :=
  match calls.socket with
  | none => (none, [])
  | some fd => (if calls.connect then some (fd : Int) else none, [.created fd])

section Handlers
variable {κ : Type} (hi : HandlerInfo κ) (calls : Calls)

/-- The first part of `handle_pkt_rd`: the entry and, unless the function is to
return the status given, the packet it read. -/
def receivePacket (info : Sockinfo) : Except Trap (Sockinfo × List Event × (HandlerE ⊕ Packet)) :=
  if info.revents.pollin then
    match bufferRead calls.realloc info.inEnd.fd calls.read info.inEnd.buf with
    | .error trap => .error trap
    | .ok (buf, none) => .ok ({ info with inEnd := { info.inEnd with buf := buf } }, [], .inl .hsDel)
    | .ok (buf, some bytes) =>
        let info := { info with inEnd := { info.inEnd with buf := buf } }
        if bytes = [] then .ok (info, [], .inl .hsDel)
        else
          let events := [.received info.inEnd.fd bytes]
          match deserializePkt calls.malloc buf.bytes zeroPacket 0 with
          | .error trap => .error trap
          | .ok s =>
              if s.err ≠ 0 then .ok (info, events, .inl .hsDel)
              else if s.used > buf.used then .ok (info, events, .inl .hsSuc)
              else
                .ok ({ info with inEnd := { info.inEnd with buf := bufferShift buf s.used } }, events,
                  .inr s.obj)
  else .error .assertFail

def handlePktRd (info : Sockinfo) (state : κ) : Except Trap (Handled κ) :=
  match receivePacket calls info with
  | .error trap => .error trap
  | .ok (info, events, .inl status) => .ok ⟨status, info, state, events⟩
  | .ok (info, events, .inr pkt) =>
      match hi.rdFin calls info pkt state with
      | .error trap => .error trap
      | .ok handled => .ok { handled with events := events ++ handled.events }

/-- A write that fails deletes the entry, whatever its `errno`.  With EPIPE the real
process does not get so far: it has no handler for SIGPIPE, which kills it. -/
def handlePktWr (info : Sockinfo) (state : κ) : Except Trap (Handled κ) :=
  if info.revents.pollout then
    match bufferWrite calls.write info.outEnd.buf with
    | (buf, none) =>
        .ok ⟨.hsDel, { info with outEnd := { info.outEnd with buf := buf } }, state, []⟩
    | (buf, some bytes) =>
        let info := { info with outEnd := { info.outEnd with buf := buf } }
        if bytes ≠ [] then .ok ⟨.hsSuc, info, state, [.sent info.outEnd.fd bytes]⟩
        else hi.wrFin calls info state
  else .error .assertFail

def handlePktEvent (info : Sockinfo) (state : κ) : Except Trap (Handled κ) :=
  if info.revents = Revents.none then .ok ⟨.hsSuc, info, state, []⟩
  else
    match info.state with
    | .mssReqrd | .mssRspfwd => handlePktRd hi calls info state
    | .mssRspwr | .mssReqfwd => handlePktWr hi calls info state
    | .mssLstn | .mssClosed | .mssNone => .error .abort

/-- The new entry is given beside the status `hsNew`. -/
def handleLstnEvent (info : Sockinfo) : Except Trap (HandlerE × Option Sockinfo) :=
  if info.revents.pollin then
    match calls.accept with
    | none => .ok (.hsDel, none)
    | some fd =>
        match sockinfoInit .mfdPktIn fd (-1) with
        | .error trap => .error trap
        | .ok fresh => .ok (.hsNew, some fresh)
  else .ok (.hsSuc, none)

def handleSocketEvent (info : Sockinfo) (state : κ) :
    Except Trap (Handled κ × Option Sockinfo) :=
  if sockinfoIsopen info then
    match info.type with
    | .mfdPktIn =>
        match handlePktEvent hi calls info state with
        | .error trap => .error trap
        | .ok handled => .ok (handled, none)
    | .mfdPktOut => .error .abort
    | .mfdLstn =>
        match handleLstnEvent calls info with
        | .error trap => .error trap
        | .ok (status, fresh) => .ok (⟨status, info, state, []⟩, fresh)
    | .mfdNone => .error .abort
  else .ok (⟨.hsSuc, info, state, []⟩, none)

end Handlers

/-! ## The loop -/

/-- The server between two steps.  `polls` counts the arrays of pollfds. -/
structure Server (κ : Type) where
  socks : Socks
  state : κ
  polls : Nat
  log : List (Nat × Event)

def tagged (index : Nat) (events : List Event) : List (Nat × Event) := events.map fun e => (index, e)

section Loop
variable {κ : Type} (hi : HandlerInfo κ)

/-- The entry that `middfs_socks_add` is to add, or the end of the loop. -/
def addSock (calls : Calls) (fresh : Sockinfo) (server : Server κ) :
    Except Trap (Server κ × Bool) :=
  let index := server.socks.count
  let opened := tagged index [.accepted fresh.inEnd.fd]
  match socksAdd calls.realloc fresh server.socks with
  | some socks => .ok ({ server with socks := socks, log := server.log ++ opened }, true)
  | none =>
      match sockinfoDelete fresh with
      | .error trap => .error trap
      | .ok (_, closed) =>
          .ok ({ server with log := server.log ++ opened ++ tagged index (closed.map .closed) }, false)

/-- The body of the loop of `server_loop`, for the entry at `index`.  The second
component says whether the loop goes on. -/
def handleAt (calls : Calls) (index : Nat) (server : Server κ) : Except Trap (Server κ × Bool) :=
  match server.socks.sockinfos[index]? with
  | none => .error .wild
  | some info =>
      match handleSocketEvent hi calls info server.state with
      | .error trap => .error trap
      | .ok (handled, fresh) =>
          let server : Server κ :=
            { server with
              socks := { server.socks with sockinfos := server.socks.sockinfos.set index handled.info }
              state := handled.state
              log := server.log ++ tagged index handled.events }
          match handled.status, fresh with
          | .hsSuc, _ => .ok (server, true)
          | .hsNew, some fresh => addSock calls fresh server
          | .hsNew, none => .error .wild
          | .hsDel, _ =>
              match sockinfoDelete handled.info with
              | .error trap => .error trap
              | .ok (info, closed) =>
                  .ok
                    ({ server with
                        socks := { server.socks with sockinfos := server.socks.sockinfos.set index info }
                        log := server.log ++ tagged index (closed.map .closed) },
                      true)
          | .hsErr, _ => .ok (server, false)

def closedBy : Nat → List (Sockinfo × List Int) → List (Nat × Event)
  | _, [] => []
  | index, (_, closed) :: checked => tagged index (closed.map .closed) ++ closedBy (index + 1) checked

/-- The first step of `server_loop`: poll on the array. -/
def pollAll (calloc : Bool) (ready : Option (Nat → Revents)) (server : Server κ) :
    Except Trap (Server κ × Bool) :=
  match socksPoll server.polls calloc ready server.socks.sockinfos with
  | .error trap => .error trap
  | .ok (infos, none) =>
      .ok
        ({ server with socks := { server.socks with sockinfos := infos }, polls := server.polls + 1 },
          false)
  | .ok (_, some checked) =>
      .ok
        ({ server with
            socks := { server.socks with sockinfos := checked.map Prod.fst }
            polls := server.polls + 1
            log := server.log ++ closedBy 0 checked },
          true)

/-- The loop of `server_loop`, `left` iterations before its end. -/
def serverLoopFrom (calls : Nat → Calls) : Nat → Nat → Server κ → Except Trap (Server κ × Int)
  | 0, _, server => .ok (server, 0)
  | left + 1, index, server =>
      match handleAt hi (calls index) index server with
      | .error trap => .error trap
      | .ok (server, false) => .ok (server, -1)
      | .ok (server, true) => serverLoopFrom calls left (index + 1) server

/-- The entries added by the loop are not handled before the next call. -/
def serverLoop (calloc : Bool) (ready : Option (Nat → Revents)) (calls : Nat → Calls)
    (server : Server κ) : Except Trap (Server κ × Int) :=
  match pollAll calloc ready server with
  | .error trap => .error trap
  | .ok (server, false) => .ok (server, -1)
  | .ok (server, true) => serverLoopFrom hi calls server.socks.count 0 server

end Loop

/-- `server_start`, once the socket listens: a server with the listening socket
alone. -/
def serverStart {κ : Type} (realloc : Nat → Bool) (servsock : Nat) (state : κ) :
    Except Trap (Option (Server κ)) :=
  match sockinfoInit .mfdLstn servsock (-1) with
  | .error trap => .error trap
  | .ok info =>
      match socksAdd realloc info socksInit with
      | none => .ok none
      | some socks => .ok (some ⟨socks, state, 0, [(0, .created servsock)]⟩)

end Middfs
