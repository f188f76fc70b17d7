import Middfs.Lib.Conn
import Middfs.Lib.Serialize
import Middfs.Server.Client

/-!
# The handlers of the server

`middfs-server-handler.c`.  The state of the handlers is the registry.
`out_pkt` is left uninitialised by `handle_req_rd_fin`; it is a zeroed packet
here, and every member that `serialize_pkt` then reads was set.
-/

set_option autoImplicit false

namespace Middfs

/-- `R_OK | W_OK | X_OK`. -/
def accessMask : Int32 := 7

section Handlers
variable (lib : Sorting.Library Client) (calls : Calls)

def handleReqRdFinRoot (info : Sockinfo) (req : Request) (rsp : Response) (clients : Clients) :
    Sockinfo × Response :=
  let rsp :=
    if req.mreqType = mreqReaddir then
      match clientsReaddir calls.malloc clients with
      | none => responseError (responseInit rsp mrspDirType) (Int32.ofInt enomem)
      | some dir => { responseInit rsp mrspDirType with mrspDir := dir }
    else if req.mreqType = mreqAccess then
      if req.mreqMode &&& accessMask ≠ req.mreqMode then responseError rsp einval
      else responseInit rsp mrspOk
    else if req.mreqType = mreqRename then responseError rsp eperm
    else responseError rsp enoent
  ({ info with
      state := .mssRspwr
      outEnd := { info.outEnd with fd := info.inEnd.fd }
      inEnd := { info.inEnd with fd := -1 } },
    rsp)

/-- The entry, the packet to send, and what was done to descriptors. -/
def handleReqRdFinPeer (info : Sockinfo) (inPkt outPkt : Packet) (clients : Clients) :
    Except Trap (HandlerE × Sockinfo × Packet × List Event) :=
  match inPkt.mpktRequest.mreqRsrc.mrOwner with
  | none => .error .wild
  | some recipientName =>
      match clientFind lib recipientName clients with
      | none =>
          .ok
            (.hsSuc,
              { info with
                state := .mssRspwr
                outEnd := { info.outEnd with fd := info.inEnd.fd }
                inEnd := { info.inEnd with fd := -1 } },
              packetError outPkt enoent, [])
      | some _ =>
          let info := { info with state := .mssReqfwd }
          match inetConnect calls with
          | (none, events) => .ok (.hsDel, info, inPkt, events)
          | (some tmpfd, events) =>
              .ok (.hsSuc, { info with outEnd := { info.outEnd with fd := tmpfd } }, inPkt, events)

/-- Whether the request is for the root: it is the path that is looked at. -/
def rootRequested (req : Request) : Bool :=
  match req.mreqRsrc.mrPath with
  | none => true
  | some path => path.val.isEmpty

/-- The packet that is to go out is encoded, or the socket is to be deleted. -/
def queuePacket (info : Sockinfo) (outPkt : Packet) (clients : Clients) (events : List Event) :
    Except Trap (Handled Clients) :=
  match bufferSerialize calls.realloc (serializePkt outPkt) info.outEnd.buf with
  | .error trap => .error trap
  | .ok (buf, none) =>
      .ok ⟨.hsDel, { info with outEnd := { info.outEnd with buf := buf } }, clients, events⟩
  | .ok (buf, some _) =>
      .ok ⟨.hsSuc, { info with outEnd := { info.outEnd with buf := buf } }, clients, events⟩

def handleReqRdFin (info : Sockinfo) (inPkt : Packet) (clients : Clients) :
    Except Trap (Handled Clients) :=
  let req := inPkt.mpktRequest
  if rootRequested req then
    let outPkt := packetInit zeroPacket mpktResponseType
    let (info, rsp) := handleReqRdFinRoot calls info req outPkt.mpktResponse clients
    queuePacket calls info { outPkt with mpktResponse := rsp } clients []
  else
    match handleReqRdFinPeer lib calls info inPkt zeroPacket clients with
    | .error trap => .error trap
    | .ok (retv, info, outPkt, events) =>
        if retv = .hsDel then .ok ⟨.hsDel, info, clients, events⟩
        else queuePacket calls info outPkt clients events

def handleReqWrFin (info : Sockinfo) (clients : Clients) : Except Trap (Handled Clients) :=
  if info.state = .mssReqfwd then
    .ok
      ⟨.hsSuc,
        { info with
          state := .mssRspfwd
          outEnd := { info.outEnd with fd := info.inEnd.fd }
          inEnd := { info.inEnd with fd := info.outEnd.fd } },
        clients, []⟩
  else .error .assertFail

def handleRspRdFin (info : Sockinfo) (inPkt : Packet) (clients : Clients) :
    Except Trap (Handled Clients) :=
  if info.state = .mssRspfwd then
    queuePacket calls { info with state := .mssRspwr } inPkt clients []
  else .error .assertFail

def handleRspWrFin (info : Sockinfo) (clients : Clients) : Except Trap (Handled Clients) :=
  if info.state = .mssRspwr then .ok ⟨.hsDel, { info with state := .mssClosed }, clients, []⟩
  else .error .assertFail

/-- `handle_connect` on the entry; a failure leaves the registry alone. -/
def handleConnectFin (info : Sockinfo) (inPkt : Packet) (clients : Clients) :
    Except Trap (Handled Clients) :=
  match handleConnect lib calls.malloc calls.realloc calls.peername inPkt.mpktConnect clients with
  | .error trap => .error trap
  | .ok none => .ok ⟨.hsDel, info, clients, []⟩
  | .ok (some clients) => .ok ⟨.hsDel, info, clients, []⟩

def serverRdFin (info : Sockinfo) (inPkt : Packet) (clients : Clients) :
    Except Trap (Handled Clients) :=
  if inPkt.mpktType = mpktConnectType then handleConnectFin lib calls info inPkt clients
  else if inPkt.mpktType = mpktDisconnect then .error .abort
  else if inPkt.mpktType = mpktRequestType then handleReqRdFin lib calls info inPkt clients
  else if inPkt.mpktType = mpktResponseType then handleRspRdFin calls info inPkt clients
  else .ok ⟨.hsDel, info, clients, []⟩

def serverWrFin (info : Sockinfo) (clients : Clients) : Except Trap (Handled Clients) :=
  match info.state with
  | .mssReqfwd => handleReqWrFin info clients
  | .mssRspwr => handleRspWrFin info clients
  | _ => .ok ⟨.hsDel, info, clients, []⟩

end Handlers

def serverHi (lib : Sorting.Library Client) : HandlerInfo Clients where
  rdFin := serverRdFin lib
  wrFin := fun _ => serverWrFin

end Middfs
