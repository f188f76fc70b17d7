import Middfs.Lib.Buf
import Middfs.Lib.Conf

/-!
# Exchanging packets with the server

The functions of `middfs-client-pkt.c` that talk to the server, and
`client_connect` of `middfs-client.c`.  The calls to read(2) and write(2) on the
connection give the results in `reads` and `writes`, in that order; a function
gives `none` when it would need more calls than there are results.  What is
printed is left out.
-/

set_option autoImplicit false

namespace Middfs

def eintr : Nat := 4

/-- The loop of `packet_send`: what it put on the wire, and the value of `retv` at its
end. -/
def packetSendLoop : List WriteResult → Buffer → List UInt8 × Option Int
  | writes, buf =>
      if bufferIsempty buf then ([], some 0)
      else
        match writes with
        | [] => ([], none)
        | result :: writes =>
            match bufferWrite result buf, result with
            | (buf, none), .error errno =>
                if errno.val ≠ eintr then ([], some (-errno.val)) else packetSendLoop writes buf
            | (buf, bytes), _ =>
                let (later, retv) := packetSendLoop writes buf
                (bytes.getD [] ++ later, retv)

/-- What was put on the wire, and `0` or the negated error code, which is also what
`errno` is then. -/
def packetSend (realloc : Nat → Bool) (writes : List WriteResult) (pkt : Packet) :
    Except Trap (List UInt8 × Option Int) :=
  match bufferSerialize realloc (serializePkt pkt) bufferInit with
  | .error trap => .error trap
  | .ok (_, none) => .ok ([], some (-enomem))
  | .ok (buf, some _) => .ok (packetSendLoop writes buf)

/-- The loop of `packet_recv`, with the value of `retv` at its end. -/
def packetRecvLoop (malloc realloc : Nat → Bool) (fd : Int) :
    List ReadResult → Buffer → Packet → Except Trap (Option (Int × Packet))
  | reads, buf, pkt =>
      match bufferDeserialize malloc buf pkt with
      | .error trap => .error trap
      | .ok (retv, buf, pkt) =>
          if retv > 0 then
            match reads with
            | [] => .ok none
            | result :: reads =>
                match bufferRead realloc fd result buf with
                | .error trap => .error trap
                | .ok (_, none) => .ok (some (retv, pkt))
                | .ok (buf, some bytes) =>
                    if bytes = [] then .ok (some (retv, pkt))
                    else packetRecvLoop malloc realloc fd reads buf pkt
          else .ok (some (retv, pkt))

/-- The value returned, and the packet.  Decoding only fails when an allocation
does, which sets `errno`. -/
def packetRecv (malloc realloc : Nat → Bool) (fd : Int) (reads : List ReadResult) (pkt : Packet) :
    Except Trap (Option (Int × Packet)) :=
  match packetRecvLoop malloc realloc fd reads bufferInit pkt with
  | .error trap => .error trap
  | .ok none => .ok none
  | .ok (some (retv, pkt)) => .ok (some (if retv < 0 then -enomem else retv, pkt))

/-- What `packet_xchg` finds outside: whether the server's address and port are
configured, what `inet_connect` returns, and what the writes do. -/
structure Connection where
  configured : Bool
  connected : Except Errno Int
  writes : List WriteResult

def packetXchg (malloc realloc : Nat → Bool) (server : Connection) (reads : List ReadResult)
    (outPkt inPkt : Packet) : Except Trap (Option (Int × Packet)) :=
  if server.configured then
    match server.connected with
    | .error errno => .ok (some (-errno.val, inPkt))
    | .ok fd =>
        match packetSend realloc server.writes outPkt with
        | .error trap => .error trap
        | .ok (_, none) => .ok none
        | .ok (_, some sent) =>
            if sent < 0 then .ok (some (sent, inPkt))
            else
              match packetRecv malloc realloc fd reads inPkt with
              | .error trap => .error trap
              | .ok none => .ok none
              | .ok (some (received, inPkt)) =>
                  if received < 0 then .ok (some (received, inPkt)) else .ok (some (0, inPkt))
  else .error .assertFail

/-! ## Introducing oneself -/

def connectPacket (username : Option CStr) (port : UInt32) : Packet :=
  { mpktMagic := mpktMagicNumber
    mpktType := mpktConnectType
    mpktConnect := { name := username, port := port } }

/-- The loop of `client_connect`: what it put on the wire, and whether it came to
its end. -/
def clientConnectLoop : List WriteResult → Buffer → List UInt8 × Bool
  | writes, buf =>
      if bufferIsempty buf then ([], true)
      else
        match writes with
        | [] => ([], false)
        | result :: writes =>
            match bufferWrite result buf with
            | (_, none) => ([], true)
            | (buf, some bytes) =>
                let (later, ended) := clientConnectLoop writes buf
                (bytes ++ later, ended)

def middfsConfLocalport : List UInt8 := [108, 111, 99, 97, 108, 112, 111, 114, 116]

/-- The port that `client_connect` finds in the configuration, `none` if that is
an error. -/
def clientConnectPort (malloc : Nat → Bool) (env : Env) : Option UInt32 :=
  let (port, err) := confGetUint32 malloc middfsConfLocalport 0 env
  if err = 0 then some port else none

/-- What was put on the wire, and the value returned.  `connected` is what
`inet_connect` returns and `localport` what is configured, `none` if that is not
a number. -/
def clientConnect (realloc : Nat → Bool) (connected : Except Errno Int) (localport : Option UInt32)
    (writes : List WriteResult) (username : Option CStr) :
    Except Trap (List UInt8 × Option Int) :=
  match connected with
  | .error _ => .ok ([], some (-1))
  | .ok _ =>
      match localport with
      | none => .ok ([], some (-1))
      | some port =>
          match bufferSerialize realloc (serializePkt (connectPacket username port)) bufferInit with
          | .error trap => .error trap
          | .ok (_, none) => .ok ([], some (-1))
          | .ok (buf, some _) =>
              let (wire, ended) := clientConnectLoop writes buf
              .ok (wire, if ended then some 0 else none)

end Middfs
