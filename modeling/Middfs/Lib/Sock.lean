import Middfs.Lib.Buf

/-!
# The socket array

`middfs-sock.c`.  `middfs_socks_poll` allocates an array of pollfds, makes the
`revents` pointers of the ends it polls on point into it, and frees it; a
pointer into such an array is a `Slot`, which names the array and the place in
it, so that a pointer left over from an earlier call can be told apart.  A
function that closes descriptors also gives the list of them.
-/

set_option autoImplicit false

namespace Middfs

inductive SockType where
  | mfdNone
  | mfdPktIn
  | mfdPktOut
  | mfdLstn
  deriving DecidableEq, Repr

inductive SockState where
  | mssNone
  | mssClosed
  | mssLstn
  | mssReqrd
  | mssRspwr
  | mssReqfwd
  | mssRspfwd
  deriving DecidableEq, Repr

/-- A mask of poll(2) events. -/
structure Revents where
  pollin : Bool := false
  pollout : Bool := false
  pollerr : Bool := false
  pollhup : Bool := false
  deriving DecidableEq, Repr

def Revents.none : Revents := {}

def Revents.or (a b : Revents) : Revents where
  pollin := a.pollin || b.pollin
  pollout := a.pollout || b.pollout
  pollerr := a.pollerr || b.pollerr
  pollhup := a.pollhup || b.pollhup

structure Slot where
  array : Nat
  index : Nat
  deriving DecidableEq, Repr

structure Sockend where
  fd : Int
  buf : Buffer
  revents : Option Slot
  deriving DecidableEq

structure Sockinfo where
  type : SockType
  state : SockState
  inEnd : Sockend
  outEnd : Sockend
  revents : Revents
  deriving DecidableEq

/-- The elements in use are the list `sockinfos`; `spare` more are allocated. -/
structure Socks where
  sockinfos : List Sockinfo
  spare : Nat
  deriving DecidableEq

def Socks.count (socks : Socks) : Nat := socks.sockinfos.length

def Socks.len (socks : Socks) : Nat := socks.count + socks.spare

def socksInit : Socks := { sockinfos := [], spare := 0 }

/-! ## Entries -/

def sockendInit (fd : Int) : Sockend := { fd := fd, buf := bufferInit, revents := none }

def sockendDelete (sockend : Sockend) : Except Trap (Sockend × List Int) :=
  match bufferDelete sockend.buf with
  | .error trap => .error trap
  | .ok buf =>
      if sockend.fd ≥ 0 then .ok ({ sockend with buf := buf, fd := -1 }, [sockend.fd])
      else .ok ({ sockend with buf := buf }, [])

def sockendIsopen (sockend : Sockend) : Bool := decide (sockend.fd ≥ 0)

def sockinfoIsopen (info : Sockinfo) : Bool :=
  sockendIsopen info.inEnd || sockendIsopen info.outEnd

/-- `revents` is left uninitialised; it is set before it is used. -/
def sockinfoInit (type : SockType) (fdIn fdOut : Int) : Except Trap Sockinfo :=
  let made (state : SockState) : Sockinfo :=
    { type := type, state := state, inEnd := sockendInit fdIn, outEnd := sockendInit fdOut,
      revents := Revents.none }
  match type with
  | .mfdNone => .ok (made .mssNone)
  | .mfdPktIn => .ok (made .mssReqrd)
  | .mfdLstn => .ok (made .mssLstn)
  | .mfdPktOut => .error .abort

def sockinfoDelete (info : Sockinfo) : Except Trap (Sockinfo × List Int) :=
  match sockendDelete info.inEnd with
  | .error trap => .error trap
  | .ok (inEnd, closedIn) =>
      match sockendDelete info.outEnd with
      | .error trap => .error trap
      | .ok (outEnd, closedOut) =>
          .ok ({ info with type := .mfdNone, inEnd := inEnd, outEnd := outEnd },
            closedIn ++ closedOut)

/-- `middfs_sockinfo_move` from `src` to another entry: what `dst` and `src` hold
then. -/
def sockinfoMove (src : Sockinfo) : Sockinfo × Sockinfo :=
  (src,
    { type := .mfdNone, state := .mssNone, inEnd := sockendInit (-1), outEnd := sockendInit (-1),
      revents := src.revents })

def sizeofSockinfo : Nat := 96

/-- To a length that is not below the number of elements in use. -/
def socksResize (realloc : Nat → Bool) (newlen : Nat) (socks : Socks) : Option Socks :=
  if realloc (newlen * sizeofSockinfo) then some { socks with spare := newlen - socks.count }
  else none

/-- `none` is a failure. -/
def socksAdd (realloc : Nat → Bool) (info : Sockinfo) (socks : Socks) : Option Socks :=
  match (if socks.count = socks.len then socksResize realloc (max (2 * socks.len) 16) socks
    else some socks) with
  | none => none
  | some socks => some { sockinfos := socks.sockinfos ++ [info], spare := socks.spare - 1 }

/-- `middfs_socks_remove` of every entry: the entries, each with the descriptors
closed for it.  The array is then freed. -/
def socksDelete (socks : Socks) : Except Trap (List (Sockinfo × List Int)) :=
  socks.sockinfos.mapM sockinfoDelete

/-! ## Packing -/

/-- The inner loop of `middfs_socks_pack`, from `open_index` on: the entry to be
stored in the closed one, and the entries once it has been moved away. -/
def socksPackFind : List Sockinfo → Option (Sockinfo × List Sockinfo)
  | [] => none
  | info :: infos =>
      if sockinfoIsopen info then
        let (dst, src) := sockinfoMove info
        some (dst, src :: infos)
      else (socksPackFind infos).map fun (dst, infos) => (dst, info :: infos)

/-- The outer loop, `left` iterations before its end: the entries from
`closed_index` on, and by how much `nopen` grows. -/
def socksPackLoop : Nat → List Sockinfo → List Sockinfo × Nat
  | 0, infos => (infos, 0)
  | _ + 1, [] => ([], 0)
  | left + 1, info :: infos =>
      if sockinfoIsopen info then
        let (packed, nopen) := socksPackLoop left infos
        (info :: packed, nopen + 1)
      else
        match socksPackFind infos with
        | none =>
            let (packed, nopen) := socksPackLoop left infos
            (info :: packed, nopen)
        | some (dst, infos) =>
            let (packed, nopen) := socksPackLoop left infos
            (dst :: packed, nopen)

/-- `nopen` becomes the count, and is returned. -/
def socksPack (socks : Socks) : Socks × Nat :=
  let (packed, nopen) := socksPackLoop socks.count socks.sockinfos
  ({ sockinfos := packed.take nopen, spare := socks.len - nopen }, nopen)

/-! ## Polling -/

inductive Polarity where
  | pollin
  | pollout
  deriving DecidableEq, Repr

structure Pollfd where
  fd : Int
  events : Polarity
  deriving DecidableEq, Repr

/-- `nfds_used`, and the pollfds filled in. -/
structure Polled where
  used : Nat
  pfds : List Pollfd
  deriving DecidableEq, Repr

section Pollfds
variable (array nfds : Nat)

def sockendPollfd (polarity : Polarity) (sockend : Sockend) (polled : Polled) :
    Except Trap (Sockend × Polled) :=
  if sockend.fd ≥ 0 then
    if sizerem nfds polled.used > 0 then
      .ok ({ sockend with revents := some ⟨array, polled.used⟩ },
        ⟨polled.used + 1, polled.pfds ++ [⟨sockend.fd, polarity⟩]⟩)
    else .ok (sockend, ⟨polled.used + 1, polled.pfds⟩)
  else .error .assertFail

def SockState.watchesIn (state : SockState) : Bool :=
  state == .mssLstn || state == .mssReqrd || state == .mssRspfwd

def SockState.watchesOut (state : SockState) : Bool :=
  state == .mssRspwr || state == .mssReqfwd

/-- The two statements under an `if`. -/
def sockinfoPollfdsIn (info : Sockinfo) (polled : Polled) : Except Trap (Sockinfo × Polled) :=
  if info.state.watchesIn then
    match sockendPollfd array nfds .pollin info.inEnd polled with
    | .error trap => .error trap
    | .ok (inEnd, polled) => .ok ({ info with inEnd := inEnd }, polled)
  else .ok (info, polled)

def sockinfoPollfdsOut (info : Sockinfo) (polled : Polled) : Except Trap (Sockinfo × Polled) :=
  if info.state.watchesOut then
    match sockendPollfd array nfds .pollout info.outEnd polled with
    | .error trap => .error trap
    | .ok (outEnd, polled) => .ok ({ info with outEnd := outEnd }, polled)
  else .ok (info, polled)

/-- `*errp` is never set, so it is left out. -/
def sockinfoPollfds (info : Sockinfo) (polled : Polled) : Except Trap (Sockinfo × Polled) :=
  if info.type = .mfdNone then .ok (info, polled)
  else
    match sockinfoPollfdsIn array nfds info polled with
    | .error trap => .error trap
    | .ok (info, polled) => sockinfoPollfdsOut array nfds info polled

def socksPollfds : List Sockinfo → Polled → Except Trap (List Sockinfo × Polled)
  | [], polled => .ok ([], polled)
  | info :: infos, polled =>
      match sockinfoPollfds array nfds info polled with
      | .error trap => .error trap
      | .ok (info, polled) =>
          match socksPollfds infos polled with
          | .error trap => .error trap
          | .ok (infos, polled) => .ok (info :: infos, polled)

end Pollfds

/-- What poll(2) reports of the conditions `ready` of a descriptor: those that
were asked for, and the two that always are. -/
def Pollfd.report (pfd : Pollfd) (ready : Revents) : Revents :=
  { ready with
    pollin := ready.pollin && pfd.events == .pollin
    pollout := ready.pollout && pfd.events == .pollout }

/-- `*sockend->revents`, in the array number `array` that holds `reported`. -/
def loadRevents (array : Nat) (reported : List Revents) (revents : Option Slot) :
    Except Trap Revents :=
  match revents with
  | none => .error .wild
  | some slot =>
      if slot.array = array then
        match reported[slot.index]? with
        | none => .error .wild
        | some revents => .ok revents
      else .error .wild

section Check
variable (array : Nat) (reported : List Revents)

/-- `none` is `-1`. -/
def sockendCheck (sockend : Sockend) : Except Trap (Option Revents) :=
  if sockend.fd < 0 then .ok (some Revents.none)
  else
    match loadRevents array reported sockend.revents with
    | .error trap => .error trap
    | .ok revents => .ok (if revents.pollerr || revents.pollhup then none else some revents)

/-- `none` is `-1`, and `revents` stays as it was. -/
def sockinfoCheck (info : Sockinfo) : Except Trap (Option Sockinfo) :=
  let check (watched : Bool) (sockend : Sockend) : Except Trap (Option Revents) :=
    if watched then sockendCheck array reported sockend else .ok (some Revents.none)
  match check info.state.watchesIn info.inEnd with
  | .error trap => .error trap
  | .ok reventsIn =>
      match check info.state.watchesOut info.outEnd with
      | .error trap => .error trap
      | .ok reventsOut =>
          match reventsIn, reventsOut with
          | some reventsIn, some reventsOut =>
              .ok (some { info with revents := reventsIn.or reventsOut })
          | _, _ => .ok none

/-- The body of the loop of `middfs_socks_check`: the entry, and the descriptors
closed for it. -/
def checkEntry (info : Sockinfo) : Except Trap (Sockinfo × List Int) :=
  match sockinfoCheck array reported info with
  | .error trap => .error trap
  | .ok none => sockinfoDelete info
  | .ok (some info) => .ok (info, [])

def socksCheck (infos : List Sockinfo) : Except Trap (List (Sockinfo × List Int)) :=
  infos.mapM (checkEntry array reported)

end Check

/-- `middfs_socks_poll`, with the array of pollfds number `array`: `calloc` says
whether it can be allocated, and `ready` gives the conditions of the descriptor
in every slot, or is `none` when poll(2) fails.  `none` is `-1`. -/
def socksPoll (array : Nat) (calloc : Bool) (ready : Option (Nat → Revents))
    (infos : List Sockinfo) : Except Trap (List Sockinfo × Option (List (Sockinfo × List Int))) :=
  match socksPollfds array 0 infos ⟨0, []⟩ with
  | .error trap => .error trap
  | .ok (infos, counted) =>
      if calloc then
        match socksPollfds array counted.used infos ⟨0, []⟩ with
        | .error trap => .error trap
        | .ok (infos, filled) =>
            match ready with
            | none => .ok (infos, none)
            | some ready =>
                match socksCheck array (filled.pfds.mapIdx fun i pfd => pfd.report (ready i)) infos with
                | .error trap => .error trap
                | .ok checked => .ok (infos, some checked)
      else .ok (infos, none)

end Middfs
