import Middfs.Lib.Deserialize
import Middfs.Sorting

/-!
# The registry of connected clients

`middfs-client.c`.  The elements in use are the list `vec`, whose length is
`cnt`; `len` is the length of the allocated vector.
-/

set_option autoImplicit false

namespace Middfs

/-- `strcmp` on strings whose NUL is left out: the difference of the first bytes
that differ. -/
def strcmpBytes : List UInt8 → List UInt8 → Int
  | [], [] => 0
  | [], b :: _ => -(b.toNat : Int)
  | a :: _, [] => a.toNat
  | a :: as, b :: bs => if a = b then strcmpBytes as bs else a.toNat - b.toNat

def strcmp (s1 s2 : CStr) : Int := strcmpBytes s1.val s2.val

structure Client where
  username : CStr
  ip : CStr
  port : UInt32
  deriving DecidableEq

def sizeofClient : Nat := 24

structure Clients where
  vec : List Client
  len : Nat
  room : vec.length ≤ len
  small : len * sizeofClient < 2 ^ 63
  deriving DecidableEq

def Clients.cnt (clients : Clients) : Nat := clients.vec.length

theorem noClients_room : ([] : List Client).length ≤ 0 := Nat.le_refl 0

theorem noClients_small : 0 * sizeofClient < 2 ^ 63 := by decide

def clientsInit : Clients :=
  { vec := [], len := 0, room := noClients_room, small := noClients_small }

/-- `peer` is the address that getpeername(2) and `inet_ntoa` give, or `none`.
A name that is NULL brings `strdup` down. -/
def clientCreate (malloc : Nat → Bool) (peer : Option CStr) (conn : Connect) :
    Except Trap (Option Client) :=
  match peer with
  | none => .ok none
  | some ip =>
      match conn.name with
      | none => .error .wild
      | some name =>
          if malloc (name.val.length + 1) ∧ malloc (ip.val.length + 1) then
            .ok (some { username := name, ip := ip, port := conn.port })
          else .ok none

def clientCmp (c1 c2 : Client) : Int := strcmp c1.username c2.username

/-- `clients_resize` to a length greater than the number of elements in use,
none of which is removed then. -/
def clientsResize (realloc : Nat → Bool) (clients : Clients) (newlen : Nat)
    (room : clients.vec.length < newlen) :
    Option {grown : Clients // grown.vec.length < grown.len} :=
  if granted : realloc (newlen * sizeofClient) = true ∧ newlen * sizeofClient < 2 ^ 63 then
    some
      ⟨{ clients with len := newlen, room := Nat.le_of_lt room, small := granted.2 }, room⟩
  else none

/-- The first step of `clients_add`: a vector with room for one more. -/
def clientsGrow (realloc : Nat → Bool) (clients : Clients) :
    Option {grown : Clients // grown.vec.length < grown.len} :=
  if full : clients.cnt = clients.len then
    clientsResize realloc clients (max 1 (clients.len * 2)) (by have room := clients.room; omega)
  else
    some ⟨clients, Nat.lt_of_le_of_ne clients.room full⟩

section Library
variable (lib : Sorting.Library Client)

def clientsSort (vec : List Client) : List Client := lib.qsort clientCmp vec

/-- `none` is a failure. -/
def clientsAdd (realloc : Nat → Bool) (client : Client) (clients : Clients) : Option Clients :=
  match clientsGrow realloc clients with
  | none => none
  | some ⟨grown, room⟩ =>
      some
        { vec := clientsSort lib (grown.vec ++ [client])
          len := grown.len
          room := by
            rw [clientsSort, (lib.perm clientCmp _).length_eq, List.length_append]
            exact room
          small := grown.small }

/-- `clients_remove` from a vector that ends with `last`: the last element takes
the place of the one that is removed. -/
def clientsFill (index : Nat) (last : Client) (vec : List Client) : List Client :=
  if index < vec.length - 1 then clientsSort lib (vec.set index last).dropLast else vec.dropLast

theorem clientsFill_length (index : Nat) (last : Client) (vec : List Client) :
    (clientsFill lib index last vec).length = vec.length - 1 := by
  unfold clientsFill clientsSort
  split_ifs
  · rw [(lib.perm clientCmp _).length_eq, List.length_dropLast, List.length_set]
  · rw [List.length_dropLast]

def clientsRemove (index : Nat) (clients : Clients) : Except Trap Clients :=
  match clients.vec.getLast? with
  | none => .error .wild
  | some last =>
      if index < clients.cnt then
        .ok
          { clients with
            vec := clientsFill lib index last clients.vec
            room := by
              have room := clients.room
              rw [clientsFill_length]
              omega }
      else .error .wild

/-- The key is a client of which only the name is used. -/
def clientFind (username : CStr) (clients : Clients) : Option Client :=
  lib.bsearch clientCmp { username := username, ip := username, port := 0 } clients.vec

end Library

/-- `S_IFDIR | S_IROTH | S_IRGRP | S_IRUSR | S_IWUSR`. -/
def clientDirMode : Int32 := 0o040644

/-- A `strdup` that fails leaves a NULL name behind. -/
def clientDirent (malloc : Nat → Bool) (client : Client) : Dirent where
  mdeName := if malloc (client.username.val.length + 1) then some client.username else none
  mdeMode := clientDirMode

/-- `none` is a failure. -/
def clientsReaddir (malloc : Nat → Bool) (clients : Clients) : Option Dir :=
  if malloc (clients.cnt * sizeofDirent) then
    some
      { mdirCount := UInt64.ofNat clients.cnt
        mdirEnts := some (clients.vec.map (clientDirent malloc)) }
  else none

/-- `handle_connect`, as far as the registry goes; the socket is deleted in any
case.  `none` is a failure. -/
def handleConnect (lib : Sorting.Library Client) (malloc realloc : Nat → Bool) (peer : Option CStr)
    (conn : Connect) (clients : Clients) : Except Trap (Option Clients) :=
  match clientCreate malloc peer conn with
  | .error trap => .error trap
  | .ok none => .ok none
  | .ok (some client) => .ok (clientsAdd lib realloc client clients)

end Middfs
