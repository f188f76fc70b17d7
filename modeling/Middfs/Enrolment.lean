import Middfs.Client.Pkt
import Middfs.Registry
import Middfs.Serving

/-!
# Who has introduced himself

The registry of a running server holds what the CONNECT packets that it handled
say, whichever connections they came in on, and a request is passed on exactly if
its owner was among those who had introduced themselves by then.
-/

set_option autoImplicit false

namespace Middfs

open Runs Sorting

section Server
variable (lib : Library Client)

def enrolled (delivery : Delivery Clients) : Option Client :=
  if delivery.pkt.mpktType = mpktConnectType then
    match delivery.calls.peername, handleConnect lib delivery.calls.malloc delivery.calls.realloc
      delivery.calls.peername delivery.pkt.mpktConnect delivery.state with
    | some ip, .ok (some _) => entryOf (delivery.pkt.mpktConnect, ip)
    | _, _ => none
  else none

/-- What the registry holds after a history that began with `registry`. -/
structure Remembers (registry : Clients) (history : List (Delivery Clients)) (clients : Clients) : Prop where
  entries : clients.vec.Perm (registry.vec ++ history.filterMap (enrolled lib))
  sorted : Sorted clientCmp clients.vec

/-- The users who were there from the beginning, or have introduced themselves. -/
def introduced (registry : Clients) (history : List (Delivery Clients)) : List CStr :=
  (registry.vec ++ history.filterMap (enrolled lib)).map Client.username

variable {lib} {registry clients : Clients} {history : List (Delivery Clients)}

theorem Remembers.others (remembers : Remembers lib registry history clients) {delivery : Delivery Clients}
    (none_ : enrolled lib delivery = none) : Remembers lib registry (history ++ [delivery]) clients where
  entries := by
    rw [List.filterMap_append, List.filterMap_cons, none_, List.filterMap_nil, List.append_nil]
    exact remembers.entries
  sorted := remembers.sorted

theorem enrolled_of_type {delivery : Delivery Clients}
    (type : delivery.pkt.mpktType ≠ mpktConnectType) : enrolled lib delivery = none := if_neg type

theorem RequestServed.state {calls : Calls} {info : Sockinfo} {pkt : Packet} {handled : Handled Clients}
    (served : RequestServed lib calls info pkt clients (.ok handled)) : handled.state = clients := by
  cases served with
  | root _ _ queued =>
      obtain ⟨_, _, rfl, _⟩ := queuePacket_cases queued
      rfl
  | unregistered _ _ _ _ queued =>
      obtain ⟨_, _, rfl, _⟩ := queuePacket_cases queued
      rfl
  | unconnected _ _ _ _ _ _ _ => rfl
  | forwarded _ _ _ _ _ _ _ queued =>
      obtain ⟨_, _, rfl, _⟩ := queuePacket_cases queued
      rfl

/-- What a CONNECT packet does to the registry. -/
theorem Remembers.connect (remembers : Remembers lib registry history clients) {delivery : Delivery Clients}
    (here : delivery.state = clients) (type : delivery.pkt.mpktType = mpktConnectType)
    {after : Handled Clients}
    (done : handleConnectFin lib delivery.calls delivery.info delivery.pkt delivery.state = .ok after) :
    Remembers lib registry (history ++ [delivery]) after.state := by
  unfold handleConnectFin at done
  split at done
  · cases done
  · rename_i refused
    cases done
    refine (here.symm ▸ remembers).others ?_
    rw [enrolled, if_pos type, refused]
    cases delivery.calls.peername <;> rfl
  · rename_i added handled
    cases done
    cases peer : delivery.calls.peername with
    | none =>
        rw [peer] at handled
        cases handled
    | some ip =>
        have adds := handled
        rw [peer] at adds
        obtain ⟨client, entry, vec⟩ := handleConnect_adds lib adds
        have enrols : enrolled lib delivery = some client := by
          rw [enrolled, if_pos type, handled, peer]
          exact entry
        refine ⟨?_, ?_⟩
        · show added.vec.Perm _
          rw [vec, clientsSort, List.filterMap_append, List.filterMap_cons, enrols, List.filterMap_nil,
            ← List.append_assoc, here]
          exact (lib.perm clientCmp _).trans (remembers.entries.append_right [client])
        · show Sorted clientCmp added.vec
          rw [vec]
          exact lib.sorted clientCmp _ clientCmp_consistent

theorem serverRdFin_state {calls : Calls} {info : Sockinfo} {pkt : Packet} {handled : Handled Clients}
    (type : pkt.mpktType ≠ mpktConnectType)
    (done : serverRdFin lib calls info pkt clients = .ok handled) : handled.state = clients := by
  cases serverRdFin_cases lib done with
  | connect _ connects _ => exact absurd connects type
  | request _ _ served => exact served.state
  | response _ _ queued =>
      obtain ⟨_, _, rfl, _⟩ := queuePacket_cases queued
      rfl
  | unknown => rfl

theorem serverRdFin_connect {calls : Calls} {info : Sockinfo} {pkt : Packet} {handled : Handled Clients}
    (type : pkt.mpktType = mpktConnectType)
    (done : serverRdFin lib calls info pkt clients = .ok handled) :
    handleConnectFin lib calls info pkt clients = .ok handled := by
  rw [serverRdFin, if_pos type] at done
  exact done

theorem remembers_of_chained (sorted : Sorted clientCmp registry.vec)
    (chained : Chained (serverHi lib) registry history clients) :
    Remembers lib registry history clients := by
  induction chained with
  | start => exact ⟨by simp, sorted⟩
  | next history delivery after _ done ih =>
      by_cases type : delivery.pkt.mpktType = mpktConnectType
      · exact ih.connect rfl type (serverRdFin_connect type done)
      · rw [serverRdFin_state type done]
        exact ih.others (enrolled_of_type type)

theorem sorted_of_event (sorted : Sorted clientCmp clients.vec) {calls : Calls} {info : Sockinfo}
    {handled : Handled Clients}
    (done : handlePktEvent (serverHi lib) calls info clients = .ok handled) :
    Sorted clientCmp handled.state.vec := by
  have recounted := handlePktEvent_recounted done
  generalize handedOver calls info = delivered at recounted
  cases delivered with
  | none =>
      rw [state_of_recounted (Program.server lib).settled recounted]
      exact sorted
  | some both =>
      cases recounted with
      | complete buf bytes s after _ _ _ _ finished =>
          by_cases type : s.obj.mpktType = mpktConnectType
          · have start : Remembers lib clients [] clients := ⟨by simp, sorted⟩
            exact (@Remembers.connect lib clients clients [] start
              ⟨0, calls, info.withIn (bufferShift buf s.used), s.obj, clients⟩ rfl type after
              (serverRdFin_connect type finished)).sorted
          · have same : after.state = clients := serverRdFin_state type finished
            show Sorted clientCmp after.state.vec
            rw [same]
            exact sorted

theorem Chained.before {κ : Type} {hi : HandlerInfo κ} {start state : κ}
    {before later : List (Delivery κ)} {delivery : Delivery κ} {whole : List (Delivery κ)}
    (chained : Chained hi start whole state) (parts : whole = before ++ delivery :: later) :
    Chained hi start before delivery.state ∧
      ∃ after, hi.rdFin delivery.calls delivery.info delivery.pkt delivery.state = .ok after := by
  induction chained generalizing later with
  | start => exact absurd parts.symm (List.append_ne_nil_of_right_ne_nil _ (List.cons_ne_nil _ _))
  | next history last after earlier done ih =>
      rcases List.eq_nil_or_concat later with rfl | ⟨rest, final, rfl⟩
      · obtain ⟨rfl, same⟩ := List.append_inj' parts rfl
        cases same
        exact ⟨earlier, after, done⟩
      · rw [List.concat_eq_append, ← List.cons_append, ← List.append_assoc] at parts
        exact ih (List.append_inj' parts rfl).1

/-- Somebody is found exactly when he has introduced himself. -/
theorem Remembers.find (remembers : Remembers lib registry history clients) (owner : CStr) :
    clientFind lib owner clients = none ↔ owner ∉ introduced lib registry history := by
  rw [clientFind_none lib remembers.sorted owner, List.any_eq_false]
  have names := (remembers.entries.map Client.username).mem_iff (a := owner)
  rw [introduced, ← names, List.mem_map]
  constructor
  · rintro nobody ⟨client, member, rfl⟩
    exact nobody client member (decide_eq_true rfl)
  · intro nobody client member same
    exact nobody ⟨client, member, (Option.some.inj (of_decide_eq_true same)).symm⟩

theorem Remembers.request (remembers : Remembers lib registry history clients) {calls : Calls} {info : Sockinfo}
    {pkt : Packet} {handled : Handled Clients} {owner : CStr} (type : pkt.mpktType = mpktRequestType)
    (name : lookedUp pkt.mpktRequest = some owner)
    (done : serverRdFin lib calls info pkt clients = .ok handled) :
    (owner ∈ introduced lib registry history → handled.info.state = .mssReqfwd) ∧
      (owner ∉ introduced lib registry history → handled.info.state = .mssRspwr) := by
  have found := remembers.find owner
  rw [serverRdFin, type, if_neg (by decide), if_neg (by decide), if_pos rfl,
    handleReqRdFin_lookedUp lib calls info pkt clients name] at done
  cases search : clientFind lib owner clients with
  | none =>
      rw [search] at done
      obtain ⟨_, _, rfl, _⟩ := queuePacket_cases done
      exact ⟨fun member => absurd member (found.mp search), fun _ => rfl⟩
  | some client =>
      have member : owner ∈ introduced lib registry history := by
        by_contra nobody
        rw [found.mpr nobody] at search
        cases search
      refine ⟨fun _ => ?_, fun nobody => absurd member nobody⟩
      rcases inetConnect_cases calls with ⟨fd, connected⟩ | ⟨events, failed, _⟩
      · simp only [search, connected] at done
        obtain ⟨_, _, rfl, _⟩ := queuePacket_cases done
        rfl
      · simp only [search, failed] at done
        cases done
        rfl

/-! ## Runs -/

/-- A connection introduces one user at most, and is then closed. -/
structure Introducing (lib : Library Client) (history : List (Delivery Clients)) (info : Sockinfo) :
    Prop where
  sound : info.Sound
  one : (history.filterMap (enrolled lib)).length ≤ 1
  closed : info.type ≠ .mfdNone → history.filterMap (enrolled lib) = []

theorem Introducing.deleted {info : Sockinfo} (deletable : info.Deletable)
    (one : (history.filterMap (enrolled lib)).length ≤ 1) : Introducing lib history info.deleted where
  sound := sound_deleted deletable (sockinfoDelete_eq deletable.inUnreleased deletable.outUnreleased)
  one := one
  closed := fun no => absurd rfl no

/-- What a packet adds to the registry is little, and the entry is deleted for it. -/
theorem enrolled_deliveredAt {index : Nat} {calls : Calls} {info : Sockinfo} {handled : Handled Clients}
    (done : handlePktEvent (serverHi lib) calls info clients = .ok handled) :
    ((deliveredAt calls index info clients).filterMap (enrolled lib)).length ≤ 1 ∧
      (handled.status ≠ .hsDel → (deliveredAt calls index info clients).filterMap (enrolled lib) = []) := by
  have recounted := handlePktEvent_recounted done
  unfold deliveredAt
  split_ifs
  · cases delivered : handedOver calls info with
    | none => exact ⟨Nat.zero_le 1, fun _ => rfl⟩
    | some both =>
        rw [delivered] at recounted
        cases recounted with
        | complete buf bytes s after _ _ _ _ finished =>
            refine ⟨(List.length_filterMap_le _ _).trans (Nat.le_refl 1), fun status => ?_⟩
            by_cases type : s.obj.mpktType = mpktConnectType
            · obtain ⟨_, rfl⟩ := handleConnectFin_cases lib (serverRdFin_connect type finished)
              exact absurd rfl status
            · have none_ : enrolled lib ⟨index, calls, info.withIn (bufferShift buf s.used), s.obj, clients⟩ =
                  none := enrolled_of_type type
              simp only [List.filterMap_cons, none_, List.filterMap_nil]
  · exact ⟨Nat.zero_le 1, fun _ => rfl⟩

theorem historic_introducing (lib : Library Client) :
    Historic (serverHi lib) (anything Clients) (fun _ => True)
      (fun _ history _ => Introducing lib history) (fun _ => True) where
  sound := fun _ _ _ _ introducing => introducing.sound
  accepted := fun _ _ fd _ => ⟨sound_accepted fd, Nat.zero_le 1, fun _ => rfl⟩
  refused := fun _ _ _ _ _ _ _ => trivial
  slots := fun _ _ _ _ _ introducing same =>
    ⟨same.sound introducing.sound, introducing.one,
      fun inUse => introducing.closed (same.type ▸ inUse)⟩
  polled := fun _ history _ info ready checked introducing _ polledTo => by
    cases polledTo with
    | kept info' revents same _ =>
        have sound := same.sound introducing.sound
        exact ⟨⟨sound.fitting, sound.unreleased⟩, introducing.one,
          fun inUse => introducing.closed (same.type ▸ inUse)⟩
    | deleted info' same inUse _ =>
        exact Introducing.deleted
          ((same.sound introducing.sound).deletable fun no => inUse (same.type.symm.trans no))
          introducing.one
  listening := fun _ _ _ info introducing type =>
    Introducing.deleted (introducing.sound.deletable (by rw [type]; intro no; cases no)) introducing.one
  event := fun index history _ calls info clients handled introducing _ type _ done => by
    have before := introducing.closed (by rw [type]; intro no; cases no)
    obtain ⟨one, kept⟩ := @enrolled_deliveredAt lib clients index _ _ _ done
    obtain ⟨sound, deletable⟩ :=
      (handlePktEvent_stepped (serverHi_turns lib) done).sound type introducing.sound
    refine ⟨trivial, fun status => ⟨sound status, ?_, fun _ => ?_⟩, fun status =>
      Introducing.deleted (deletable status) ?_⟩
    · rw [List.filterMap_append, before]
      exact one
    · rw [List.filterMap_append, before]
      exact kept status
    · rw [List.filterMap_append, before]
      exact one

/-! ## The first packet of a connection -/

/-- The packet was read over the connection that its entry was accepted for. -/
def ReadThere (delivery : Delivery Clients) (events : List Event) : Prop :=
  .accepted delivery.info.inEnd.fd ∈ events ∧
    ∃ bytes, bytes <+: receivedFrom delivery.info.inEnd.fd events ∧ Understood delivery bytes

theorem ReadThere.append {delivery : Delivery Clients} {events : List Event}
    (there : ReadThere delivery events) (more : List Event) : ReadThere delivery (events ++ more) := by
  obtain ⟨accepted, bytes, front, understood⟩ := there
  refine ⟨List.mem_append_left _ accepted, bytes, ?_, understood⟩
  rw [receivedFrom_append]
  exact front.trans (List.prefix_append _ _)

/-- How a connection begins: what is read of its first packet is in the buffer, until
that packet is complete. -/
structure Beginning (history : List (Delivery Clients)) (events : List Event) (info : Sockinfo) :
    Prop where
  sound : info.Sound
  first : ∀ delivery later, history = delivery :: later → ReadThere delivery events
  reading : info.type = .mfdPktIn → history = [] → info.state = .mssReqrd ∧
    .accepted info.inEnd.fd ∈ events ∧ receivedFrom info.inEnd.fd events = info.inEnd.buf.bytes

theorem first_append {history more : List (Delivery Clients)} {events later : List Event}
    (kept : ∀ delivery rest, history = delivery :: rest → ReadThere delivery events)
    (added : history = [] → ∀ delivery rest, more = delivery :: rest → ReadThere delivery (events ++ later)) :
    ∀ delivery rest, history ++ more = delivery :: rest → ReadThere delivery (events ++ later) := by
  intro delivery rest parts
  cases history with
  | nil => exact added rfl delivery rest parts
  | cons one others =>
      obtain ⟨rfl, _⟩ := List.cons.inj parts
      exact (kept one others rfl).append later

theorem Beginning.deleted {events : List Event} {info : Sockinfo} (deletable : info.Deletable)
    (first : ∀ delivery later, history = delivery :: later → ReadThere delivery events)
    (more : List Event) : Beginning history (events ++ more) info.deleted where
  sound := sound_deleted deletable (sockinfoDelete_eq deletable.inUnreleased deletable.outUnreleased)
  first := fun delivery later parts => (first delivery later parts).append more
  reading := fun no => by cases no

/-- An event at an entry that has not handed over any packet yet. -/
theorem Beginning.arrives {index : Nat} {events : List Event} {calls : Calls} {info : Sockinfo}
    {handled : Handled Clients} (beginning : Beginning [] events info) (type : info.type = .mfdPktIn)
    (done : handlePktEvent (serverHi lib) calls info clients = .ok handled) :
    (∀ delivery later, deliveredAt calls index info clients = delivery :: later →
        ReadThere delivery (events ++ handled.events)) ∧
      (handled.status ≠ .hsDel → deliveredAt calls index info clients = [] →
        handled.info.state = .mssReqrd ∧ .accepted handled.info.inEnd.fd ∈ events ++ handled.events ∧
          receivedFrom handled.info.inEnd.fd (events ++ handled.events) = handled.info.inEnd.buf.bytes) := by
  obtain ⟨state, accepted, received⟩ := beginning.reading type rfl
  have reading : info.state.watchesIn = true := by
    rw [state]
    rfl
  have recounted := handlePktEvent_recounted done
  rw [deliveredAt, if_pos type]
  generalize handedOver calls info = handed at recounted
  cases recounted with
  | quiet =>
      refine ⟨fun _ _ no => (by cases no), fun _ _ => ?_⟩
      rw [List.append_nil]
      exact ⟨state, accepted, received⟩
  | nothing buf _ _ => exact ⟨fun _ _ no => (by cases no), fun no => absurd rfl no⟩
  | rejected buf bytes s _ _ _ => exact ⟨fun _ _ no => (by cases no), fun no => absurd rfl no⟩
  | unfinished buf bytes s _ gathered _ _ =>
      have received' := received_gathered gathered received
      exact ⟨fun _ _ no => (by cases no), fun _ _ =>
        ⟨state, List.mem_append_left _ accepted, received'⟩⟩
  | complete buf bytes s after _ gathered clean within _ =>
      refine ⟨fun delivery later parts => ?_, fun _ no => by cases no⟩
      obtain ⟨rfl, _⟩ := List.cons.inj parts
      have there : ReadThere ⟨index, calls, info.withIn (bufferShift buf s.used), s.obj, clients⟩
          (events ++ [.received info.inEnd.fd bytes]) :=
        ⟨List.mem_append_left _ accepted, buf.bytes,
          (received_gathered gathered received).symm ▸ List.prefix_rfl,
          s, gathered.decoded, clean, by rw [buf.bytes_length]; exact within, rfl⟩
      have all := there.append after.events
      rwa [List.append_assoc] at all
  | writes _ watches _ =>
      rw [reading] at watches
      cases watches

theorem historic_beginning (lib : Library Client) :
    Historic (serverHi lib) (anything Clients) (fun _ => True) (fun _ => Beginning) Untouched where
  sound := fun _ _ _ _ beginning => beginning.sound
  accepted := fun _ events fd untouched => by
    refine ⟨sound_accepted fd, fun _ _ no => (by cases no), fun _ _ =>
      ⟨rfl, List.mem_append_right _ List.mem_cons_self, ?_⟩⟩
    rw [receivedFrom_append, (untouched _).1]
    rfl
  refused := fun events _ _ fd _ _ untouched => untouched.refused fd
  slots := fun _ _ _ _ info' beginning same => by
    refine ⟨same.sound beginning.sound, beginning.first, fun type none_ => ?_⟩
    rw [same.state, same.inFd, same.inBuf]
    exact beginning.reading (same.type.symm.trans type) none_
  polled := fun _ history events info ready checked beginning _ polledTo => by
    cases polledTo with
    | kept info' revents same _ =>
        have sound := same.sound beginning.sound
        show Beginning history (events ++ []) _
        rw [List.append_nil]
        refine ⟨⟨sound.fitting, sound.unreleased⟩, beginning.first, fun type none_ => ?_⟩
        simp only [same.state, same.inFd, same.inBuf]
        exact beginning.reading (same.type.symm.trans type) none_
    | deleted info' same inUse _ =>
        have deletable := (same.sound beginning.sound).deletable fun no => inUse (same.type.symm.trans no)
        exact Beginning.deleted deletable beginning.first _
  listening := fun _ _ _ info beginning type =>
    Beginning.deleted (beginning.sound.deletable (by rw [type]; intro no; cases no)) beginning.first _
  event := fun index history events calls info clients handled beginning _ type _ done => by
    obtain ⟨sound, deletable⟩ :=
      (handlePktEvent_stepped (serverHi_turns lib) done).sound type beginning.sound
    have arrives : history = [] → _ := fun none_ =>
      @Beginning.arrives lib clients index events calls info handled (none_ ▸ beginning) type done
    have first := first_append beginning.first fun none_ => (arrives none_).1
    refine ⟨trivial, fun status => ⟨sound status, first, fun _ none_ => ?_⟩, fun status =>
      Beginning.deleted (deletable status) first _⟩
    obtain ⟨nobody, nothing⟩ := List.append_eq_nil_iff.mp none_
    exact (arrives nobody).2 status nothing

/-! ## What a run leaves in the registry -/

structure Replays (lib : Library Client) (registry : Clients) (history : List (Delivery Clients))
    (server : Server Clients) : Prop where
  /-- The packets were handled one after the other, each with the registry that the one
  before left, -/
  chained : Chained (serverHi lib) registry history server.state
  /-- which is what the CONNECT packets among them say. -/
  remembers : Remembers lib registry history server.state
  /-- No connection introduces more than one user, -/
  once : ∀ index, ((deliveredTo index history).filterMap (enrolled lib)).length ≤ 1
  /-- and its first packet was read over it. -/
  read : ∀ index delivery later, deliveredTo index history = delivery :: later →
    ReadThere delivery (eventsAt index server.log)
  /-- A request was passed on if its owner had introduced himself by then, and answered
  by the server if not. -/
  routed : ∀ before delivery later, history = before ++ delivery :: later →
    delivery.pkt.mpktType = mpktRequestType →
    ∀ owner, lookedUp delivery.pkt.mpktRequest = some owner →
      ∃ after, serverRdFin lib delivery.calls delivery.info delivery.pkt delivery.state = .ok after ∧
        (owner ∈ introduced lib registry before → after.info.state = .mssReqfwd) ∧
        (owner ∉ introduced lib registry before → after.info.state = .mssRspwr)

/-- The registry is, in every run of the server, what the CONNECT packets that it read
make of the registry at the start. -/
theorem registry_replays (lib : Library Client) {realloc : Nat → Bool} {servsock : Nat}
    {registry : Clients} (sorted : Sorted clientCmp registry.vec) {server : Server Clients}
    {running : Running Clients} {history : List (Delivery Clients)}
    (started : serverStart realloc servsock registry = .ok (some server))
    (run : Reached (recording (advance (serverHi lib)) deliveries) (fun _ _ => True)
      (⟨server, 0, 0⟩, []) (running, history)) :
    Replays lib registry history running.server := by
  have chained := chained_runs (serverHi_turns lib) (Program.server lib).settled run
    fun info member => (serverStart_entries started info member).1
  rw [(serverStart_starts started).state] at chained
  have meets : Reached (recording (advance (serverHi lib)) deliveries)
      (fun moment recorded => (anything Clients).Meets moment recorded.1)
      (⟨server, 0, 0⟩, []) (running, history) :=
    run.mono fun moment recorded _ => anything_meets moment recorded.1
  have introducing := (historic_introducing lib).runs (serverHi_turns lib) meets
    (histories_started started trivial ⟨sound_listens servsock, Nat.zero_le 1, fun _ => rfl⟩ trivial)
  have beginning := (historic_beginning lib).runs (serverHi_turns lib) meets
    (histories_started started trivial
      ⟨sound_listens servsock, fun _ _ no => (by cases no), fun no => (by cases no)⟩
      fun _ => ⟨rfl, rfl⟩)
  refine ⟨chained, remembers_of_chained sorted chained, fun index => ?_,
    fun index delivery later parts => ?_, ?_⟩
  · by_cases inside : index < running.server.socks.count
    · exact (introducing.entries index _ (List.getElem?_eq_getElem inside)).one
    · rw [(introducing.beyond index (Nat.le_of_not_lt inside)).2]
      exact Nat.zero_le 1
  · by_cases inside : index < running.server.socks.count
    · exact (beginning.entries index _ (List.getElem?_eq_getElem inside)).first delivery later parts
    · rw [(beginning.beyond index (Nat.le_of_not_lt inside)).2] at parts
      cases parts
  · intro before delivery later parts type owner name
    obtain ⟨earlier, after, done⟩ := chained.before parts
    exact ⟨after, done, (remembers_of_chained sorted earlier).request type name done⟩

end Server

/-- User `b` introduces himself over the first connection, and a request for him comes in
over the second. -/
def introduction : List Moment :=
  connectionOn 4 ++
    takingIn { grantedCalls with peername := some loopback } (connectPacket (some userB) 4001).wire
      [0, 1, 2, 4, 8] ++
    [⟨true, some fun slot => if slot = 0 then { pollin := true } else Revents.none, grantedCalls⟩,
      ⟨true, none, { grantedCalls with accept := some 5 }⟩, ⟨true, none, grantedCalls⟩] ++
    [0, 1, 2, 4, 8, 16].flatMap fun offset => happening { pollin := true } { pollin := true }
      [grantedCalls, grantedCalls,
        { grantedCalls with
          socket := some 6
          connect := true
          read := .bytes (inquiry.image.drop offset) }]

structure Introduction (server : Server Clients) (running : Running Clients)
    (history : List (Delivery Clients)) : Prop where
  started : serverStart (fun _ => true) 3 clientsInit = .ok (some server)
  runs : steps (recording (advance (serverHi (simpleLibrary Client))) deliveries) introduction
    (⟨server, 0, 0⟩, []) = .ok (running, history)
  handed : history.map (fun delivery => (delivery.index, delivery.pkt.mpktType)) =
    [(1, mpktConnectType), (2, mpktRequestType)]
  names : running.server.state.vec = [⟨userB, loopback, 4001⟩]
  forwarded : (running.server.socks.sockinfos[2]?.map Sockinfo.state) = some .mssReqfwd

theorem registry_replays_introduction : ∃ server running history,
    Introduction server running history ∧
    Replays (simpleLibrary Client) clientsInit history running.server := by
  have first : ∃ server running history, Introduction server running history :=
    ⟨_, _, _, rfl, rfl, rfl, rfl, rfl⟩
  obtain ⟨server, running, history, introduction⟩ := first
  exact ⟨server, running, history, introduction, registry_replays (simpleLibrary Client)
    (show Sorted clientCmp clientsInit.vec from List.Pairwise.nil) introduction.started
    (.of_steps introduction.runs)⟩

end Middfs
