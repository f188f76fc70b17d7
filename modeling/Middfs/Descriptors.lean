import Middfs.Decode.Soundness
import Middfs.PollSet
import Middfs.Registry

/-!
# Open descriptors

The log says which descriptors the server opened and closed.  Those that it
opened and did not close should be the ones that its entries hold, each held
once.  Every step keeps the two in balance but two: a socket that does not
connect is forgotten, and a request that is read where a response is waited for
makes the server forget the requester.
-/

set_option autoImplicit false

namespace Middfs

open Runs

/-! ## What is opened and closed -/

def Event.opens : Event → Option Int
  | .accepted fd | .created fd => some fd
  | .closed _ | .received _ _ | .sent _ _ => none

def Event.closes : Event → Option Int
  | .closed fd => some fd
  | .accepted _ | .created _ | .received _ _ | .sent _ _ => none

def opened (events : List Event) : List Int := events.filterMap Event.opens

def closed (events : List Event) : List Int := events.filterMap Event.closes

def IsOpen (log : List (Nat × Event)) (fd : Int) : Prop :=
  (closed (log.map Prod.snd)).count fd < (opened (log.map Prod.snd)).count fd

theorem opened_append (events more : List Event) :
    opened (events ++ more) = opened events ++ opened more := List.filterMap_append

theorem closed_append (events more : List Event) :
    closed (events ++ more) = closed events ++ closed more := List.filterMap_append

theorem opened_closing (fds : List Int) : opened (fds.map .closed) = [] := by
  induction fds with
  | nil => rfl
  | cons fd fds ih => exact ih

theorem closed_closing (fds : List Int) : closed (fds.map .closed) = fds := by
  induction fds with
  | nil => rfl
  | cons fd fds ih => exact congrArg (fd :: ·) ih

theorem map_snd_tagged (index : Nat) (events : List Event) :
    (tagged index events).map Prod.snd = events := by
  rw [tagged, List.map_map]
  exact List.map_id events

/-! ## Balance -/

def Balance (before after : List Int) (events : List Event) : Prop :=
  (before ++ opened events).Perm (closed events ++ after)

theorem balance_none {before after : List Int} (same : before.Perm after) : Balance before after [] := by
  show (before ++ []).Perm ([] ++ after)
  rw [List.append_nil]
  exact same

theorem Balance.trans {before between after : List Int} {events more : List Event}
    (first : Balance before between events) (second : Balance between after more) :
    Balance before after (events ++ more) := by
  unfold Balance at *
  rw [opened_append, closed_append, ← List.append_assoc, List.append_assoc (closed events)]
  calc (before ++ opened events ++ opened more).Perm (closed events ++ between ++ opened more) :=
        first.append_right _
    _ = closed events ++ (between ++ opened more) := List.append_assoc _ _ _
    List.Perm _ (closed events ++ (closed more ++ after)) := second.append_left _

theorem Balance.frame {before after : List Int} {events : List Event}
    (balance : Balance before after events) (front back : List Int) :
    Balance (front ++ before ++ back) (front ++ after ++ back) events := by
  unfold Balance at *
  have inner : (front ++ (before ++ opened events) ++ back).Perm
      (front ++ (closed events ++ after) ++ back) := (balance.append_left front).append_right back
  refine List.Perm.trans ?_ (inner.trans ?_)
  · simp only [List.append_assoc]
    exact ((List.perm_append_comm).append_left before).append_left front
  · simp only [List.append_assoc]
    rw [← List.append_assoc front, ← List.append_assoc (closed events) front]
    exact (List.perm_append_comm).append_right _

theorem Sockinfo.held_deleted (info : Sockinfo) : info.deleted.held = [] := by
  have nothing : ∀ sockend : Sockend, sockend.deleted.held = [] := by
    intro sockend
    apply if_neg
    show ¬ (if sockend.fd ≥ 0 then -1 else sockend.fd) ≥ 0
    split_ifs with opened
    · decide
    · exact opened
  rw [Sockinfo.held, Sockinfo.deleted, nothing, nothing]
  rfl

theorem balance_deleted (info : Sockinfo) :
    Balance info.held info.deleted.held (info.held.map .closed) := by
  unfold Balance
  rw [opened_closing, closed_closing, info.held_deleted]

theorem balance_same {info info' : Sockinfo} (inFd : info'.inEnd.fd = info.inEnd.fd)
    (outFd : info'.outEnd.fd = info.outEnd.fd) : Balance info.held info'.held [] := by
  apply balance_none
  rw [Sockinfo.held, Sockend.held, Sockend.held, ← inFd, ← outFd]
  rfl

theorem Sockend.held_open {sockend : Sockend} (opened : 0 ≤ sockend.fd) : sockend.held = [sockend.fd] :=
  if_pos opened

theorem Sockend.held_shut {sockend : Sockend} (shut : sockend.fd = -1) : sockend.held = [] := by
  apply if_neg
  rw [shut]
  decide

/-! ## The handlers of the server -/

/-- A request is only read where no response is waited for, and the socket for it
connects if there is one; where none can be made the entry is deleted. -/
def KeepsDescriptors (lib : Sorting.Library Client) (calls : Calls) (state : SockState) (req : Request)
    (clients : Clients) : Prop :=
  if ∃ owner, lookedUp req = some owner ∧ (clientFind lib owner clients).isSome = true then
    calls.socket = none ∨ state = .mssReqrd ∧ calls.connect = true
  else state = .mssReqrd

section Server
variable (lib : Sorting.Library Client) {calls : Calls} {info : Sockinfo} {inPkt : Packet}
variable {clients : Clients} {handled : Handled Clients}

theorem balance_queue {turned : Sockinfo} {pkt : Packet} {events : List Event} {before : List Int}
    (balance : Balance before turned.held events)
    (queued : queuePacket calls turned pkt clients events = .ok handled) :
    Balance before handled.info.held handled.events := by
  obtain ⟨status, buf, rfl, _⟩ := queuePacket_cases queued
  exact balance

/-- The requester's end changes sides. -/
theorem balance_answering (opened : 0 ≤ info.inEnd.fd) (alone : info.outEnd.fd = -1) :
    Balance info.held info.answering.held [] := by
  have before : info.held = [info.inEnd.fd] := by
    rw [Sockinfo.held, Sockend.held_open opened, Sockend.held_shut alone]
    rfl
  have outHeld : info.answering.outEnd.held = [info.inEnd.fd] := Sockend.held_open opened
  have after : info.answering.held = [info.inEnd.fd] := by
    rw [Sockinfo.held, Sockend.held_shut rfl, outHeld]
    rfl
  rw [before, after]
  exact balance_none (List.Perm.refl _)

theorem balance_forwarding (opened : 0 ≤ info.inEnd.fd) (alone : info.outEnd.fd = -1) (fd : Nat) :
    Balance info.held (info.forwarding fd).held [.created fd] := by
  have before : info.held = [info.inEnd.fd] := by
    rw [Sockinfo.held, Sockend.held_open opened, Sockend.held_shut alone]
    rfl
  have inHeld : (info.forwarding fd).inEnd.held = [info.inEnd.fd] := Sockend.held_open opened
  have outHeld : (info.forwarding fd).outEnd.held = [(fd : Int)] :=
    Sockend.held_open (Int.natCast_nonneg fd)
  have after : (info.forwarding fd).held = [info.inEnd.fd, fd] := by
    rw [Sockinfo.held, inHeld, outHeld]
    rfl
  rw [before, after]
  exact List.Perm.refl _

theorem balance_crossed : Balance info.held info.crossed.held [] :=
  balance_none List.perm_append_comm

variable (fitting : info.Fitting) (type : info.type = .mfdPktIn)
include fitting type

theorem RequestServed.balance
    (keeps : KeepsDescriptors lib calls info.state inPkt.mpktRequest clients)
    (served : RequestServed lib calls info inPkt clients (.ok handled)) :
    Balance info.held handled.info.held handled.events := by
  rw [fitting_packet type] at fitting
  unfold KeepsDescriptors at keeps
  cases served with
  | root _ root queued =>
      rw [if_neg (fun ⟨owner, named, _⟩ => by rw [lookedUp, root] at named; cases named)] at keeps
      simp only [keeps] at fitting
      exact balance_queue (balance_answering fitting.1 fitting.2) queued
  | unregistered owner _ named found queued =>
      have stranger : ¬ ∃ owner, lookedUp inPkt.mpktRequest = some owner ∧
          (clientFind lib owner clients).isSome = true := by
        rintro ⟨other, named', registered⟩
        rw [named] at named'
        cases named'
        rw [found] at registered
        cases registered
      rw [if_neg stranger] at keeps
      simp only [keeps] at fitting
      exact balance_queue (balance_answering fitting.1 fitting.2) queued
  | unconnected owner _ events named found failed _ =>
      rw [if_pos ⟨owner, named, by rw [found]; rfl⟩] at keeps
      -- no descriptor was opened, or else the socket would have connected
      have none_ : events = [] := by
        unfold inetConnect at failed
        cases socket : calls.socket with
        | none =>
            rw [socket] at failed
            cases failed
            rfl
        | some fd =>
            obtain ⟨_, connects⟩ := keeps.resolve_left (fun no => by cases socket.symm.trans no)
            simp only [socket, connects, if_true] at failed
            cases failed
      subst none_
      exact balance_same rfl rfl
  | forwarded owner _ fd _ named found connected queued =>
      rw [if_pos ⟨owner, named, by rw [found]; rfl⟩] at keeps
      have opens : calls.socket ≠ none := by
        intro no
        simp only [inetConnect, no] at connected
        cases connected
      simp only [(keeps.resolve_left opens).1] at fitting
      exact balance_queue (balance_forwarding fitting.1 fitting.2 fd) queued

theorem serverRdFin_balance
    (keeps : inPkt.mpktType = mpktRequestType →
      KeepsDescriptors lib calls info.state inPkt.mpktRequest clients)
    (done : serverRdFin lib calls info inPkt clients = .ok handled) :
    Balance info.held handled.info.held handled.events := by
  cases serverRdFin_cases lib done with
  | connect _ _ connected =>
      obtain ⟨clients', rfl⟩ := handleConnectFin_cases lib connected
      exact balance_same rfl rfl
  | request _ request served => exact served.balance lib fitting type (keeps request)
  | response _ _ queued =>
      exact @balance_queue calls clients handled { info with state := .mssRspwr } inPkt [] _
        (balance_same rfl rfl) queued
  | unknown => exact balance_same rfl rfl

omit fitting type in
theorem serverWrFin_balance (done : serverWrFin info clients = .ok handled) :
    Balance info.held handled.info.held handled.events := by
  cases serverWrFin_cases done with
  | request _ => exact balance_crossed
  | response _ => exact balance_same rfl rfl
  | unexpected => exact balance_same rfl rfl

omit fitting type in
theorem RequestServed.opens (served : RequestServed lib calls info inPkt clients (.ok handled)) :
    handled.events = [] ∨ handled.events = (inetConnect calls).2 := by
  cases served with
  | root _ _ queued =>
      obtain ⟨_, _, rfl, _⟩ := queuePacket_cases queued
      exact Or.inl rfl
  | unregistered _ _ _ _ queued =>
      obtain ⟨_, _, rfl, _⟩ := queuePacket_cases queued
      exact Or.inl rfl
  | unconnected _ _ _ _ _ failed _ => exact Or.inr (by rw [failed])
  | forwarded _ _ _ _ _ _ connected queued =>
      obtain ⟨_, _, rfl, _⟩ := queuePacket_cases queued
      exact Or.inr (by rw [connected])

omit fitting type in
/-- The descriptors that handling a packet may open. -/
theorem serverRdFin_opens (done : serverRdFin lib calls info inPkt clients = .ok handled) :
    handled.events = [] ∨ handled.events = (inetConnect calls).2 := by
  cases serverRdFin_cases lib done with
  | connect _ _ connected =>
      obtain ⟨clients', rfl⟩ := handleConnectFin_cases lib connected
      exact Or.inl rfl
  | request _ _ served => exact served.opens lib
  | response _ _ queued =>
      obtain ⟨_, _, rfl, _⟩ := queuePacket_cases queued
      exact Or.inl rfl
  | unknown => exact Or.inl rfl

omit fitting type in
theorem serverWrFin_opens (done : serverWrFin info clients = .ok handled) : handled.events = [] := by
  cases serverWrFin_cases done with
  | request _ => rfl
  | response _ => rfl
  | unexpected => rfl

end Server

theorem opened_inetConnect (calls : Calls) :
    opened (inetConnect calls).2 = (calls.socket.map Int.ofNat).toList := by
  unfold inetConnect
  cases calls.socket with
  | none => rfl
  | some fd => rfl

/-! ## Events of an entry -/

/-- What the requests read from an entry have to meet. -/
def ReadsCarefully (lib : Sorting.Library Client) (calls : Calls) (info : Sockinfo)
    (clients : Clients) : Prop :=
  info.state.watchesIn = true → ∀ read events pkt,
    receivePacket calls info = .ok (read, events, .inr pkt) → pkt.mpktType = mpktRequestType →
      KeepsDescriptors lib calls info.state pkt.mpktRequest clients

/-- What an event leaves behind: the balance, and what it opened. -/
structure Tally (calls : Calls) (before : List Int) (handled : Handled Clients) : Prop where
  balance : Balance before handled.info.held handled.events
  opens : opened handled.events = [] ∨ opened handled.events = (calls.socket.map Int.ofNat).toList

section Event
variable {lib : Sorting.Library Client} {calls : Calls} {info : Sockinfo} {clients : Clients}
variable {handled : Handled Clients}

theorem balance_transfer {before after : List Int} {event : Event} (transfer : event.transfer = true)
    {events : List Event} (balance : Balance before after events) :
    Balance before after (event :: events) := by
  cases event with
  | received _ _ => exact balance
  | sent _ _ => exact balance
  | _ => cases transfer

theorem ReadEvent.tally (fitting : info.Fitting) (type : info.type = .mfdPktIn)
    (watches : info.state.watchesIn = true) (careful : ReadsCarefully lib calls info clients)
    (event : ReadEvent (serverHi lib) calls info clients handled) :
    Tally calls info.held handled := by
  cases event with
  | nothing buf _ => exact ⟨balance_same rfl rfl, Or.inl rfl⟩
  | rejected buf bytes s _ _ => exact ⟨balance_transfer rfl (balance_same rfl rfl), Or.inl rfl⟩
  | unfinished buf bytes s _ _ _ => exact ⟨balance_transfer rfl (balance_same rfl rfl), Or.inl rfl⟩
  | complete buf bytes s after _ _ _ received finished =>
      have balance := serverRdFin_balance lib
        (show (info.withIn (bufferShift buf s.used)).Fitting from fitting) type
        (careful watches _ _ _ received) finished
      refine ⟨balance_transfer rfl balance, ?_⟩
      show opened after.events = [] ∨ opened after.events = _
      rcases serverRdFin_opens lib finished with none_ | connects
      · rw [none_]
        exact Or.inl rfl
      · rw [connects]
        exact Or.inr (opened_inetConnect calls)

theorem WriteEvent.tally (event : WriteEvent (serverHi lib) calls info clients handled) :
    Tally calls info.held handled := by
  cases event with
  | failed errno _ => exact ⟨balance_same rfl rfl, Or.inl rfl⟩
  | sent buf n _ _ => exact ⟨balance_transfer rfl (balance_same rfl rfl), Or.inl rfl⟩
  | drained buf _ _ _ _ finished =>
      have balance := serverWrFin_balance finished
      refine ⟨balance, Or.inl ?_⟩
      rw [serverWrFin_opens finished]
      rfl

theorem handlePktEvent_tally (fitting : info.Fitting) (type : info.type = .mfdPktIn)
    (careful : ReadsCarefully lib calls info clients)
    (done : handlePktEvent (serverHi lib) calls info clients = .ok handled) :
    Tally calls info.held handled := by
  cases handlePktEvent_cases done with
  | quiet => exact ⟨balance_same rfl rfl, Or.inl rfl⟩
  | reads _ watches event => exact event.tally fitting type watches careful
  | writes _ _ event => exact event.tally

end Event

/-! ## The array -/

/-- The descriptors that the entries hold, one after the other. -/
def stored (infos : List Sockinfo) : List Int := infos.flatMap Sockinfo.held

theorem Balance.append {before before' after after' : List Int} {events more : List Event}
    (first : Balance before after events) (second : Balance before' after' more) :
    Balance (before ++ before') (after ++ after') (events ++ more) := by
  have left := first.frame [] before'
  have right := second.frame after []
  rw [List.append_nil, List.append_nil] at right
  exact left.trans right

theorem balance_refl (held : List Int) : Balance held held [] := balance_none (List.Perm.refl held)

theorem balance_set {infos : List Sockinfo} {index : Nat} {info entry : Sockinfo} {events : List Event}
    (found : infos[index]? = some info) (balance : Balance info.held entry.held events) :
    Balance (stored infos) (stored (infos.set index entry)) events := by
  obtain ⟨inside, same⟩ := List.getElem?_eq_some_iff.mp found
  have before : infos = infos.take index ++ info :: infos.drop (index + 1) := by
    rw [← same, ← List.drop_eq_getElem_cons inside, List.take_append_drop]
  have after : infos.set index entry = infos.take index ++ entry :: infos.drop (index + 1) :=
    List.set_eq_take_append_cons_drop.trans (if_pos inside)
  have framed := balance.frame (stored (infos.take index)) (stored (infos.drop (index + 1)))
  rw [after]
  nth_rewrite 1 [before]
  simp only [stored, List.flatMap_append, List.flatMap_cons, ← List.append_assoc]
  exact framed

theorem Sockinfo.Sound.deletes {info : Sockinfo} (sound : info.Sound) (inUse : info.type ≠ .mfdNone) :
    sockinfoDelete info = .ok (info.deleted, info.held) :=
  sockinfoDelete_eq (sound.unreleased inUse).1 (sound.unreleased inUse).2

theorem balance_checked {info : Sockinfo} {checked : Sockinfo × List Int} (sound : info.Sound)
    (checks : CheckedTo info checked) :
    Balance info.held checked.1.held (checked.2.map .closed) := by
  cases checks with
  | kept revents => exact balance_refl info.held
  | deleted _ watched deletes =>
      have inUse : info.type ≠ .mfdNone := sound.fitting.inUse (watched.imp And.right And.right)
      rw [sound.deletes inUse] at deletes
      cases deletes
      exact balance_deleted info

theorem balance_poll {infos : List Sockinfo} {checked : List (Sockinfo × List Int)} (index : Nat)
    (sound : ∀ info ∈ infos, info.Sound) (checks : List.Forall₂ CheckedTo infos checked) :
    Balance (stored infos) (stored (checked.map Prod.fst)) ((closedBy index checked).map Prod.snd) := by
  induction checks generalizing index with
  | nil => exact balance_refl []
  | @cons info entry infos checked head _ ih =>
      obtain ⟨kept, fds⟩ := entry
      have first := balance_checked (sound info List.mem_cons_self) head
      have rest := ih (index + 1) fun other member => sound other (List.mem_cons_of_mem info member)
      have both := first.append rest
      rw [closedBy, List.map_append, map_snd_tagged]
      exact both

theorem stored_same {infos infos' : List Sockinfo} (same : List.Forall₂ SameButSlots infos infos') :
    stored infos' = stored infos := by
  induction same with
  | nil => rfl
  | cons head _ ih =>
      unfold stored at ih ⊢
      rw [List.flatMap_cons, List.flatMap_cons, ih, head.held]

/-! ## Runs -/

structure Tallied (server : Server Clients) : Prop where
  sound : ∀ info ∈ server.socks.sockinfos, info.Sound
  balance : Balance [] (stored server.socks.sockinfos) (server.log.map Prod.snd)
  once : ∀ fd, (opened (server.log.map Prod.snd)).count fd ≤
    (closed (server.log.map Prod.snd)).count fd + 1

def HandsOutFresh (moment : Moment) (running : Running Clients) : Prop :=
  running.left ≠ 0 → ∀ fd : Nat, moment.calls.accept = some fd ∨ moment.calls.socket = some fd →
    ¬ IsOpen running.server.log fd

/-- Requests are read where they are expected, and their sockets connect. -/
def StepsCarefully (lib : Sorting.Library Client) (moment : Moment) (running : Running Clients) : Prop :=
  running.left ≠ 0 → ∀ info, running.server.socks.sockinfos[running.index]? = some info →
    info.type = .mfdPktIn → ReadsCarefully lib moment.calls info running.server.state

theorem once_append {log : List (Nat × Event)} {events : List Event} (entries : List (Nat × Event))
    (same : entries.map Prod.snd = events)
    (once : ∀ fd, (opened (log.map Prod.snd)).count fd ≤ (closed (log.map Prod.snd)).count fd + 1)
    (opens : opened events = [] ∨ ∃ fd, opened events = [fd] ∧ ¬ IsOpen log fd) :
    ∀ fd, (opened ((log ++ entries).map Prod.snd)).count fd ≤
      (closed ((log ++ entries).map Prod.snd)).count fd + 1 := by
  intro fd
  have before := once fd
  rw [List.map_append, same, opened_append, closed_append, List.count_append, List.count_append]
  rcases opens with none_ | ⟨new, one, shut⟩
  · rw [none_, List.count_nil]
    omega
  · rw [one, List.count_singleton]
    unfold IsOpen at shut
    split_ifs with isNew
    · rw [← beq_iff_eq.mp isNew] at before ⊢
      omega
    · omega

theorem opened_closedBy (index : Nat) (checked : List (Sockinfo × List Int)) :
    opened ((closedBy index checked).map Prod.snd) = [] := by
  induction checked generalizing index with
  | nil => rfl
  | cons entry checked ih =>
      obtain ⟨info, fds⟩ := entry
      rw [closedBy, List.map_append, map_snd_tagged, opened_append, opened_closing, ih]
      rfl

section Steps
variable (lib : Sorting.Library Client)

include lib in
theorem Tallied.poll {moment : Moment} {server server' : Server Clients} {goesOn : Bool}
    (tallied : Tallied server)
    (polled : pollAll moment.calloc moment.ready server = .ok (server', goesOn)) : Tallied server' := by
  have each := entrywise_sound (serverHi_turns lib)
  have sound := each.poll tallied.sound polled
  unfold pollAll at polled
  split at polled
  · cases polled
  · rename_i done
    cases polled
    refine ⟨sound, ?_, tallied.once⟩
    show Balance [] (stored _) _
    rw [stored_same (socksPoll_cases done).1]
    exact tallied.balance
  · rename_i checked done
    obtain ⟨same, entries⟩ := socksPoll_cases done
    cases polled
    have slots := forall_of_forall₂ (fun _ _ holds same => each.slots holds same) same tallied.sound
    have checks := balance_poll 0 slots (entries _ rfl)
    rw [stored_same same] at checks
    refine ⟨sound, ?_, once_append _ rfl tallied.once (Or.inl (opened_closedBy 0 checked))⟩
    show Balance [] _ ((server.log ++ _).map Prod.snd)
    rw [List.map_append]
    exact tallied.balance.trans checks

/-- What was done for one entry is added to the log. -/
theorem Tallied.after {server : Server Clients} {index : Nat} {info entry : Sockinfo} {clients : Clients}
    {events : List Event} (tallied : Tallied server)
    (sound : ∀ info ∈ (server.after index entry clients events).socks.sockinfos, info.Sound)
    (found : server.socks.sockinfos[index]? = some info)
    (balance : Balance info.held entry.held events)
    (opens : opened events = [] ∨ ∃ fd, opened events = [fd] ∧ ¬ IsOpen server.log fd) :
    Tallied (server.after index entry clients events) where
  sound := sound
  balance := by
    show Balance [] (stored (server.socks.sockinfos.set index entry))
      ((server.log ++ tagged index events).map Prod.snd)
    rw [List.map_append, map_snd_tagged]
    exact tallied.balance.trans (balance_set found balance)
  once := once_append _ (map_snd_tagged index events) tallied.once opens

theorem opens_of_tally {calls : Calls} {before : List Int} {handled : Handled Clients}
    {log : List (Nat × Event)} (tally : Tally calls before handled)
    (fresh : ∀ fd : Nat, calls.socket = some fd → ¬ IsOpen log fd) :
    opened handled.events = [] ∨ ∃ fd, opened handled.events = [fd] ∧ ¬ IsOpen log fd := by
  rcases tally.opens with none_ | opens
  · exact Or.inl none_
  · cases socket : calls.socket with
    | none =>
        rw [socket] at opens
        exact Or.inl opens
    | some fd =>
        rw [socket] at opens
        exact Or.inr ⟨fd, opens, fresh fd socket⟩

/-- What became of an entry before it is kept or deleted. -/
theorem attended_tally {calls : Calls} {info : Sockinfo} {clients : Clients} {handled : Handled Clients}
    (sound : info.Sound) (careful : info.type = .mfdPktIn → ReadsCarefully lib calls info clients)
    (attended : Attended (serverHi lib) calls info clients (handled, none)) :
    Tally calls info.held handled := by
  cases attended with
  | shut _ => exact ⟨balance_refl _, Or.inl rfl⟩
  | packet _ type done => exact handlePktEvent_tally sound.fitting type (careful type) done
  | quiet _ => exact ⟨balance_refl _, Or.inl rfl⟩
  | refused _ _ => exact ⟨balance_refl _, Or.inl rfl⟩

theorem balance_accepted (fd : Nat) : Balance [] (Sockinfo.accepted fd).held [.accepted fd] := by
  rw [Sockinfo.held_accepted]
  exact List.Perm.refl _

theorem Tallied.handle {calls : Calls} {index : Nat} {goesOn : Bool} {server server' : Server Clients}
    (tallied : Tallied server)
    (fresh : ∀ fd : Nat, calls.accept = some fd ∨ calls.socket = some fd → ¬ IsOpen server.log fd)
    (careful : ∀ info, server.socks.sockinfos[index]? = some info → info.type = .mfdPktIn →
      ReadsCarefully lib calls info server.state)
    (done : handleAt (serverHi lib) calls index server = .ok (server', goesOn)) : Tallied server' := by
  have each := entrywise_sound (serverHi_turns lib)
  have sound := each.handle tallied.sound done
  cases handleAt_cases done with
  | kept info handled _ found attended status =>
      have tally := attended_tally lib (tallied.sound info (List.mem_of_getElem? found))
        (careful info found) attended
      exact tallied.after sound found tally.balance
        (opens_of_tally tally fun fd socket => fresh fd (Or.inr socket))
  | deleted info handled gone fds found attended status deletes =>
      have soundInfo := tallied.sound info (List.mem_of_getElem? found)
      have tally := attended_tally lib soundInfo (careful info found) attended
      have deletable := (each.attended soundInfo attended).2 status
      rw [sockinfoDelete_eq deletable.inUnreleased deletable.outUnreleased] at deletes
      cases deletes
      refine tallied.after sound found (tally.balance.trans (balance_deleted handled.info)) ?_
      rw [opened_append, opened_closing, List.append_nil]
      exact opens_of_tally tally fun fd socket => fresh fd (Or.inr socket)
  | added info fd socks found type accept added =>
      refine ⟨sound, ?_, once_append _ (map_snd_tagged _ _) tallied.once
        (Or.inr ⟨fd, rfl, fresh fd (Or.inl accept)⟩)⟩
      have balance := tallied.balance.append (balance_accepted fd)
      rw [List.append_nil] at balance
      show Balance [] (stored socks.sockinfos) ((server.log ++ _).map Prod.snd)
      rw [socksAdd_sockinfos added, List.map_append, map_snd_tagged, stored, List.flatMap_append,
        List.flatMap_singleton]
      exact balance
  | full info fd gone fds found type accept _ deletes =>
      rw [sockinfoDelete_eq rfl rfl] at deletes
      cases deletes
      have both := (balance_accepted fd).trans (balance_deleted (.accepted fd))
      have balance := tallied.balance.append both
      rw [List.append_nil, Sockinfo.held_deleted, List.append_nil] at balance
      have entries : (tagged server.socks.count [.accepted fd] ++
          tagged server.socks.count ((Sockinfo.accepted fd).held.map .closed)).map Prod.snd =
            [.accepted fd] ++ (Sockinfo.accepted fd).held.map .closed := by
        rw [List.map_append, map_snd_tagged, map_snd_tagged]
      refine ⟨sound, ?_, ?_⟩
      · show Balance [] _ ((server.log ++ _ ++ _).map Prod.snd)
        rw [List.append_assoc, List.map_append, entries]
        exact balance
      · show ∀ fd', (opened ((server.log ++ _ ++ _).map Prod.snd)).count fd' ≤ _
        rw [List.append_assoc]
        exact once_append _ entries tallied.once
          (Or.inr ⟨fd, by rw [opened_append, opened_closing]; rfl, fresh fd (Or.inl accept)⟩)

theorem Tallied.advance {moment : Moment} {running next : Running Clients}
    (tallied : Tallied running.server) (fresh : HandsOutFresh moment running)
    (careful : StepsCarefully lib moment running)
    (advanced : advance (serverHi lib) moment running = .ok next) : Tallied next.server := by
  unfold Middfs.advance at advanced
  split at advanced
  · split at advanced
    · cases advanced
    · rename_i polled
      cases advanced
      exact tallied.poll lib polled
  · rename_i left more
    have busy : running.left ≠ 0 := by
      rw [more]
      exact Nat.succ_ne_zero left
    split at advanced
    · cases advanced
    · rename_i handled
      cases advanced
      exact tallied.handle lib (fresh busy) (careful busy) handled

end Steps

/-! ## Conservation -/

/-- The descriptors that are open are those in the ends of the entries, each in
one end. -/
structure Conserved (server : Server Clients) : Prop where
  held : ∀ fd, IsOpen server.log fd ↔ fd ∈ stored server.socks.sockinfos
  once : (stored server.socks.sockinfos).Nodup

theorem Tallied.conserved {server : Server Clients} (tallied : Tallied server) : Conserved server := by
  have counts : ∀ fd, (opened (server.log.map Prod.snd)).count fd =
      (closed (server.log.map Prod.snd)).count fd + (stored server.socks.sockinfos).count fd := by
    intro fd
    rw [← List.count_append]
    exact tallied.balance.count_eq fd
  constructor
  · intro fd
    have count := counts fd
    rw [IsOpen, ← List.count_pos_iff]
    omega
  · apply List.nodup_iff_count_le_one.mpr
    intro fd
    have count := counts fd
    have once := tallied.once fd
    omega

theorem serverStart_tallied {realloc : Nat → Bool} {servsock : Nat} {clients : Clients}
    {server : Server Clients} (started : serverStart realloc servsock clients = .ok (some server)) :
    Tallied server := by
  have starts := serverStart_starts started
  have held : stored server.socks.sockinfos = [(servsock : Int)] := by
    have inHeld : (sockendInit servsock).held = [(servsock : Int)] :=
      Sockend.held_open (Int.natCast_nonneg servsock)
    have outHeld : (sockendInit (-1)).held = [] := Sockend.held_shut rfl
    rw [starts.entries, stored, List.flatMap_singleton, Sockinfo.held, Sockinfo.listens, inHeld,
      outHeld]
    rfl
  refine ⟨fun info member => (serverStart_entries started info member).1, ?_, ?_⟩
  · rw [held, starts.log]
    exact List.Perm.refl _
  · intro fd
    rw [starts.log]
    show [(servsock : Int)].count fd ≤ 0 + 1
    rw [List.count_singleton]
    split_ifs <;> omega

/-- In every run in which requests are read where they are expected and their
sockets connect, no descriptor is lost. -/
theorem descriptors_conserved (lib : Sorting.Library Client) {realloc : Nat → Bool} {servsock : Nat}
    {clients : Clients} {server : Server Clients} {running : Running Clients}
    (started : serverStart realloc servsock clients = .ok (some server))
    (run : Reached (advance (serverHi lib))
      (fun moment running => HandsOutFresh moment running ∧ StepsCarefully lib moment running)
      ⟨server, 0, 0⟩ running) : Conserved running.server := by
  have tallied : Tallied running.server := by
    apply @Reached.invariant _ _ _ _ _ _ _ (fun running : Running Clients => Tallied running.server)
      run (serverStart_tallied started)
    intro moment before after tallied met advanced
    exact tallied.advance lib met.1 met.2 advanced
  exact tallied.conserved

def firstPoll : Moment := ⟨true, some fun _ => { pollin := true }, quietCalls⟩

def firstAccept : Moment := ⟨true, none, { quietCalls with accept := some 4 }⟩

/-! ## A session -/

def grantedCalls : Calls := { quietCalls with malloc := memory, realloc := memory }

def connectionOn (fd : Nat) : List Moment :=
  [⟨true, some fun _ => { pollin := true }, grantedCalls⟩,
    ⟨true, none, { grantedCalls with accept := some fd }⟩]

/-- What a poll reports at the slots 1 and 2, and what happens at each entry then. -/
def happening (own other : Revents) (calls : List Calls) : List Moment :=
  ⟨true, some fun slot => if slot = 1 then own else if slot = 2 then other else Revents.none,
    grantedCalls⟩ ::
    calls.map fun calls => ⟨true, none, calls⟩

def attendingTo (revents : Revents) (calls : Calls) : List Moment :=
  happening revents revents [grantedCalls, calls]

/-- The bytes come in as the buffer grows. -/
def takingIn (calls : Calls) (bytes : List UInt8) (offsets : List Nat) : List Moment :=
  offsets.flatMap fun offset =>
    attendingTo { pollin := true } { calls with read := .bytes (bytes.drop offset) }

def givingOut : List Moment :=
  attendingTo { pollout := true } { grantedCalls with write := .count 100 } ++
    attendingTo { pollout := true } grantedCalls

/-- User `a` asks about the root of user `b`. -/
def inquiry : Packet where
  mpktMagic := mpktMagicNumber
  mpktType := mpktRequestType
  mpktRequest :=
    { mreqType := mreqGetattr
      mreqRequester := some userA
      mreqRsrc := ⟨some userB, some (strAt [47])⟩ }

/-- The server knows user `b`, and sends him the request. -/
def inquiryForwarded : List Moment :=
  connectionOn 4 ++
    takingIn { grantedCalls with socket := some 6, connect := true } inquiry.wire [0, 1, 2, 4, 8, 16] ++
    givingOut

/-- User `b` says that there is no such file, which user `a` is told. -/
def inquiryAnswered : List Moment :=
  takingIn grantedCalls (packetError zeroPacket enoent).wire [0] ++ givingOut

def carefulAt (moment : Moment) (running : Running Clients) : Bool :=
  running.left == 0 ||
    ((moment.calls.accept.toList ++ moment.calls.socket.toList).all fun fd : Nat =>
        decide (¬ (closed (running.server.log.map Prod.snd)).count (fd : Int) <
          (opened (running.server.log.map Prod.snd)).count (fd : Int))) &&
      match running.server.socks.sockinfos[running.index]? with
      | none => true
      | some info => info.type != .mfdPktIn || info.state == .mssReqrd && moment.calls.connect ||
          match receivePacket moment.calls info with
          | .ok (_, _, .inr pkt) => pkt.mpktType != mpktRequestType
          | _ => true

theorem carefulAt_sound (lib : Sorting.Library Client) {moment : Moment} {running : Running Clients}
    (checked : carefulAt moment running = true) :
    HandsOutFresh moment running ∧ StepsCarefully lib moment running := by
  unfold carefulAt at checked
  simp only [Bool.or_eq_true, Bool.and_eq_true, beq_iff_eq, List.all_eq_true, decide_eq_true_eq] at checked
  refine ⟨fun busy fd handed => ?_, fun busy info found type _ read events pkt received request => ?_⟩
  · refine (checked.resolve_left busy).1 fd (List.mem_append.mpr ?_)
    exact handed.imp (fun accept => by rw [accept]; simp) (fun socket => by rw [socket]; simp)
  · have careful := (checked.resolve_left busy).2
    simp only [found, bne_iff_ne, Bool.or_eq_true, Bool.and_eq_true, beq_iff_eq] at careful
    rcases careful with (no | ⟨state, connect⟩) | other
    · exact absurd type no
    · unfold KeepsDescriptors
      split_ifs
      · exact Or.inr ⟨state, connect⟩
      · exact state
    · rw [received] at other
      simp only [bne_iff_ne] at other
      exact absurd request other

structure InquiryAnswered (server : Server Clients) (running : Running Clients) : Prop where
  started : serverStart memory 3 oneUser = .ok (some server)
  runs : steps (advance (serverHi (Sorting.simpleLibrary Client))) (inquiryForwarded ++ inquiryAnswered)
    ⟨server, 0, 0⟩ = .ok running
  careful : passes (advance (serverHi (Sorting.simpleLibrary Client))) carefulAt
    (inquiryForwarded ++ inquiryAnswered) ⟨server, 0, 0⟩ = true
  opened : opened (running.server.log.map Prod.snd) = [3, 4, 6]
  held : stored running.server.socks.sockinfos = [3]

/-- The connections of both users are closed in the end. -/
theorem descriptors_conserved_inquiry : ∃ server running, InquiryAnswered server running ∧
    Conserved running.server := by
  have happens : ∃ server running, InquiryAnswered server running := ⟨_, _, rfl, rfl, rfl, rfl, rfl⟩
  obtain ⟨server, running, inquiry⟩ := happens
  exact ⟨server, running, inquiry, descriptors_conserved (Sorting.simpleLibrary Client) inquiry.started
    (.of_passes (fun _ _ _ checked => carefulAt_sound _ checked) inquiry.careful inquiry.runs)⟩

/-! ## A peer that takes no connections -/

def accepting (fd : Nat) : Iteration where
  ready := fun slot => if slot = 0 then { pollin := true } else Revents.none
  calls := fun _ => { quietCalls with accept := some fd }

/-- The connection in the slot after that of the listening socket is read from. -/
def readingFrom (calls : Calls) (bytes : List UInt8) : Iteration where
  ready := fun slot => if slot = 1 then { pollin := true } else Revents.none
  calls := fun _ => { calls with read := .bytes bytes }

/-- The whole of what is sent comes in; as the buffer grows it is taken in pieces. -/
def readingAll (calls : Calls) (bytes : List UInt8) (reads : Nat) : List Iteration :=
  ([0, 1, 2, 4, 8, 16].take reads).map fun start => readingFrom calls (bytes.drop start)

def announcement : Packet :=
  { packetInit zeroPacket mpktConnectType with mpktConnect := { name := some userB, port := 4001 } }

def announced : List Iteration :=
  accepting 4 :: readingAll { quietCalls with peername := some loopback } announcement.wire 5

theorem unreachablePeer_loses : ∃ server server' : Server Clients,
    serverStart (fun _ => true) 3 clientsInit = .ok (some server) ∧
      serverLoops (serverHi (Sorting.simpleLibrary Client))
        (announced ++ accepting 4 :: readingAll { quietCalls with socket := some 5 } inquiry.wire 6)
        server = .ok server' ∧
      ¬ Conserved server' := by
  refine ⟨_, _, rfl, rfl, fun conserved => ?_⟩
  have forgotten := (conserved.held 5).mp (by unfold IsOpen; decide)
  revert forgotten
  decide

end Middfs
