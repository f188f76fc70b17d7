import Middfs.Calm

/-!
# Surviving what comes in

No run of the server gets to a state in which anything but the bytes that come
in can bring it down; and what comes in for one connection changes that one
only, and the registry if it is a `CONNECT`.
-/

set_option autoImplicit false

namespace Middfs

open Runs

/-! ## The registry -/

section Registry
variable {lib : Sorting.Library Client} {calls : Calls} {info : Sockinfo} {clients : Clients}

theorem queuePacket_registry {pkt : Packet} {events : List Event} {handled : Handled Clients}
    (queued : queuePacket calls info pkt clients events = .ok handled) : handled.state = clients := by
  obtain ⟨status, buf, rfl, _⟩ := queuePacket_cases queued
  rfl

theorem RequestServed.registry {inPkt : Packet} {handled : Handled Clients}
    (served : RequestServed lib calls info inPkt clients (.ok handled)) : handled.state = clients := by
  cases served with
  | root _ _ queued => exact queuePacket_registry queued
  | unregistered _ _ _ _ queued => exact queuePacket_registry queued
  | unconnected _ _ _ _ _ _ _ => rfl
  | forwarded _ _ _ _ _ _ _ queued => exact queuePacket_registry queued

theorem serverRdFin_registry {inPkt : Packet} {handled : Handled Clients}
    (stranger : inPkt.mpktType ≠ mpktConnectType)
    (done : serverRdFin lib calls info inPkt clients = .ok handled) : handled.state = clients := by
  cases serverRdFin_cases lib done with
  | connect _ connect _ => exact absurd connect stranger
  | request _ _ served => exact served.registry
  | response _ _ queued => exact queuePacket_registry queued
  | unknown => rfl

theorem serverWrFin_registry {handled : Handled Clients}
    (done : serverWrFin info clients = .ok handled) : handled.state = clients := by
  cases serverWrFin_cases done with
  | request _ => rfl
  | response _ => rfl
  | unexpected => rfl

theorem WriteEvent.registry {handled : Handled Clients}
    (event : WriteEvent (serverHi lib) calls info clients handled) : handled.state = clients := by
  cases event with
  | failed errno _ => rfl
  | sent buf n _ _ => rfl
  | drained buf _ _ _ _ finished => exact serverWrFin_registry finished

/-- The registry is only changed for a `CONNECT` that came in whole. -/
theorem ReadEvent.registry (large : ∀ n, calls.malloc n = true → n < 2 ^ 63)
    {handled : Handled Clients} (event : ReadEvent (serverHi lib) calls info clients handled)
    (stranger : ∀ bytes, Gathers calls info bytes → ¬ (Announces mpktConnectType bytes ∧ Whole bytes)) :
    handled.state = clients := by
  cases event with
  | nothing buf _ => rfl
  | rejected buf bytes s _ _ => rfl
  | unfinished buf bytes s _ _ _ => rfl
  | complete buf bytes s after _ _ _ received finished =>
      obtain ⟨bytes, t, _, gathers, bound, decoded, clean, within, same, _⟩ :=
        receivePacket_gathers received
      apply serverRdFin_registry ?_ finished
      intro connect
      rw [← same] at connect
      have announces := complete_announces large bound decoded clean within
      refine stranger bytes gathers ⟨connect ▸ announces, ?_⟩
      rcases complete_cases large bound decoded clean within with ⟨wf, rest, split, _⟩ | ⟨_, long, _⟩
      · exact ⟨t.obj, rest, wf, split⟩
      · -- a `CONNECT` has no payload
        have none_ : t.obj.payloadLength = 0 := by
          unfold Packet.payloadLength
          rw [connect, if_neg (by decide), if_neg (by decide)]
        omega

theorem handlePktEvent_registry (large : ∀ n, calls.malloc n = true → n < 2 ^ 63)
    {handled : Handled Clients} (done : handlePktEvent (serverHi lib) calls info clients = .ok handled)
    (stranger : ∀ bytes, Gathers calls info bytes → ¬ (Announces mpktConnectType bytes ∧ Whole bytes)) :
    handled.state = clients := by
  cases handlePktEvent_cases done with
  | quiet => rfl
  | reads _ _ event => exact event.registry large stranger
  | writes _ _ event => exact event.registry

end Registry

/-! ## The array -/

section Array
variable {lib : Sorting.Library Client}

theorem ReadEvent.clear {calls : Calls} {info : Sockinfo} {clients : Clients}
    {handled : Handled Clients} (empty : info.outEnd.buf.contents = [])
    (event : ReadEvent (serverHi lib) calls info clients handled)
    (status : handled.status ≠ .hsDel) (reads : handled.info.state.watchesIn = true) :
    handled.info.outEnd.buf.contents = [] := by
  cases event with
  | nothing buf _ => exact absurd rfl status
  | rejected buf bytes s _ _ => exact absurd rfl status
  | unfinished buf bytes s _ _ _ => exact empty
  | complete buf bytes s after _ _ _ _ finished =>
      -- an entry that goes on has something to write
      have same : after.info.state.watchesIn = true := reads
      rcases serverRdFin_forwards finished status with state | ⟨state, _⟩
      · rw [state] at same
        cases same
      · rw [state] at same
        cases same

theorem WriteEvent.clear {calls : Calls} {info : Sockinfo} {clients : Clients}
    {handled : Handled Clients} (writes : info.state.watchesIn = false)
    (event : WriteEvent (serverHi lib) calls info clients handled)
    (status : handled.status ≠ .hsDel) (reads : handled.info.state.watchesIn = true) :
    handled.info.outEnd.buf.contents = [] := by
  cases event with
  | failed errno _ => exact absurd rfl status
  | sent buf n _ _ => exact absurd (writes.symm.trans reads) (by decide)
  | drained buf _ _ empty _ finished =>
      rcases serverWrFin_crosses finished with dropped | ⟨_, crossed, _⟩
      · exact absurd dropped status
      · rw [crossed]
        exact empty

theorem entrywise_clear (lib : Sorting.Library Client) :
    Entrywise (serverHi lib) Sockinfo.Clear Sockinfo.Deletable where
  accepted := fun fd => ⟨sound_accepted fd, fun _ _ => rfl⟩
  polled := fun info info' revents clear same => by
    refine ⟨(entrywise_sound (serverHi_turns lib)).polled info info' revents clear.sound same,
      fun type reads => ?_⟩
    show info'.outEnd.buf.contents = []
    rw [same.outBuf]
    exact clear.empty (same.type.symm.trans type) (same.state ▸ reads)
  watched := fun info clear => (entrywise_sound (serverHi_turns lib)).watched info clear.sound
  listening := fun info clear => (entrywise_sound (serverHi_turns lib)).listening info clear.sound
  event := fun calls info clients handled clear type done => by
    obtain ⟨sound, deletable⟩ := (entrywise_sound (serverHi_turns lib)).event calls info clients handled
      clear.sound type done
    refine ⟨fun status => ⟨sound status, fun _ reads => ?_⟩, deletable⟩
    cases handlePktEvent_cases done with
    | quiet => exact clear.empty type reads
    | reads _ watches event => exact event.clear (clear.empty type watches) status reads
    | writes _ watches event => exact event.clear watches status reads
  deleted := fun info gone closed deletable deletes => by
    refine ⟨sound_deleted deletable deletes, fun type => ?_⟩
    rw [sockinfoDelete_eq deletable.inUnreleased deletable.outUnreleased] at deletes
    cases deletes
    cases type

end Array

/-- Every entry that is still to be handled has the events that its state asked
for, and no others. -/
def Running.Reported {κ : Type} (running : Running κ) : Prop :=
  ∀ index info, running.index ≤ index → index < running.index + running.left →
    running.server.socks.sockinfos[index]? = some info → info.type = .mfdPktIn →
      info.state.Due info.revents

section Reported
variable {κ : Type} {hi : HandlerInfo κ}

theorem due_none (state : SockState) : state.Due Revents.none :=
  ⟨fun _ => Or.inl rfl, fun _ => Or.inl rfl⟩

theorem PolledTo.due {ready : Nat → Revents} {info : Sockinfo} {checked : Sockinfo × List Int}
    (polled : PolledTo ready info checked) (type : checked.1.type = .mfdPktIn) :
    checked.1.state.Due checked.1.revents := by
  cases polled with
  | kept info' revents same due =>
      show info'.state.Due revents
      rw [same.state]
      exact due fun unused => by cases (same.type.trans unused).symm.trans type
  | deleted info' same _ _ => cases type

theorem HandledAt.others {calls : Calls} {index : Nat} {server server' : Server κ} {goesOn : Bool}
    (handled : HandledAt hi calls index server (server', goesOn)) {other : Nat} (differs : other ≠ index) :
    (∀ info, server.socks.sockinfos[other]? = some info → server'.socks.sockinfos[other]? = some info) ∧
      ∀ info, server'.socks.sockinfos[other]? = some info →
        server.socks.sockinfos[other]? = some info ∨ ∃ fd, info = .accepted fd := by
  have replaced : ∀ entry : Sockinfo,
      (server.socks.sockinfos.set index entry)[other]? = server.socks.sockinfos[other]? :=
    fun entry => List.getElem?_set_ne (Ne.symm differs)
  cases handled with
  | kept info handled _ _ _ _ =>
      show (∀ i, _ → (server.socks.sockinfos.set index _)[other]? = some i) ∧
        ∀ i, (server.socks.sockinfos.set index _)[other]? = some i → _
      rw [replaced]
      exact ⟨fun _ held => held, fun _ held => Or.inl held⟩
  | deleted info handled gone closed _ _ _ _ =>
      show (∀ i, _ → (server.socks.sockinfos.set index _)[other]? = some i) ∧
        ∀ i, (server.socks.sockinfos.set index _)[other]? = some i → _
      rw [replaced]
      exact ⟨fun _ held => held, fun _ held => Or.inl held⟩
  | added info fd socks _ _ _ added =>
      show (∀ i, _ → socks.sockinfos[other]? = some i) ∧ ∀ i, socks.sockinfos[other]? = some i → _
      rw [socksAdd_sockinfos added]
      refine ⟨fun i held => ?_, fun i held => ?_⟩
      · rw [List.getElem?_append_left (List.getElem?_eq_some_iff.mp held).1]
        exact held
      · by_cases old : other < server.socks.sockinfos.length
        · rw [List.getElem?_append_left old] at held
          exact Or.inl held
        · rw [List.getElem?_append_right (Nat.le_of_not_lt old)] at held
          exact Or.inr ⟨fd, List.mem_singleton.mp (List.mem_of_getElem? held)⟩
  | full => exact ⟨fun _ held => held, fun _ held => Or.inl held⟩

/-- A poll sets the events, and the handling of an entry leaves the others alone. -/
theorem advance_reported {moment : Moment} {running next : Running κ}
    (sound : ∀ info ∈ running.server.socks.sockinfos, info.Sound) (reported : running.Reported)
    (advanced : advance hi moment running = .ok next) : next.Reported := by
  unfold advance at advanced
  split at advanced
  · split at advanced
    · cases advanced
    rename_i server goesOn polled
    cases advanced
    obtain ⟨infos', checked, done, _, _, entries⟩ := socksPoll_polledTo running.server.polls moment.calloc
      moment.ready (fun info member => (sound info member).fitting)
      fun info member => (sound info member).unreleased
    rw [pollAll, done] at polled
    cases checked with
    | none =>
        cases polled
        intro index info _ none_
        exact absurd none_ (by simp)
    | some entries' =>
        cases polled
        obtain ⟨ready, _, related⟩ := entries entries' rfl
        intro index info _ _ found type
        have mapped : (entries'.map Prod.fst)[index]? = some info := found
        rw [List.getElem?_map] at mapped
        obtain ⟨entry, among, rfl⟩ := Option.map_eq_some_iff.mp mapped
        obtain ⟨_, _, polledTo⟩ := getElem?_of_forall₂ related among
        exact polledTo.due type
  · rename_i left more
    split at advanced
    · cases advanced
    rename_i server goesOn handled
    cases advanced
    intro index info from_ below found type
    have later : running.index + 1 ≤ index := from_
    have near : index < running.index + 1 + left := by
      refine Nat.lt_of_lt_of_le below (Nat.add_le_add_left ?_ _)
      split_ifs
      · exact Nat.le_refl left
      · exact Nat.zero_le left
    rcases ((handleAt_cases handled).others (by omega : index ≠ running.index)).2 info found with
      old | ⟨fd, rfl⟩
    · exact reported index info (by omega) (by omega) old type
    · exact due_none _

end Reported

/-! ## Runs -/

/-- What is promised of a step: the server is not brought down, no entry but the
one that is handled changes, and the registry does only for a `CONNECT` that came
in whole. -/
structure Withstands (lib : Sorting.Library Client) (moment : Moment) (running : Running Clients) :
    Prop where
  calm : Calm (advance (serverHi lib) moment running)
  others : ∀ next, advance (serverHi lib) moment running = .ok next → running.left ≠ 0 →
    ∀ index info, index ≠ running.index → running.server.socks.sockinfos[index]? = some info →
      next.server.socks.sockinfos[index]? = some info
  registry : ∀ next, advance (serverHi lib) moment running = .ok next →
    (∀ info bytes, running.server.socks.sockinfos[running.index]? = some info →
      Gathers moment.calls info bytes → ¬ (Announces mpktConnectType bytes ∧ Whole bytes)) →
    next.server.state = running.server.state

/-- The condition on a step: memory is finite, and the entry that is handled, if
it waits for bytes, does not get what brings the server down. -/
structure Bearable (moment : Moment) (running : Running Clients) : Prop where
  large : ∀ n, moment.calls.malloc n = true → n < 2 ^ 63
  bytes : running.left ≠ 0 → ∀ info, running.server.socks.sockinfos[running.index]? = some info →
    info.type = .mfdPktIn → info.state.watchesIn = true →
      ∀ bytes, Gathers moment.calls info bytes → ¬ Fatal info.state bytes

section Runs
variable {lib : Sorting.Library Client} {moment : Moment} {running : Running Clients}

theorem sockendDelete_calm (sockend : Sockend) : Calm (sockendDelete sockend) := by
  unfold sockendDelete bufferDelete
  split
  · rename_i failed
    split_ifs at failed
    cases failed
    exact raises_error (by decide)
  · split_ifs
    · exact calm_ok _
    · exact calm_ok _

theorem sockinfoDelete_calm (info : Sockinfo) : Calm (sockinfoDelete info) := by
  unfold sockinfoDelete
  split
  · rename_i failed
    exact raises_error (sockendDelete_calm _ _ failed)
  · split
    · rename_i failed
      exact raises_error (sockendDelete_calm _ _ failed)
    · exact calm_ok _

theorem handleSocketEvent_calm {calls : Calls} {info : Sockinfo} {clients : Clients}
    (sound : info.Sound)
    (packet : info.type = .mfdPktIn → Calm (handlePktEvent (serverHi lib) calls info clients)) :
    Calm (handleSocketEvent (serverHi lib) calls info clients) := by
  unfold handleSocketEvent
  by_cases opened : sockinfoIsopen info = true
  · rw [if_pos opened]
    have fitting := sound.fitting
    unfold Sockinfo.Fitting at fitting
    cases type : info.type with
    | mfdPktIn =>
        simp only
        cases done : handlePktEvent (serverHi lib) calls info clients with
        | error trap => exact raises_error (packet type trap done)
        | ok handled => exact calm_ok _
    | mfdPktOut => simp only [type] at fitting
    | mfdLstn =>
        simp only
        unfold handleLstnEvent
        split_ifs
        · cases calls.accept with
          | none => exact calm_ok _
          | some fd => exact calm_ok _
        · exact calm_ok _
    | mfdNone =>
        simp only [type] at fitting
        rw [sockinfoIsopen, sockendIsopen, sockendIsopen, fitting.1, fitting.2] at opened
        cases opened
  · rw [if_neg opened]
    exact calm_ok _

theorem handleAt_calm {calls : Calls} {index : Nat} {server : Server Clients}
    (event : ∀ info, server.socks.sockinfos[index]? = some info →
      Calm (handleSocketEvent (serverHi lib) calls info server.state)) :
    Calm (handleAt (serverHi lib) calls index server) := by
  unfold handleAt
  cases found : server.socks.sockinfos[index]? with
  | none => exact calm_wild
  | some info =>
      simp only
      cases done : handleSocketEvent (serverHi lib) calls info server.state with
      | error trap => exact raises_error (event info found trap done)
      | ok result =>
          obtain ⟨handled, fresh⟩ := result
          simp only
          split
          · exact calm_ok _
          · unfold addSock
            simp only
            split
            · exact calm_ok _
            · split
              · rename_i failed
                exact raises_error (sockinfoDelete_calm _ _ failed)
              · exact calm_ok _
          · exact calm_wild
          · split
            · rename_i failed
              exact raises_error (sockinfoDelete_calm _ _ failed)
            · exact calm_ok _
          · exact calm_ok _

theorem advance_calm (clear : ∀ info ∈ running.server.socks.sockinfos, info.Clear)
    (reported : running.Reported) (harmless : Bearable moment running) :
    Calm (advance (serverHi lib) moment running) := by
  unfold advance
  cases left : running.left with
  | zero =>
      obtain ⟨result, polled⟩ := (pollsWell_of_sound fun info member => (clear info member).sound).polls
        moment.calloc moment.ready
      simp only [polled]
      exact calm_ok _
  | succ left' =>
      simp only
      have handled : Calm (handleAt (serverHi lib) moment.calls running.index running.server) := by
        refine handleAt_calm fun info found => ?_
        have clearInfo := clear info (List.mem_of_getElem? found)
        refine handleSocketEvent_calm clearInfo.sound fun type => ?_
        exact handlePktEvent_calm clearInfo type
          (reported running.index info (Nat.le_refl _) (by omega) found type) harmless.large
          (harmless.bytes (by omega) info found type)
      cases done : handleAt (serverHi lib) moment.calls running.index running.server with
      | error trap => exact raises_error (handled trap done)
      | ok result => exact calm_ok _

theorem advance_others {next : Running Clients}
    (advanced : advance (serverHi lib) moment running = .ok next) (handles : running.left ≠ 0) {index : Nat}
    {info : Sockinfo} (differs : index ≠ running.index)
    (held : running.server.socks.sockinfos[index]? = some info) :
    next.server.socks.sockinfos[index]? = some info := by
  unfold advance at advanced
  split at advanced
  · rename_i none_
    exact absurd none_ handles
  · split at advanced
    · cases advanced
    rename_i handled
    cases advanced
    exact ((handleAt_cases handled).others differs).1 info held

theorem advance_registry (large : ∀ n, moment.calls.malloc n = true → n < 2 ^ 63) {next : Running Clients}
    (advanced : advance (serverHi lib) moment running = .ok next)
    (stranger : ∀ info bytes, running.server.socks.sockinfos[running.index]? = some info →
      Gathers moment.calls info bytes → ¬ (Announces mpktConnectType bytes ∧ Whole bytes)) :
    next.server.state = running.server.state := by
  unfold advance at advanced
  split at advanced
  · split at advanced
    · cases advanced
    rename_i polled
    cases advanced
    unfold pollAll at polled
    split at polled
    · cases polled
    · cases polled
      rfl
    · cases polled
      rfl
  · split at advanced
    · cases advanced
    rename_i handled
    cases advanced
    have event : ∀ {info : Sockinfo} {handled : Handled Clients},
        running.server.socks.sockinfos[running.index]? = some info →
        Attended (serverHi lib) moment.calls info running.server.state (handled, none) →
        handled.state = running.server.state := by
      intro info handled found attended
      cases attended with
      | shut _ => rfl
      | quiet _ => rfl
      | refused _ _ => rfl
      | packet _ _ done => exact handlePktEvent_registry large done fun bytes => stranger info bytes found
    cases handleAt_cases handled with
    | kept info handled _ found attended _ => exact event found attended
    | deleted info handled _ _ found attended _ _ => exact event found attended
    | added info fd socks _ _ _ _ => rfl
    | full info fd _ _ _ _ _ _ _ => rfl

/-- The run lemma: what every reached state has. -/
theorem reaches_ready {realloc : Nat → Bool} {servsock : Nat} {clients : Clients} {server : Server Clients}
    (started : serverStart realloc servsock clients = .ok (some server))
    (reaches : Reaches (serverHi lib) ⟨server, 0, 0⟩ running) :
    (∀ info ∈ running.server.socks.sockinfos, info.Clear) ∧ running.Reported := by
  have starts : ∀ info ∈ server.socks.sockinfos, info.Clear := by
    intro info member
    obtain ⟨sound, listening⟩ := serverStart_entries started info member
    refine ⟨sound, fun packet => ?_⟩
    rw [listening] at packet
    cases packet
  refine ⟨(entrywise_clear lib).runs reaches starts, ?_⟩
  have both : (∀ info ∈ running.server.socks.sockinfos, info.Sound) ∧ running.Reported := by
    apply @Reached.invariant _ _ _ _ _ _ _
      (fun running : Running Clients =>
        (∀ info ∈ running.server.socks.sockinfos, info.Sound) ∧ running.Reported) reaches
    · exact ⟨fun info member => (starts info member).sound, fun index info _ none_ => absurd none_ (by simp)⟩
    · rintro moment before after ⟨sound, reported⟩ _ advanced
      exact ⟨(entrywise_sound (serverHi_turns lib)).runs (.step moment .start trivial advanced) sound,
        advance_reported sound reported advanced⟩
  exact both.2

end Runs

/-- In every state that a run of the server gets to, a step is withstood unless
what comes in is fatal. -/
theorem server_withstands (lib : Sorting.Library Client) {realloc : Nat → Bool} {servsock : Nat}
    {clients : Clients} {server : Server Clients} {running : Running Clients} {moment : Moment}
    (started : serverStart realloc servsock clients = .ok (some server))
    (reaches : Reaches (serverHi lib) ⟨server, 0, 0⟩ running) (harmless : Bearable moment running) :
    Withstands lib moment running := by
  obtain ⟨clear, reported⟩ := reaches_ready started reaches
  exact
    { calm := advance_calm clear reported harmless
      others := fun _ advanced handles _ _ differs held => advance_others advanced handles differs held
      registry := fun _ advanced stranger => advance_registry harmless.large advanced stranger }

def headArrives : Moment := ⟨true, none, { grantedCalls with read := .bytes (announcement.wire.drop 4) }⟩

structure HeadSteps (server : Server Clients) (running : Running Clients) : Prop where
  started : serverStart memory 3 clientsInit = .ok (some server)
  runs : steps (advance (serverHi (Sorting.simpleLibrary Client)))
    (connectionOn 4 ++ takingIn grantedCalls announcement.wire [0, 1, 2] ++
      (attendingTo { pollin := true } grantedCalls).take 2) ⟨server, 0, 0⟩ = .ok running
  entry : (running.server.socks.sockinfos[running.index]?).map
    (fun info => (info.state, info.inEnd.buf.bytes)) = some (.mssReqrd, announcement.wire.take 4)

theorem Announces.type_of_prefix {type : UInt32} {bytes : List UInt8} (announces : Announces type bytes)
    {w : Packet} (front : bytes <+: w.wire) : w.mpktType = type := by
  obtain ⟨magic, rest, rfl⟩ := announces
  obtain ⟨tail, split⟩ := front
  have kind := w.wire_type []
  rw [List.append_nil, ← split] at kind
  simp only [List.append_assoc] at kind
  rw [← htonl_length magic, List.drop_left, ntohl_htonl] at kind
  exact kind.symm

theorem not_fatal_of_connect {state : SockState} {bytes : List UInt8} {w : Packet}
    (front : bytes <+: w.wire) (connect : w.mpktType = mpktConnectType) : ¬ Fatal state bytes := by
  have other : ∀ type, type ≠ mpktConnectType → ¬ Announces type bytes := fun type differs announces =>
    differs ((announces.type_of_prefix front).symm.trans connect)
  rintro (⟨magic, type, rest, rfl, _⟩ | disconnect | ⟨_, response, _⟩)
  · refine other mpktResponseType (by decide) ⟨magic, htonl type ++ rest, ?_⟩
    simp only [List.append_assoc]
  · exact other mpktDisconnect (by decide) disconnect
  · exact other mpktResponseType (by decide) response

theorem server_withstands_head : ∃ (server : Server Clients) (running : Running Clients),
    HeadSteps server running ∧ Withstands (Sorting.simpleLibrary Client) headArrives running := by
  have happens : ∃ server running, HeadSteps server running := ⟨_, _, rfl, rfl, rfl⟩
  obtain ⟨server, running, head⟩ := happens
  refine ⟨server, running, head, server_withstands (Sorting.simpleLibrary Client) head.started
    (.of_steps head.runs) ⟨memory_large, ?_⟩⟩
  rintro _ info found _ _ bytes ⟨buf, read, came, _⟩
  have entry := head.entry
  rw [found] at entry
  obtain ⟨_, held⟩ := Prod.mk.inj (Option.some.inj entry)
  refine @not_fatal_of_connect _ _ announcement ?_ rfl
  rw [held]
  rcases @bufferRead_cases headArrives.calls.realloc info.inEnd.fd headArrives.calls.read
    info.inEnd.buf with ⟨_, failed, _⟩ | ⟨_, stream, n, four, _, answer, _⟩
  · rw [failed] at came
    cases came
  · rw [answer] at came
    cases came
    cases four
    have split := List.take_append_drop 4 announcement.wire
    rw [← split, List.take_append_drop]
    exact (List.prefix_append_right_inj _).mpr (List.take_prefix n _)

def farewell : Packet := packetInit zeroPacket mpktDisconnect

/-- A peer that connects and takes its leave brings the server down. -/
theorem disconnect_bringsDown : ∃ (server server' : Server Clients) (running : Running Clients) (moment : Moment),
    serverStart (fun _ => true) 3 clientsInit = .ok (some server) ∧
      serverLoops (serverHi (Sorting.simpleLibrary Client))
        (accepting 4 :: readingAll quietCalls farewell.wire 3) server = .ok server' ∧
      serverLoop (serverHi (Sorting.simpleLibrary Client)) true
        (some (readingFrom quietCalls (farewell.wire.drop 4)).ready)
        (readingFrom quietCalls (farewell.wire.drop 4)).calls server' = .error .abort ∧
      Reaches (serverHi (Sorting.simpleLibrary Client)) ⟨server, 0, 0⟩ running ∧
      ¬ Withstands (Sorting.simpleLibrary Client) moment running := by
  have runs : ∃ server server' : Server Clients,
      serverStart (fun _ => true) 3 clientsInit = .ok (some server) ∧
        serverLoops (serverHi (Sorting.simpleLibrary Client))
          (accepting 4 :: readingAll quietCalls farewell.wire 3) server = .ok server' ∧
        serverLoop (serverHi (Sorting.simpleLibrary Client)) true
          (some (readingFrom quietCalls (farewell.wire.drop 4)).ready)
          (readingFrom quietCalls (farewell.wire.drop 4)).calls server' = .error .abort :=
    ⟨_, _, rfl, rfl, rfl⟩
  obtain ⟨server, server', started, loops, aborts⟩ := runs
  obtain ⟨index, reaches⟩ := serverLoops_runs loops 0
  obtain ⟨running, moment, rest, brought⟩ := (serverLoop_runs true _ _ index server').2 _ aborts
  refine ⟨server, server', running, moment, started, loops, aborts, reaches.trans rest, fun withstands => ?_⟩
  exact (withstands.calm .abort brought).1 rfl

end Middfs
