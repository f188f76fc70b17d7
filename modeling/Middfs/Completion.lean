import Middfs.EndToEnd

/-!
# Sessions come to their end

Every event of a session whose requester, peer and system do what they should
takes something off what remains to be read and written, and none but the last
takes the session away.  So the number of its events is bounded by the lengths of
the packets, and the session is answered when they are over.
-/

set_option autoImplicit false

namespace Middfs

open Runs

/-! ## Reads that do not fail -/

theorem bufferIncrease_granted {buf : Buffer} (small : buf.used < 2 ^ 62) :
    ∃ grown, bufferIncrease memory buf = some grown := by
  unfold bufferIncrease
  split_ifs with full
  · have inside := buf.inside
    have bound : smax 1 (buf.size * 2) < 2 ^ 63 := by
      unfold Buffer.rem at full
      unfold Buffer.used at small
      unfold smax Buffer.size
      split_ifs <;> omega
    exact ⟨_, dif_pos ⟨memory_small _ bound, bound⟩⟩
  · exact ⟨buf, rfl⟩

theorem bufferRead_granted (fd : Int) {buf : Buffer} (small : buf.used < 2 ^ 62) (byte : UInt8)
    (stream : List UInt8) :
    ∃ buf' bytes, bufferRead memory fd (.bytes (byte :: stream)) buf = .ok (buf', some bytes) ∧
      bytes ≠ [] := by
  rcases @bufferRead_cases memory fd (.bytes (byte :: stream)) buf with ⟨buf', failed, _⟩ |
    ⟨buf', bytes, n, same, positive, read, _, _⟩
  · obtain ⟨grown, increased⟩ := bufferIncrease_granted small
    simp only [bufferRead, increased] at failed
    split at failed
    · cases failed
    · cases failed
  · cases same
    refine ⟨buf', _, read, fun none_ => ?_⟩
    obtain ⟨m, rfl⟩ := Nat.exists_eq_succ_of_ne_zero positive.ne'
    cases none_

/-- From the front of what can be decoded nothing is refused. -/
theorem decode_front {wire bytes : List UInt8} (bound : wire.length < 2 ^ 63)
    (fine : outcome memory wire ≠ .error) (front : bytes <+: wire) {s : Cursor Packet}
    (answer : deserializePkt memory bytes zeroPacket 0 = .ok s) : s.err = 0 := by
  obtain ⟨tail, rfl⟩ := front
  have short : bytes.length < 2 ^ 63 := by
    rw [List.length_append] at bound
    omega
  obtain ⟨s', answer', same, _⟩ := decode_outcome memory_small memory_large short
    (zeroPacket_ready bytes) fun bad => fine (outcome_badType (bad.grow tail))
  rw [answer] at answer'
  cases answer'
  by_contra failed
  rw [verdict, if_pos failed] at same
  refine fine ?_
  rw [outcome_grow tail bound (by rw [← same]; exact fun no => by cases no), ← same]

/-- A read of a session that goes on, with the bytes that are there afterwards. -/
inductive StaysReading {κ : Type} (hi : HandlerInfo κ) (calls : Calls) (info : Sockinfo) (state : κ)
    (handled : Handled κ) : Prop where
  | unfinished (buf : Buffer) (bytes : List UInt8) (s : Cursor Packet) :
      Gathered calls info buf bytes s → handled.status = .hsSuc → handled.info = info.withIn buf →
      StaysReading hi calls info state handled
  | complete (buf : Buffer) (bytes : List UInt8) (s : Cursor Packet) (after : Handled κ) :
      Gathered calls info buf bytes s → s.err = 0 → s.used ≤ buf.used →
      hi.rdFin calls (info.withIn (bufferShift buf s.used)) s.obj state = .ok after →
      handled.status = after.status → handled.info = after.info →
      StaysReading hi calls info state handled

section Reads
variable {κ : Type} {hi : HandlerInfo κ} {calls : Calls} {info : Sockinfo} {state : κ}
variable {handled : Handled κ} {wire : List UInt8}

/-- What a read comes to when nothing fails and the other side sends `wire`. -/
theorem handlePktRd_stays (granted : calls.Granted) (bound : wire.length < 2 ^ 62)
    (fine : outcome memory wire ≠ .error) {byte : UInt8} {rest : List UInt8}
    (reads : calls.read = .bytes (byte :: rest))
    (sends : info.inEnd.buf.bytes ++ byte :: rest <+: wire)
    (done : handlePktRd hi calls info state = .ok handled) :
    StaysReading hi calls info state handled := by
  have small : info.inEnd.buf.used < 2 ^ 62 := by
    have length := sends.length_le
    rw [List.length_append, info.inEnd.buf.bytes_length] at length
    omega
  have clean : ∀ buf bytes s, Gathered calls info buf bytes s → s.err = 0 := by
    intro buf bytes s gathered
    obtain ⟨stream, n, offered, rfl⟩ := gathered.read
    rw [reads] at offered
    cases offered
    have front : buf.bytes <+: wire := by
      rw [bytes_of_read gathered.contents]
      exact ((List.prefix_append_right_inj _).mpr (List.take_prefix n _)).trans sends
    have decoded := gathered.decoded
    rw [granted.malloc] at decoded
    exact decode_front (by omega) fine front decoded
  unfold handlePktRd at done
  cases received : receivePacket calls info with
  | error trap =>
      rw [received] at done
      cases done
  | ok result =>
      rw [received] at done
      cases receivePacket_cases received with
      | nothing buf kept =>
          -- there is room, and something to be read
          obtain ⟨buf', bytes, read, some_⟩ := bufferRead_granted info.inEnd.fd small byte rest
          unfold receivePacket at received
          split_ifs at received
          simp only [granted.realloc, reads, read, if_neg some_] at received
          split at received
          · cases received
          · split_ifs at received
            all_goals cases received
      | rejected buf bytes s gathered failing => exact absurd (clean buf bytes s gathered) failing
      | unfinished buf bytes s gathered _ short =>
          cases done
          exact .unfinished buf bytes s gathered rfl rfl
      | complete buf bytes s gathered clean within =>
          cases finished : hi.rdFin calls (info.withIn (bufferShift buf s.used)) s.obj state with
          | error trap =>
              simp only [finished] at done
              cases done
          | ok after =>
              simp only [finished] at done
              cases done
              exact .complete buf bytes s after gathered clean within finished rfl rfl

theorem Gathered.used {buf : Buffer} {bytes : List UInt8} {s : Cursor Packet}
    (gathered : Gathered calls info buf bytes s) : info.inEnd.buf.used < buf.used := by
  have length := congrArg List.length (bytes_of_read gathered.contents)
  rw [List.length_append, buf.bytes_length, info.inEnd.buf.bytes_length] at length
  have some_ := List.length_pos_iff.mpr gathered.some
  omega

theorem bufferShift_used (buf : Buffer) (n : Nat) : (bufferShift buf n).used = buf.used - n := by
  have length := congrArg List.length (bufferShift_contents buf n).1
  rw [(bufferShift buf n).contents_length, List.length_drop, buf.contents_length] at length
  exact length

/-- What a write comes to that does not fail: something is written, or nothing was
left and the handler goes on. -/
theorem handlePktWr_stays {n : Nat} (writes : calls.write = .count n)
    (done : handlePktWr hi calls info state = .ok handled) :
    (handled.status = .hsSuc ∧ ∃ buf, handled.info = info.withOut buf ∧
        buf.used < info.outEnd.buf.used) ∨
      ∃ buf, buf.used = 0 ∧ hi.wrFin calls (info.withOut buf) state = .ok handled := by
  unfold handlePktWr at done
  split_ifs at done
  simp only [writes, bufferWrite] at done
  have shifted := bufferShift_used info.outEnd.buf (min info.outEnd.buf.used (max 1 n))
  split_ifs at done with some_
  · cases done
    refine Or.inl ⟨rfl, _, rfl, ?_⟩
    have taken := List.length_pos_iff.mpr some_
    rw [List.length_take] at taken
    omega
  · refine Or.inr ⟨_, ?_, done⟩
    have taken := congrArg List.length (not_not.mp some_)
    rw [List.length_take, info.outEnd.buf.bytes_length, List.length_nil] at taken
    omega

end Reads

/-! ## What remains to be done -/

/-- What has to be read and written yet, as long as nothing fails, and one more for
each packet that comes to its end. -/
def remaining (session : Session) (registry : Clients) (info : Sockinfo) : Nat :=
  let response := session.response.image.length
  let answer := (session.answer registry).length
  match info.state with
  | .mssReqfwd => info.outEnd.buf.used + response + answer + 2
  | .mssRspfwd => response - info.inEnd.buf.used + answer + 1
  | .mssRspwr => info.outEnd.buf.used + 1
  | _ => 0

/-- The most events there are of a session. -/
def allowance (session : Session) (registry : Clients) : Nat :=
  2 * session.request.image.length + session.response.image.length + (session.answer registry).length + 2

/-- The packets can be held in memory, and decoded there. -/
structure Session.Fits (session : Session) : Prop where
  request : session.request.image.length < 2 ^ 62
  response : session.response.image.length < 2 ^ 62
  decodable : outcome memory session.response.image ≠ .error

/-- Those who take part do what they should, and something comes in where it is
read. -/
structure Steady (session : Session) (events : List Event) (calls : Calls) (info : Sockinfo) : Prop
    extends Behaves session events calls info where
  reads : info.state.watchesIn = true → info.revents ≠ Revents.none →
    ∃ byte rest, calls.read = .bytes (byte :: rest)

section Session
variable {session : Session} {registry : Clients} {events : List Event} {info : Sockinfo}
variable {calls : Calls} {handled : Handled Clients}

theorem Behaves.cooperates (behaves : Behaves session events calls info) :
    Cooperates session events calls info where
  granted := behaves.granted
  fresh := fun state fd socket => by
    obtain ⟨other, same, _, differs⟩ := behaves.connects state
    rw [socket] at same
    cases same
    exact differs
  requests := behaves.requests
  responses := behaves.responses

/-- A request is always decoded. -/
theorem Session.Valid.request_fine (valid : session.Valid) :
    outcome memory session.request.image ≠ .error := by
  have bound : (session.request.asSent.wire ++ []).length < 2 ^ 63 := by
    rw [List.append_nil, valid.sent_wire]
    exact valid.small
  obtain ⟨got, decoded, _⟩ := deserializePkt_wire memory_small valid.sent_wellFormed
    (show zeroPacket.Grants memory session.request.asSent from fun no =>
      absurd (valid.sent_type.symm.trans no) (by decide)) (zeroPacket_ready _) bound
  rw [List.append_nil, valid.sent_wire] at decoded
  rw [outcome_of_complete valid.small decoded rfl (Nat.le_refl _)]
  exact fun no => by cases no

theorem used_of_prefix {buf : Buffer} {wire : List UInt8} (front : buf.bytes <+: wire) :
    buf.used ≤ wire.length := by
  rw [← buf.bytes_length]
  exact front.length_le

/-- What is left after the request was read. -/
theorem Progress.remaining_le (progress : Progress registry session events info)
    (later : info.state ≠ .mssReqrd) :
    remaining session registry info + session.request.image.length ≤ allowance session registry := by
  unfold remaining allowance
  cases progress with
  | reading state _ _ _ _ _ => exact absurd state later
  | forwarding state _ written _ _ _ _ _ =>
      have length := congrArg List.length written
      rw [List.length_append, info.outEnd.buf.bytes_length] at length
      simp only [state]
      omega
  | awaiting state _ _ _ _ _ _ _ =>
      simp only [state]
      omega
  | answering peers state _ _ written =>
      have length := congrArg List.length written
      rw [List.length_append, info.outEnd.buf.bytes_length] at length
      simp only [state]
      omega

/-- A request that is handled does not end the session. -/
theorem request_stays (lib : Sorting.Library Client) {pkt : Packet} (read : RequestRead session pkt)
    (listable : registry.Listable) (granted : calls.Granted)
    (connects : ∃ fd : Nat, calls.socket = some fd ∧ calls.connect = true ∧ (fd : Int) ≠ info.inEnd.fd)
    (empty : info.outEnd.buf.contents = [])
    (done : serverRdFin lib calls info pkt registry = .ok handled) : handled.status = .hsSuc := by
  have queues : ∀ {pkt : Packet} (gone : Sockinfo) {more : List Event}, pkt.WellFormed →
      pkt.wire.length < 2 ^ 63 → gone.outEnd.buf.contents = [] →
      queuePacket calls gone pkt registry more = .ok handled → handled.status = .hsSuc := by
    intro pkt gone more wf small empty done
    obtain ⟨buf, queued, _⟩ := @queuePacket_whole calls registry granted gone pkt wf small empty more
    rw [queued] at done
    cases done
    rfl
  rw [serverRdFin, read.type, if_neg (by decide), if_neg (by decide), if_pos rfl] at done
  cases root : rootRequested pkt.mpktRequest with
  | true =>
      rw [handleReqRdFin_root lib calls info pkt registry root] at done
      have sendable := rootResponse_sendable granted listable info pkt.mpktRequest
      exact queues info.answering sendable.whole sendable.small empty done
  | false =>
      obtain ⟨owner, held⟩ := Option.isSome_iff_exists.mp (read.wellFormed.request read.type).rsrc.1
      have name := lookedUp_of_owner root held
      rw [handleReqRdFin_lookedUp lib calls info pkt registry name] at done
      have missing : (packetError zeroPacket enoent).Sendable := sendable_error rfl
      cases found : clientFind lib owner registry with
      | none =>
          rw [found] at done
          exact queues info.answering missing.whole missing.small empty done
      | some client =>
          obtain ⟨fd, socket, connect, differs⟩ := connects
          have connected : inetConnect calls = (some (fd : Int), [.created fd]) := by
            simp only [inetConnect, socket, connect, if_true]
          simp only [found, connected] at done
          exact queues (info.forwarding fd) read.wellFormed read.small empty done

/-- An event while the request is read: more of it is there, unless it was handled. -/
theorem reading_spends (lib : Sorting.Library Client) (valid : session.Valid) (fits : session.Fits)
    (listable : registry.Listable) (steady : Steady session events calls info)
    (state : info.state = .mssReqrd) (progress : Progress registry session events info)
    (ready : info.revents ≠ Revents.none)
    (done : handlePktEvent (serverHi lib) calls info registry = .ok handled) :
    handled.status = .hsSuc ∧ info.inEnd.buf.used < session.request.image.length ∧
      (handled.info.state = .mssReqrd → info.inEnd.buf.used < handled.info.inEnd.buf.used ∧
        handled.info.inEnd.buf.used ≤ session.request.image.length) := by
  cases progress with
  | reading _ _ received _ _ empty =>
      obtain ⟨byte, rest, reads⟩ := steady.reads (by rw [state]; rfl) ready
      have sends := steady.requests state _ reads
      rw [received] at sends
      have more := sends.length_le
      rw [List.length_append, info.inEnd.buf.bytes_length, List.length_cons] at more
      simp only [handlePktEvent, if_neg ready, state] at done
      cases handlePktRd_stays steady.granted fits.request valid.request_fine reads sends done with
      | unfinished buf bytes s gathered status left =>
          refine ⟨status, by omega, fun _ => ?_⟩
          rw [left]
          exact ⟨gathered.used, used_of_prefix (gathered_front gathered received (steady.requests state))⟩
      | complete buf bytes s after gathered clean within finished status left =>
          have decoded := gathered.decoded
          rw [steady.granted.malloc] at decoded
          have read := (valid.request_decodes (gathered_front gathered received (steady.requests state))
            decoded clean (by rw [buf.bytes_length]; exact within)).1
          have same : serverRdFin lib calls (info.withIn (bufferShift buf s.used)) s.obj registry =
              .ok after := finished
          have stays : after.status = .hsSuc := by
            refine request_stays lib read listable steady.granted ?_ ?_ same
            · exact steady.connects state
            · exact empty
          refine ⟨status.trans stays, by omega, fun still => ?_⟩
          rw [left] at still
          obtain ⟨turned, out, turns, left', _⟩ := (serverHi_turns lib).rdFin calls
            (info.withIn (bufferShift buf s.used)) s.obj registry after (by
              show info.state.watchesIn = true
              rw [state]
              rfl) finished
          have same : after.info.state = (turned.withOut out).state := congrArg Sockinfo.state left'
          rw [same] at still
          exact absurd still (turns.moves (by rw [stays]; exact fun no => by cases no))
  | forwarding no _ _ _ _ _ _ _ => cases state.symm.trans no
  | awaiting no _ _ _ _ _ _ _ => cases state.symm.trans no
  | answering _ no _ _ _ => cases state.symm.trans no

/-- Every other event takes something off what remains, or ends the session. -/
theorem later_spends (lib : Sorting.Library Client) (valid : session.Valid) (fits : session.Fits)
    (steady : Steady session events calls info)
    (later : info.state ≠ .mssReqrd) (progress : Progress registry session events info)
    (ready : info.revents ≠ Revents.none)
    (done : handlePktEvent (serverHi lib) calls info registry = .ok handled) :
    (handled.status = .hsSuc ∧
        remaining session registry handled.info < remaining session registry info) ∨
      handled.info.state = .mssClosed := by
  obtain ⟨n, writes⟩ := steady.writes
  cases progress with
  | reading state _ _ _ _ _ => exact absurd state later
  | forwarding state _ _ _ _ _ empty _ =>
      left
      simp only [handlePktEvent, if_neg ready, state] at done
      rcases handlePktWr_stays writes done with ⟨status, buf, left, less⟩ | ⟨buf, none_, finished⟩
      · refine ⟨status, ?_⟩
        rw [left]
        simp only [remaining, state, Sockinfo.withOut]
        omega
      · have same : serverWrFin (info.withOut buf) registry = .ok handled := finished
        rw [@serverWrFin_reqfwd (info.withOut buf) state] at same
        cases same
        refine ⟨rfl, ?_⟩
        have unread : info.inEnd.buf.used = 0 := by
          rw [← info.inEnd.buf.bytes_length, Buffer.bytes, empty]
          rfl
        simp only [remaining, state, Sockinfo.crossed, Sockinfo.withOut]
        omega
  | awaiting state _ _ _ received _ empty answer =>
      left
      obtain ⟨byte, rest, reads⟩ := steady.reads (by rw [state]; rfl) ready
      have sends := steady.responses state _ reads
      rw [received] at sends
      have more := sends.length_le
      rw [List.length_append, info.inEnd.buf.bytes_length, List.length_cons] at more
      simp only [handlePktEvent, if_neg ready, state] at done
      cases handlePktRd_stays steady.granted fits.response fits.decodable reads sends done with
      | unfinished buf bytes s gathered status left =>
          refine ⟨status, ?_⟩
          have grows := gathered.used
          rw [left]
          simp only [remaining, state, Sockinfo.withIn]
          omega
      | complete buf bytes s after gathered clean within finished status left =>
          have decoded := gathered.decoded
          rw [steady.granted.malloc] at decoded
          obtain ⟨sendable, image⟩ := valid.response_decodes
            (gathered_front gathered received (steady.responses state)) decoded clean
            (by rw [buf.bytes_length]; exact within)
          obtain ⟨out, response, outBytes⟩ := @serverRdFin_response lib calls registry steady.granted
            (info.withIn (bufferShift buf s.used)) s.obj state empty sendable
          have same : serverRdFin lib calls (info.withIn (bufferShift buf s.used)) s.obj registry =
              .ok after := finished
          rw [response] at same
          cases same
          refine ⟨status, ?_⟩
          have queued : out.used = (session.answer registry).length := by
            rw [← out.bytes_length, outBytes, image, answer]
          rw [left]
          simp only [remaining, state, Sockinfo.withOut, Sockinfo.withIn]
          omega
  | answering peers state _ _ _ =>
      simp only [handlePktEvent, if_neg ready, state] at done
      rcases handlePktWr_stays writes done with ⟨status, buf, left, less⟩ | ⟨buf, none_, finished⟩
      · refine Or.inl ⟨status, ?_⟩
        rw [left]
        simp only [remaining, state, Sockinfo.withOut]
        omega
      · have same : serverWrFin (info.withOut buf) registry = .ok handled := finished
        rw [@serverWrFin_rspwr (info.withOut buf) state] at same
        cases same
        exact Or.inr rfl

end Session

/-! ## What is kept -/

section Histories
variable (lib : Sorting.Library Client) {session : Session} {clients : Clients}
variable {history : List (Delivery Clients)} {events : List Event} {info : Sockinfo} {index : Nat}
variable {calls : Calls} {handled : Handled Clients}

def Spent (session : Session) (history : List (Delivery Clients)) (count : Nat) (info : Sockinfo) : Prop :=
  match history with
  | [] => count ≤ info.inEnd.buf.used ∧ info.inEnd.buf.used ≤ session.request.image.length
  | delivery :: _ => count + remaining session delivery.state info ≤ allowance session delivery.state

theorem handlePktEvent_quiet {κ : Type} {hi : HandlerInfo κ} {state : κ} {handled : Handled κ}
    (quiet : info.revents = Revents.none) (done : handlePktEvent hi calls info state = .ok handled) :
    handled = ⟨.hsSuc, info, state, []⟩ ∧ handedOver calls info = none := by
  rw [handlePktEvent, if_pos quiet] at done
  cases done
  exact ⟨rfl, if_neg fun both => both.1 quiet⟩

/-- No event ends the session but the last. -/
theorem Going.stays (valid : session.Valid) (fits : session.Fits)
    (listable : info.state = .mssReqrd → clients.Listable) (steady : Steady session events calls info)
    (going : Going session history events info)
    (done : handlePktEvent (serverHi lib) calls info clients = .ok handled) :
    handled.status ≠ .hsDel ∨ handled.info.state = .mssClosed := by
  by_cases quiet : info.revents = Revents.none
  · obtain ⟨rfl, _⟩ := handlePktEvent_quiet quiet done
    exact Or.inl fun no => by cases no
  cases going with
  | unheard none_ state progress =>
      left
      rw [(reading_spends lib valid fits (listable state) steady state (progress clients) quiet done).1]
      exact fun no => by cases no
  | heard delivery later one read sorted listable' state progress =>
      have moved := progress.moved lib valid steady.cooperates state done delivery.state
      rcases later_spends lib valid fits steady state progress quiet moved with ⟨status, _⟩ | closed
      · have status' : handled.status = .hsSuc := status
        left
        rw [status']
        exact fun no => by cases no
      · exact Or.inr closed

/-- An event that does not end the session is accounted for. -/
theorem Going.spends (valid : session.Valid) (fits : session.Fits)
    (sorted : Sorting.Sorted clientCmp clients.vec)
    (listable : info.state = .mssReqrd → clients.Listable) (steady : Steady session events calls info)
    (type : info.type = .mfdPktIn) (going : Going session history events info)
    (ready : info.revents ≠ Revents.none)
    (done : handlePktEvent (serverHi lib) calls info clients = .ok handled)
    (status : handled.status ≠ .hsDel) {count : Nat} (spent : Spent session history count info) :
    Spent session (history ++ deliveredAt calls index info clients) (count + 1) handled.info := by
  have next : Going session (history ++ deliveredAt calls index info clients) _ handled.info :=
    (going.event lib valid sorted listable steady.cooperates type done).kept status
  cases going with
  | unheard none_ state progress =>
      obtain ⟨_, more, grows⟩ :=
        reading_spends lib valid fits (listable state) steady state (progress clients) ready done
      rw [none_] at spent
      obtain ⟨before, _⟩ := spent
      cases next with
      | unheard none' state' _ =>
          rw [none']
          obtain ⟨after, within⟩ := grows state'
          exact ⟨by omega, within⟩
      | heard delivery later one _ _ _ state' progress' =>
          rw [one]
          have rest := progress'.remaining_le state'
          show count + 1 + remaining session delivery.state handled.info ≤ allowance session delivery.state
          omega
  | heard delivery later one _ _ _ state progress =>
      rw [one] at spent ⊢
      have before : count + remaining session delivery.state info ≤ allowance session delivery.state := spent
      have moved := progress.moved lib valid steady.cooperates state done delivery.state
      show count + 1 + remaining session delivery.state handled.info ≤ allowance session delivery.state
      rcases later_spends lib valid fits steady state progress ready moved with ⟨_, less⟩ | closed
      · have less' : remaining session delivery.state handled.info <
            remaining session delivery.state info := less
        omega
      · have closed' : handled.info.state = .mssClosed := closed
        cases next with
        | unheard _ open_ _ => cases closed'.symm.trans open_
        | heard _ _ _ _ _ _ _ progress' => exact absurd closed' progress'.state

structure Completes (session : Session) (history : List (Delivery Clients)) (events : List Event)
    (info : Sockinfo) : Prop where
  packet : info.type = .mfdPktIn → Going session history events info
  ended : info.type ≠ .mfdPktIn →
    info.type = .mfdNone ∧ info.state = .mssClosed ∧ Outcome session history events info

theorem Completes.slots {info' : Sockinfo} (completes : Completes session history events info)
    (same : SameButSlots info info') (revents : Revents) :
    Completes session history events { info' with revents := revents } where
  packet := fun type => (completes.packet (same.type.symm.trans type)).slots same revents
  ended := fun type => by
    obtain ⟨unused, closed, outcome⟩ := completes.ended fun packet => type (same.type.trans packet)
    exact ⟨same.type.trans unused, same.state.trans closed, outcome.alike same.state⟩

/-- The condition on a step: there is room for connections, nothing is disturbed, and
the session at `own` is steady. -/
def steadily (own : Nat) (session : Session) : Expected Clients where
  polls := fun reported => ∀ ready, reported = some ready → ¬ Disturbed ready
  accepts := fun calls socks => ∀ fd : Nat, (socksAdd calls.realloc (.accepted fd) socks).isSome = true
  handles := fun index events calls info clients => index = own →
    Steady session events calls info ∧ (info.state = .mssReqrd → clients.Listable)

theorem historic_completes {own : Nat} (valid : session.Valid) (fits : session.Fits) :
    Historic (serverHi lib) (steadily own session)
      (fun clients => Sorting.Sorted clientCmp clients.vec)
      (fun index history events info =>
        info.Sound ∧ (index = own → Completes session history events info)) (· = []) where
  sound := fun _ _ _ _ both => both.1
  accepted := fun _ events fd none_ => by
    subst none_
    refine ⟨sound_accepted fd, fun _ => ⟨fun _ => ?_, fun no => absurd rfl no⟩⟩
    exact .unheard rfl rfl fun _ =>
      .reading rfl ⟨rfl, rfl⟩ rfl (fun _ => rfl) (fun _ _ => rfl) rfl
  refused := fun _ _ _ fd room refused _ => by
    have added := room fd
    rw [refused] at added
    cases added
  slots := fun _ _ _ _ info' both same => by
    refine ⟨same.sound both.1, fun own => ?_⟩
    have kept := (both.2 own).slots same info'.revents
    exact kept
  polled := fun _ history events info ready checked both quiet polledTo => by
    cases polledTo with
    | kept info' revents same _ =>
        have sound := same.sound both.1
        refine ⟨⟨sound.fitting, sound.unreleased⟩, fun own => ?_⟩
        show Completes session history (events ++ []) _
        rw [List.append_nil]
        exact (both.2 own).slots same revents
    | deleted info' _ _ disturbed => exact absurd disturbed (quiet ready rfl)
  listening := fun _ _ _ info both type => by
    have deletable := both.1.deletable (by rw [type]; intro no; cases no)
    refine ⟨sound_deleted deletable (sockinfoDelete_eq deletable.inUnreleased deletable.outUnreleased),
      fun own => ?_⟩
    obtain ⟨unused, _⟩ := (both.2 own).ended (by rw [type]; exact fun no => by cases no)
    cases type.symm.trans unused
  event := fun index history events calls info clients handled both sorted type steady done => by
    obtain ⟨sound, deletable⟩ :=
      (handlePktEvent_stepped (serverHi_turns lib) done).sound type both.1
    have advances : index = own →
        Advances session (history ++ deliveredAt calls index info clients) events handled := fun own =>
      ((both.2 own).packet type).event lib valid sorted (steady own).2 (steady own).1.cooperates type done
    refine ⟨sorted_of_event sorted done, fun status => ⟨sound status, fun own => ?_⟩, fun status => ?_⟩
    · exact ⟨fun _ => (advances own).kept status, fun no => absurd (advances own).type no⟩
    · have gone := deletable status
      refine ⟨sound_deleted gone (sockinfoDelete_eq gone.inUnreleased gone.outUnreleased), fun own =>
        ⟨fun no => (by cases no), fun _ => ⟨rfl, ?_, ((advances own).dropped status).closing _⟩⟩⟩
      rcases ((both.2 own).packet type).stays lib valid fits (steady own).2 (steady own).1 done with
        kept | closed
      · exact absurd status kept
      · exact closed

end Histories

/-! ## Runs -/

/-- The event of the session at `own` that is handled, if there is one. -/
def happenings (own : Nat) (moment : Moment) (recorded : Running Clients × List (Delivery Clients)) :
    List Moment :=
  match recorded.1.left, recorded.1.server.socks.sockinfos[own]? with
  | _ + 1, some info =>
      if recorded.1.index = own ∧ info.type = .mfdPktIn ∧ info.revents ≠ Revents.none then [moment] else []
  | _, _ => []

section Runs
variable (lib : Sorting.Library Client) {own : Nat} {session : Session} {moment : Moment}

theorem happenings_poll {recorded : Running Clients × List (Delivery Clients)}
    (polls : recorded.1.left = 0) : happenings own moment recorded = [] := by
  unfold happenings
  rw [polls]

theorem happenings_elsewhere {recorded : Running Clients × List (Delivery Clients)}
    (elsewhere : ∀ info, recorded.1.server.socks.sockinfos[own]? = some info →
      0 < recorded.1.left → own = recorded.1.index → info.type ≠ .mfdPktIn) :
    happenings own moment recorded = [] := by
  unfold happenings
  split
  · rename_i more found
    rw [if_neg]
    rintro ⟨here, type, _⟩
    exact elsewhere _ found (more ▸ Nat.succ_pos _) here.symm type
  · rfl

theorem happenings_here {recorded : Running Clients × List (Delivery Clients)} {info : Sockinfo}
    (found : recorded.1.server.socks.sockinfos[own]? = some info) (positive : 0 < recorded.1.left)
    (here : own = recorded.1.index) (type : info.type = .mfdPktIn) :
    happenings own moment recorded = if info.revents ≠ Revents.none then [moment] else [] := by
  unfold happenings
  obtain ⟨left, more⟩ := Nat.exists_eq_succ_of_ne_zero positive.ne'
  simp only [more, found, here.symm, type, true_and]

structure Accounted (own : Nat) (session : Session)
    (counted : (Running Clients × List (Delivery Clients)) × List Moment) : Prop where
  histories : Histories (fun clients => Sorting.Sorted clientCmp clients.vec)
    (fun index history events info =>
      info.Sound ∧ (index = own → Completes session history events info)) (· = [])
    counted.1.1.server counted.1.2
  spent : ∀ info, counted.1.1.server.socks.sockinfos[own]? = some info → info.type = .mfdPktIn →
    Spent session (deliveredTo own counted.1.2) counted.2.length info
  beyond : counted.1.1.server.socks.count ≤ own → counted.2 = []

theorem Spent.alike {history : List (Delivery Clients)} {count : Nat} {info info' : Sockinfo}
    (spent : Spent session history count info) (same : SameButSlots info info') (revents : Revents) :
    Spent session history count { info' with revents := revents } := by
  cases history with
  | nil =>
      show count ≤ info'.inEnd.buf.used ∧ info'.inEnd.buf.used ≤ session.request.image.length
      rw [same.inBuf]
      exact spent
  | cons delivery later =>
      show count + remaining session delivery.state info' ≤ allowance session delivery.state
      unfold remaining
      rw [same.state, same.inBuf, same.outBuf]
      exact spent

theorem happenings_beyond {recorded : Running Clients × List (Delivery Clients)}
    (beyond : recorded.1.server.socks.count ≤ own) : happenings own moment recorded = [] :=
  happenings_elsewhere fun info found => by
    have inside := (List.getElem?_eq_some_iff.mp found).1
    exact absurd inside (Nat.not_lt_of_le beyond)

/-- An event at the session that does not end it. -/
theorem Accounted.event (valid : session.Valid) (fits : session.Fits)
    {counted : (Running Clients × List (Delivery Clients)) × List Moment}
    (accounted : Accounted own session counted) (meets : (steadily own session).Meets moment counted.1.1)
    {info : Sockinfo} (found : counted.1.1.server.socks.sockinfos[own]? = some info)
    {handled : Handled Clients} (positive : 0 < counted.1.1.left) (here : own = counted.1.1.index)
    (type : info.type = .mfdPktIn)
    (done : handlePktEvent (serverHi lib) moment.calls info counted.1.1.server.state = .ok handled)
    (status : handled.status ≠ .hsDel) :
    Spent session
      (deliveredTo own counted.1.2 ++ deliveredAt moment.calls own info counted.1.1.server.state)
      (counted.2.length + (happenings own moment counted.1).length) handled.info := by
  have spent := accounted.spent info found type
  rw [happenings_here found positive here type]
  by_cases quiet : info.revents = Revents.none
  · obtain ⟨rfl, nothing⟩ := handlePktEvent_quiet quiet done
    rw [deliveredAt, if_pos type, nothing, if_neg (not_not.mpr quiet)]
    show Spent session (deliveredTo own counted.1.2 ++ []) _ info
    rw [List.append_nil]
    exact spent
  · rw [if_pos quiet]
    obtain ⟨left, more⟩ := Nat.exists_eq_succ_of_ne_zero positive.ne'
    unfold Expected.Meets at meets
    simp only [more] at meets
    obtain ⟨steady, listable⟩ := (meets info (here ▸ found)).2 type here.symm
    rw [← here] at steady
    exact (((accounted.histories.entries own info found).2 rfl).packet type).spends lib valid fits
      accounted.histories.state listable steady type quiet done status spent

/-- The step lemma. -/
theorem Accounted.step (valid : session.Valid) (fits : session.Fits)
    {counted : (Running Clients × List (Delivery Clients)) × List Moment}
    (accounted : Accounted own session counted)
    {next : (Running Clients × List (Delivery Clients)) × List Moment}
    (meets : (steadily own session).Meets moment counted.1.1)
    (done : recording (recording (advance (serverHi lib)) deliveries) (happenings own) moment counted =
      .ok next) : Accounted own session next := by
  obtain ⟨recorded, happened⟩ := recording_ok done
  obtain ⟨advanced, handed⟩ := recording_ok recorded
  have each := @historic_completes lib session own valid fits
  have steps := advance_stepsTo (serverHi_turns lib) (each.sounds accounted.histories) advanced
  refine ⟨?_, fun info found type => ?_, fun outside => ?_⟩
  · rw [handed]
    exact each.step accounted.histories meets steps
  · rw [happened, handed, deliveredTo_append, List.length_append]
    by_cases inside : own < counted.1.1.server.socks.count
    · have old := List.getElem?_eq_getElem inside
      obtain ⟨_, info', found', _, step⟩ := steps.entries own _ old
      rw [found] at found'
      cases found'
      have spent := accounted.spent _ old
      generalize counted.1.1.server.socks.sockinfos[own] = before at old step spent
      generalize deliveredTo own (deliveries moment counted.1.1) = more at step ⊢
      cases step with
      | kept _ same unattended =>
          rw [happenings_elsewhere fun info' found' => by
            rw [old] at found'
            cases found'
            exact unattended, List.append_nil]
          exact (spent (same.type.symm.trans type)).alike same info.revents
      | polled ready checked polls reported polledTo =>
          rw [happenings_poll polls, List.append_nil]
          cases polledTo with
          | kept info' revents same _ => exact (spent (same.type.symm.trans type)).alike same revents
          | deleted _ _ _ _ => cases type
      | handled handled positive here type' event status =>
          exact accounted.event lib valid fits meets old positive here type' event status
      | dropped _ _ _ _ _ _ => cases type
      | deafened _ _ _ _ => cases type
    · have beyond := Nat.le_of_not_lt inside
      rw [(accounted.histories.beyond own beyond).2, deliveredTo_beyond beyond, accounted.beyond beyond,
        happenings_beyond beyond]
      obtain ⟨fd, rfl, _⟩ := steps.fresh beyond found
      exact ⟨Nat.zero_le _, Nat.zero_le _⟩
  · have beyond := Nat.le_trans steps.count_le outside
    rw [happened, accounted.beyond beyond, happenings_beyond beyond]
    rfl

def limit (session : Session) : List (Delivery Clients) → Nat
  | [] => session.request.image.length
  | delivery :: _ => allowance session delivery.state

/-- A session has no more events than its packets are long, and none but the last
ends it. -/
structure Ends (session : Session) (history : List (Delivery Clients)) (events : List Event) (count : Nat)
    (info : Sockinfo) : Prop where
  bounded : info.type = .mfdPktIn → count ≤ limit session history
  ended : info.type ≠ .mfdPktIn → info.state = .mssClosed ∧ ∃ delivery later,
    history = delivery :: later ∧ RequestRead session delivery.pkt ∧
    ∀ requester, .accepted requester ∈ events → sentTo requester events = session.answer delivery.state

/-- In every run in which those who take part in a session do what they should, the
session goes on until it is answered, and it is answered after a number of events
that the lengths of its packets bound. -/
theorem session_completes (lib : Sorting.Library Client) {own : Nat} (positive : 0 < own)
    {session : Session} (valid : session.Valid) (fits : session.Fits) {registry : Clients}
    (sorted : Sorting.Sorted clientCmp registry.vec) {realloc : Nat → Bool} {servsock : Nat}
    {server : Server Clients} {counted : (Running Clients × List (Delivery Clients)) × List Moment}
    (started : serverStart realloc servsock registry = .ok (some server))
    (run : Reached (recording (recording (advance (serverHi lib)) deliveries) (happenings own))
      (fun moment counted => (steadily own session).Meets moment counted.1.1)
      ((⟨server, 0, 0⟩, []), []) counted)
    {info : Sockinfo} (found : counted.1.1.server.socks.sockinfos[own]? = some info) :
    Ends session (deliveredTo own counted.1.2) (eventsAt own counted.1.1.server.log) counted.2.length
      info := by
  have starts : Accounted own session ((⟨server, 0, 0⟩, []), []) := by
    have listens : (Sockinfo.listens servsock).Sound ∧
        (0 = own → Completes session [] [.created servsock] (.listens servsock)) :=
      ⟨sound_listens servsock, fun here => absurd here positive.ne⟩
    refine ⟨histories_started started sorted listens rfl, fun info found type => ?_, fun _ => rfl⟩
    have among := List.mem_of_getElem? found
    rw [(serverStart_starts started).entries] at among
    rw [List.mem_singleton.mp among] at type
    cases type
  have accounted : Accounted own session counted :=
    run.invariant starts fun _ _ _ before met done => before.step lib valid fits met done
  have completes := (accounted.histories.entries own info found).2 rfl
  refine ⟨fun type => ?_, fun type => ?_⟩
  · have spent := accounted.spent info found type
    generalize deliveredTo own counted.1.2 = history at spent
    cases history with
    | nil =>
        obtain ⟨read, within⟩ := spent
        exact read.trans within
    | cons delivery later =>
        have rest : counted.2.length + remaining session delivery.state info ≤
          allowance session delivery.state := spent
        show counted.2.length ≤ allowance session delivery.state
        omega
  · obtain ⟨_, closed, outcome⟩ := completes.ended type
    refine ⟨closed, ?_⟩
    cases outcome with
    | unheard _ opened _ => exact absurd closed opened
    | heard delivery later one read _ _ relayed =>
        exact ⟨delivery, later, one, read, relayed.answered closed⟩

end Runs

/-! ## A request for somebody unknown -/

/-- User `a` asks about the root of user `b`, whom the server does not know. -/
def unknownOwner : List Moment :=
  connectionOn 4 ++
    takingIn { grantedCalls with socket := some 6, connect := true } inquiry.image [0, 1, 2, 4, 8, 16] ++
    givingOut

/-- Whether the session at `own` is handled as `steadily` asks, before the server
awaits a response. -/
def steadyAt (own : Nat) (session : Session) (moment : Moment) (running : Running Clients) : Bool :=
  match running.left, running.server.socks.sockinfos[running.index]? with
  | _ + 1, some info =>
      let stream : List UInt8 := match moment.calls.read with
        | .bytes stream => stream
        | _ => []
      (socksAdd moment.calls.realloc info running.server.socks).isSome &&
        (running.index != own || info.type != .mfdPktIn ||
          (info.state != .mssLstn && info.state != .mssRspfwd &&
            (info.state != .mssReqrd ||
              moment.calls.connect && (moment.calls.socket.any fun fd : Nat => decide ((fd : Int) ≠ info.inEnd.fd)) &&
                (receivedFrom info.inEnd.fd (eventsAt own running.server.log) ++ stream).isPrefixOf
                  session.request.image &&
                decide (info.revents ≠ Revents.none → stream ≠ [])) &&
            decide (listingLength (running.server.state.vec.map Client.username) < 2 ^ 62)))
  | _, _ => true

theorem steadyAt_sound {own : Nat} {session : Session} {moment : Moment} {running : Running Clients}
    (calm : moment.Calm) (checked : steadyAt own session moment running = true) :
    (steadily own session).Meets moment running := by
  unfold Expected.Meets
  split
  · exact calm.quiet
  rename_i left more
  intro info found
  unfold steadyAt at checked
  simp only [more, found, Bool.and_eq_true, Bool.or_eq_true, bne_iff_ne, decide_eq_true_eq] at checked
  obtain ⟨room, session_⟩ := checked
  refine ⟨fun _ fd => (socksAdd_isSome _ _ _ _).trans room, fun type own_ => ?_⟩
  rcases session_ with (other | noPacket) | ⟨⟨⟨listens, awaits⟩, reading⟩, listable⟩
  · exact absurd own_ other
  · exact absurd type noPacket
  have reads : info.state = .mssReqrd → _ := fun state => reading.resolve_left (not_not.mpr state)
  refine ⟨⟨⟨calm.granted, fun state => ?_, calm.writes, fun state stream read => ?_,
    fun state => absurd state awaits⟩, fun watches ready => ?_⟩, fun _ => listable⟩
  · obtain ⟨⟨⟨connect, socket⟩, _⟩, _⟩ := reads state
    obtain ⟨fd, same, differs⟩ := (Option.any_eq_true _ _).mp socket
    exact ⟨fd, same, connect, of_decide_eq_true differs⟩
  · obtain ⟨⟨_, front⟩, _⟩ := reads state
    rw [read, ← own_] at front
    exact List.isPrefixOf_iff_prefix.mp front
  · have state : info.state = .mssReqrd := by
      simp only [SockState.watchesIn, Bool.or_eq_true, beq_iff_eq] at watches
      exact (watches.resolve_right awaits).resolve_left listens
    obtain ⟨_, some_⟩ := reads state
    cases read : moment.calls.read with
    | error errno =>
        rw [read] at some_
        exact absurd rfl (some_ ready)
    | bytes stream =>
        rw [read] at some_
        obtain ⟨byte, rest, same⟩ := List.exists_cons_of_ne_nil (some_ ready)
        exact ⟨byte, rest, congrArg ReadResult.bytes same⟩

structure UnknownOwner (server : Server Clients)
    (counted : (Running Clients × List (Delivery Clients)) × List Moment) (info : Sockinfo) : Prop where
  started : serverStart memory 3 clientsInit = .ok (some server)
  runs : steps (recording (recording (advance (serverHi (Sorting.simpleLibrary Client))) deliveries)
    (happenings 1)) unknownOwner ((⟨server, 0, 0⟩, []), []) = .ok counted
  steady : passes (recording (recording (advance (serverHi (Sorting.simpleLibrary Client))) deliveries)
      (happenings 1)) (fun moment counted => steadyAt 1 inquirySession moment counted.1.1) unknownOwner
    ((⟨server, 0, 0⟩, []), []) = true
  found : counted.1.1.server.socks.sockinfos[1]? = some info
  unused : info.type = .mfdNone
  events : counted.2.length = 8

theorem unknownOwner_calm : ∀ moment ∈ unknownOwner, moment.Calm := by
  intro moment member
  rcases List.mem_append.mp member with earlier | given
  · rcases List.mem_append.mp earlier with connects | takes
    · exact connectionOn_calm 4 moment connects
    · exact @takingIn_calm { grantedCalls with socket := some 6, connect := true } ⟨rfl, rfl⟩
        ⟨0, rfl⟩ _ _ moment takes
  · exact givingOut_calm moment given

theorem inquirySession_fits : inquirySession.Fits where
  request := by decide
  response := by decide
  decodable := by decide

theorem session_completes_unknownOwner : ∃ server counted info, UnknownOwner server counted info ∧
    Ends inquirySession (deliveredTo 1 counted.1.2) (eventsAt 1 counted.1.1.server.log) counted.2.length
      info := by
  have happens : ∃ server counted info, UnknownOwner server counted info :=
    ⟨_, _, _, rfl, rfl, rfl, rfl, rfl, rfl⟩
  obtain ⟨server, counted, info, unknown⟩ := happens
  exact ⟨server, counted, info, unknown,
    session_completes (Sorting.simpleLibrary Client) (by decide) inquirySession_valid inquirySession_fits
      (show Sorting.Sorted clientCmp clientsInit.vec from List.Pairwise.nil) unknown.started
      (.of_passes (fun moment member _ checked => steadyAt_sound (unknownOwner_calm moment member) checked)
        unknown.steady unknown.runs) unknown.found⟩

end Middfs
