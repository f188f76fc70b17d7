import Middfs.Decode.Attempt
import Middfs.Provenance
import Middfs.Raising

/-!
# What brings the server down

The functions of the server abort, or fail an assertion, in the states and on
the packets that they do not expect.  On an entry whose state, descriptors and
buffers agree, three kinds of packets are left that do so: a `DISCONNECT`, a
response where none is waited for, and a response of a type that does not exist.
-/

set_option autoImplicit false

namespace Middfs

/-- The function neither aborts nor fails an assertion. -/
def Calm {α : Type} (result : Except Trap α) : Prop :=
  Raises (fun trap => trap ≠ .abort ∧ trap ≠ .assertFail) result

theorem calm_ok {α : Type} (a : α) : Calm (.ok a : Except Trap α) := raises_ok a

theorem calm_wild {α : Type} : Calm (.error .wild : Except Trap α) := raises_error (by decide)

/-! ## Encoding into an empty buffer -/

theorem sizeAdd_lt (a b : Nat) : sizeAdd a b < 2 ^ 64 := Nat.mod_lt _ (by decide)

theorem Emit.call_used {s o : Emit} {n : Nat} {f : Serialize} (called : s.call n f = .ok o) :
    o.used < 2 ^ 64 := by
  unfold Emit.call at called
  cases answer : f (sizerem n s.used) with
  | error trap =>
      rw [answer] at called
      cases called
  | ok r =>
      rw [answer] at called
      cases called
      exact sizeAdd_lt _ _

theorem serializePkt_used {pkt : Packet} {n : Nat} {o : Emit} (encoded : serializePkt pkt n = .ok o) :
    o.used < 2 ^ 64 := by
  unfold serializePkt at encoded
  cases first : Emit.none.call n (serializeUint32 pkt.mpktMagic) with
  | error trap =>
      rw [first] at encoded
      cases encoded
  | ok s =>
      rw [first] at encoded
      cases second : s.call n (serializeUint32 pkt.mpktType) with
      | error trap =>
          simp only [bind, Except.bind, second] at encoded
          cases encoded
      | ok s' =>
          simp only [bind, Except.bind, second] at encoded
          split_ifs at encoded
          · exact Emit.call_used encoded
          · exact Emit.call_used encoded
          · exact Emit.call_used encoded
          · cases encoded
            exact Emit.call_used second

section Buffers
variable {realloc : Nat → Bool} {f : Serialize} (calm : ∀ n, Calm (f n))
variable (bounded : ∀ n o, f n = .ok o → o.used < 2 ^ 64)
include calm bounded

/-- Into a buffer that holds nothing, the loop goes on with the room that there
is, and ends with room enough. -/
theorem bufferSerializeLoop_calm (fuel : Nat) {buf : Buffer} (empty : buf.used = 0) :
    Calm (bufferSerializeLoop realloc f fuel buf buf.rem) ∧
      ∀ buf' used, bufferSerializeLoop realloc f fuel buf buf.rem = .ok (buf', some used) →
        used ≤ buf'.rem := by
  induction fuel generalizing buf with
  | zero => exact ⟨calm_ok _, fun _ _ no => by cases no⟩
  | succ fuel ih =>
      unfold bufferSerializeLoop
      cases emitted : f buf.rem with
      | error trap =>
          exact ⟨raises_error (calm buf.rem trap emitted), fun _ _ no => by cases no⟩
      | ok s =>
          simp only
          cases stored : storeAll (Cell.vals (buf.mem.drop buf.ptr)) s.writes with
          | none => exact ⟨calm_wild, fun _ _ no => by cases no⟩
          | some bytes =>
              obtain ⟨kept, rem⟩ := buf.put_contents (cells bytes)
              have used : (buf.put (cells bytes)).used = 0 := kept.ptr.trans empty
              simp only
              split_ifs with more
              · have size : sizeAdd (buf.put (cells bytes)).used s.used = s.used := by
                  rw [used, sizeAdd_of_lt (by have small := bounded _ s emitted; omega), Nat.zero_add]
                rw [size]
                cases resized : bufferResize realloc (buf.put (cells bytes)) s.used with
                | none => exact ⟨calm_ok _, fun _ _ no => by cases no⟩
                | some grown =>
                    obtain ⟨keptGrown, room⟩ := bufferResize_kept resized (by rw [used]; omega)
                    rw [used, Nat.sub_zero] at room
                    have later := @ih grown (keptGrown.ptr.trans used)
                    rw [room] at later
                    exact later
              · refine ⟨calm_ok _, fun buf' used' same => ?_⟩
                cases same
                rw [rem]
                exact Nat.le_of_not_lt more

theorem bufferSerialize_calm {buf : Buffer} (empty : buf.contents = []) :
    Calm (bufferSerialize realloc f buf) := by
  have used : buf.used = 0 := by
    rw [← buf.bytes_length, Buffer.bytes, empty]
    rfl
  obtain ⟨loop, room⟩ := @bufferSerializeLoop_calm realloc f calm bounded (2 ^ 64) buf used
  unfold bufferSerialize
  cases done : bufferSerializeLoop realloc f (2 ^ 64) buf buf.rem with
  | error trap => exact raises_error (loop trap done)
  | ok result =>
      obtain ⟨buf', _ | n⟩ := result
      · exact calm_ok _
      · have fits := room buf' n done
        simp only [bufferAdvance, dif_pos fits]
        exact calm_ok _

end Buffers

/-! ## The handlers of the server -/

/-- A response that the encoder knows how to encode. -/
def Packet.KnownType (pkt : Packet) : Prop :=
  pkt.mpktType = mpktResponseType → pkt.mpktResponse.mrspType ≤ mrspErrorType

section Server
variable {lib : Sorting.Library Client} {calls : Calls} {info : Sockinfo} {inPkt : Packet}
variable {clients : Clients}

theorem queuePacket_calm {pkt : Packet} (known : pkt.KnownType) (empty : info.outEnd.buf.contents = [])
    (events : List Event) : Calm (queuePacket calls info pkt clients events) := by
  have encodes : ∀ n, Calm (serializePkt pkt n) := fun n =>
    serializePkt_raises (by decide) pkt (fun response unknown => absurd (known response) unknown) n
  have calm := @bufferSerialize_calm calls.realloc _ encodes (fun _ _ => serializePkt_used) _ empty
  unfold queuePacket
  cases encoded : bufferSerialize calls.realloc (serializePkt pkt) info.outEnd.buf with
  | error trap => exact raises_error (calm trap encoded)
  | ok result =>
      obtain ⟨buf, _ | n⟩ := result
      · exact calm_ok _
      · exact calm_ok _

theorem rootResponse_known (req : Request) : (rootResponse calls info clients req).KnownType := by
  intro _
  show (handleReqRdFinRoot calls info req _ clients).2.mrspType ≤ mrspErrorType
  simp only [handleReqRdFinRoot]
  split_ifs
  · split
    · exact (by decide : mrspErrorType ≤ mrspErrorType)
    · exact (by decide : mrspDirType ≤ mrspErrorType)
  all_goals first
    | exact (by decide : mrspErrorType ≤ mrspErrorType)
    | exact (by decide : mrspOk ≤ mrspErrorType)

theorem RequestServed.calm {result : Except Trap (Handled Clients)} (known : inPkt.KnownType)
    (empty : info.outEnd.buf.contents = [])
    (served : RequestServed lib calls info inPkt clients result) : Calm result := by
  cases served with
  | unnamed => exact calm_wild
  | root _ _ queued =>
      rw [← queued]
      exact @queuePacket_calm calls info.answering clients _ (rootResponse_known _) empty []
  | unregistered _ _ _ _ queued =>
      rw [← queued]
      exact @queuePacket_calm calls info.answering clients (packetError zeroPacket enoent)
        (fun _ => (by decide : mrspErrorType ≤ mrspErrorType)) empty []
  | unconnected _ _ _ _ _ _ _ => exact calm_ok _
  | forwarded _ _ fd _ _ _ _ queued =>
      rw [← queued]
      exact @queuePacket_calm calls (info.forwarding fd) clients inPkt known empty _

theorem handleConnectFin_calm : Calm (handleConnectFin lib calls info inPkt clients) := by
  intro trap failed
  rw [handleConnectFin_error lib failed]
  decide

theorem serverRdFin_calm (known : inPkt.KnownType) (empty : info.outEnd.buf.contents = [])
    (connected : inPkt.mpktType ≠ mpktDisconnect)
    (awaited : inPkt.mpktType = mpktResponseType → info.state = .mssRspfwd) :
    Calm (serverRdFin lib calls info inPkt clients) := by
  generalize done : serverRdFin lib calls info inPkt clients = result
  cases serverRdFin_cases lib done with
  | connect _ _ connects =>
      rw [← connects]
      exact handleConnectFin_calm
  | disconnect disconnects => exact absurd disconnects connected
  | request _ _ served => exact served.calm known empty
  | unawaited response unexpected => exact absurd (awaited response) unexpected
  | response _ _ queued =>
      rw [← queued]
      exact @queuePacket_calm calls { info with state := .mssRspwr } clients inPkt known empty []
  | unknown => exact calm_ok _

theorem serverWrFin_calm : Calm (serverWrFin info clients) := by
  generalize done : serverWrFin info clients = result
  cases serverWrFin_cases done with
  | request _ => exact calm_ok _
  | response _ => exact calm_ok _
  | unexpected => exact calm_ok _

end Server

/-! ## What must not be read -/

/-- A packet of this type stands at the front, or its head at least. -/
def Announces (type : UInt32) (bytes : List UInt8) : Prop :=
  ∃ (magic : UInt32) (rest : List UInt8), bytes = htonl magic ++ htonl type ++ rest

/-- What brings the server down when it is all that an entry in `state` has read:
a response of a type that does not exist, a `DISCONNECT`, or a response that is
taken for complete while none is waited for. -/
inductive Fatal (state : SockState) (bytes : List UInt8) : Prop where
  | badType : BadType bytes → Fatal state bytes
  | disconnect : Announces mpktDisconnect bytes → Fatal state bytes
  | response : state ≠ .mssRspfwd → Announces mpktResponseType bytes → Whole bytes ∨ Overlong bytes →
      Fatal state bytes

/-- What an entry has read once these bytes of a read were added. -/
inductive Gathers (calls : Calls) (info : Sockinfo) : List UInt8 → Prop where
  | read (buf : Buffer) (bytes : List UInt8) :
      bufferRead calls.realloc info.inEnd.fd calls.read info.inEnd.buf = .ok (buf, some bytes) →
      bytes ≠ [] → Gathers calls info (info.inEnd.buf.bytes ++ bytes)

section Decoding
variable {malloc : Nat → Bool} (large : ∀ n, malloc n = true → n < 2 ^ 63) {bytes : List UInt8}
variable (bound : bytes.length < 2 ^ 63) {s : Cursor Packet}
variable (decoded : deserializePkt malloc bytes zeroPacket 0 = .ok s) (clean : s.err = 0)
variable (within : s.used ≤ bytes.length)
include large bound decoded clean within

theorem complete_announces : Announces s.obj.mpktType bytes := by
  obtain ⟨rest, split⟩ := complete_front large bound decoded clean within
  refine ⟨s.obj.mpktMagic, s.obj.wireUnion ++ rest, ?_⟩
  rw [← List.append_assoc]
  exact split

theorem complete_known : s.obj.KnownType := fun response =>
  ((complete_filled large bound decoded clean within).response response).known

theorem complete_whole : Whole bytes ∨ Overlong bytes := by
  rcases complete_cases large bound decoded clean within with ⟨wf, rest, split, _⟩ | ⟨_, _, long, _⟩
  · exact Or.inl ⟨s.obj, rest, wf, split⟩
  · exact Or.inr long

end Decoding

/-! ## One entry -/

/-- Sound, and with nothing to write as long as it is read from. -/
structure Sockinfo.Clear (info : Sockinfo) : Prop where
  sound : info.Sound
  empty : info.type = .mfdPktIn → info.state.watchesIn = true → info.outEnd.buf.contents = []

section Entry
variable {lib : Sorting.Library Client} {calls : Calls} {info : Sockinfo} {clients : Clients}

theorem receivePacket_gathers {read : Sockinfo} {events : List Event} {pkt : Packet}
    (received : receivePacket calls info = .ok (read, events, .inr pkt)) :
    ∃ bytes s buf, Gathers calls info bytes ∧ bytes.length < 2 ^ 63 ∧
      deserializePkt calls.malloc bytes zeroPacket 0 = .ok s ∧ s.err = 0 ∧ s.used ≤ bytes.length ∧
      s.obj = pkt ∧ read = info.withIn buf := by
  unfold receivePacket at received
  split_ifs at received
  rcases @bufferRead_cases calls.realloc info.inEnd.fd calls.read info.inEnd.buf with
    ⟨buf, read, _⟩ | ⟨buf, stream, n, _, _, read, contents, _⟩
  · rw [read] at received
    cases received
  simp only [read] at received
  split_ifs at received with none_
  · cases received
  have gathered := bytes_of_read contents
  cases decoded : deserializePkt calls.malloc buf.bytes zeroPacket 0 with
  | error trap =>
      rw [decoded] at received
      cases received
  | ok s =>
      simp only [decoded] at received
      split_ifs at received with failing short
      · cases received
      · cases received
      · cases received
        refine ⟨buf.bytes, s, bufferShift buf s.used, ?_, ?_, decoded, not_not.mp failing, ?_, rfl, rfl⟩
        · rw [gathered]
          exact .read buf _ read none_
        · rw [buf.bytes_length]
          exact buf.used_lt
        · rw [buf.bytes_length]
          exact Nat.le_of_not_lt short

theorem receivePacket_calm (large : ∀ n, calls.malloc n = true → n < 2 ^ 63)
    (ready : info.revents.pollin = true)
    (harmless : ∀ bytes, Gathers calls info bytes → ¬ Fatal info.state bytes) :
    Calm (receivePacket calls info) := by
  unfold receivePacket
  rw [if_pos ready]
  rcases @bufferRead_cases calls.realloc info.inEnd.fd calls.read info.inEnd.buf with
    ⟨buf, read, _⟩ | ⟨buf, stream, n, _, _, read, contents, _⟩
  · rw [read]
    exact calm_ok _
  simp only [read]
  by_cases none_ : stream.take n = []
  · rw [if_pos none_]
    exact calm_ok _
  rw [if_neg none_]
  have gathered := bytes_of_read contents
  have bound : buf.bytes.length < 2 ^ 63 := by
    rw [buf.bytes_length]
    exact buf.used_lt
  rcases attempt_cases large bound (zeroPacket_ready buf.bytes) with ⟨_, bad⟩ | ⟨s, decoded, failing⟩ |
    ⟨s, decoded, clean, _⟩
  · refine absurd (.badType bad) (harmless buf.bytes ?_)
    rw [gathered]
    exact .read buf _ read none_
  · simp only [decoded, if_pos failing]
    exact calm_ok _
  · simp only [decoded, if_neg (not_not.mpr clean)]
    split_ifs
    · exact calm_ok _
    · exact calm_ok _

theorem handlePktRd_calm (large : ∀ n, calls.malloc n = true → n < 2 ^ 63)
    (ready : info.revents.pollin = true) (empty : info.outEnd.buf.contents = [])
    (harmless : ∀ bytes, Gathers calls info bytes → ¬ Fatal info.state bytes) :
    Calm (handlePktRd (serverHi lib) calls info clients) := by
  unfold handlePktRd
  cases received : receivePacket calls info with
  | error trap => exact raises_error (receivePacket_calm large ready harmless trap received)
  | ok result =>
      obtain ⟨read, events, status | pkt⟩ := result
      · exact calm_ok _
      obtain ⟨bytes, s, buf, gathers, bound, decoded, clean, within, rfl, rfl⟩ :=
        receivePacket_gathers received
      have safe := harmless bytes gathers
      have announces := complete_announces large bound decoded clean within
      have finished := @serverRdFin_calm lib calls (info.withIn buf) s.obj clients
        (complete_known large bound decoded clean within) empty
        (fun disconnect => safe (.disconnect (disconnect ▸ announces)))
        (fun response => by
          by_contra unasked
          exact safe (.response unasked (response ▸ announces)
            (complete_whole large bound decoded clean within)))
      simp only
      cases done : (serverHi lib).rdFin calls (info.withIn buf) s.obj clients with
      | error trap => exact raises_error (finished trap done)
      | ok handled => exact calm_ok _

theorem handlePktWr_calm (ready : info.revents.pollout = true) :
    Calm (handlePktWr (serverHi lib) calls info clients) := by
  unfold handlePktWr
  rw [if_pos ready]
  split
  · exact calm_ok _
  · split_ifs
    · exact calm_ok _
    · exact serverWrFin_calm

theorem handlePktEvent_calm (clear : info.Clear) (type : info.type = .mfdPktIn)
    (due : info.state.Due info.revents) (large : ∀ n, calls.malloc n = true → n < 2 ^ 63)
    (harmless : info.state.watchesIn = true → ∀ bytes, Gathers calls info bytes →
      ¬ Fatal info.state bytes) :
    Calm (handlePktEvent (serverHi lib) calls info clients) := by
  unfold handlePktEvent
  by_cases quiet : info.revents = Revents.none
  · rw [if_pos quiet]
    exact calm_ok _
  rw [if_neg quiet]
  have reads : info.state.watchesIn = true →
      Calm (handlePktRd (serverHi lib) calls info clients) := by
    intro watches
    have ready := (due.1 watches).resolve_left quiet
    exact handlePktRd_calm large (by rw [ready]) (clear.empty type watches) (harmless watches)
  have writes : info.state.watchesOut = true →
      Calm (handlePktWr (serverHi lib) calls info clients) := by
    intro watches
    have ready := (due.2 watches).resolve_left quiet
    exact handlePktWr_calm (by rw [ready])
  have fitting := (fitting_packet type).mp clear.sound.fitting
  cases state : info.state with
  | mssReqrd => exact reads (by rw [state]; rfl)
  | mssRspfwd => exact reads (by rw [state]; rfl)
  | mssRspwr => exact writes (by rw [state]; rfl)
  | mssReqfwd => exact writes (by rw [state]; rfl)
  | mssLstn =>
      rw [state] at fitting
      exact fitting.elim
  | mssClosed =>
      rw [state] at fitting
      exact fitting.elim
  | mssNone =>
      rw [state] at fitting
      exact fitting.elim

end Entry
end Middfs
