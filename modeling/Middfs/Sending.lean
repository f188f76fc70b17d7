import Middfs.Appending
import Middfs.ByteQueue
import Middfs.Client.Pkt

/-!
# Sending a whole packet or failing

`packet_send` and `client_connect` each have a loop of their own that writes a
packet.  Both put a front of the encoding on the wire; the loop of
`client_connect` also ends when a write fails, and is followed by success.
-/

set_option autoImplicit false

namespace Middfs

open Layout

/-! ## What is on the wire -/

/-- A write fails, with an error of this kind, before `left` bytes were written. -/
def FailsBefore (kind : Errno → Prop) : Nat → List WriteResult → Prop
  | 0, _ => False
  | _ + 1, [] => False
  | left + 1, .error errno :: writes => kind errno ∨ FailsBefore kind (left + 1) writes
  | left + 1, .count n :: writes => FailsBefore kind (left + 1 - max 1 n) writes

/-- A sender puts a front of the encoding on the wire, returns 0 only if that is
all of it, and a negative value if a write failed for good before. -/
structure SendsWhole (encoding : List UInt8) (writes : List WriteResult)
    (sent : List UInt8 × Option Int) : Prop where
  front : sent.1 <+: encoding
  whole : sent.2 = some 0 → sent.1 = encoding
  fails : FailsBefore (fun errno => errno.val ≠ eintr) encoding.length writes →
    ∃ retv, retv < 0 ∧ sent.2 = some retv

/-- Both senders keep their promise, whatever memory there is, whether the server
can be reached and whatever port is configured. -/
structure SendersHonest (pkt : Packet) (username : CStr) (writes : List WriteResult) : Prop where
  send : ∀ realloc, ∃ sent, packetSend realloc writes pkt = .ok sent ∧ SendsWhole pkt.image writes sent
  connect : ∀ realloc connected localport, ∃ sent,
    clientConnect realloc connected localport writes (some username) = .ok sent ∧
      SendsWhole (connectPacket (some username) (localport.getD 0)).image writes sent

/-! ## The loops -/

theorem bytes_of_empty {buf : Buffer} (empty : bufferIsempty buf = true) : buf.bytes = [] := by
  rw [Buffer.bytes, (bufferIsempty_iff buf).mp empty]
  rfl

theorem bytes_of_nonempty {buf : Buffer} (nonempty : ¬ bufferIsempty buf = true) :
    ∃ left, buf.bytes.length = left + 1 := by
  rw [bufferIsempty, beq_iff_eq, ← buf.bytes_length] at nonempty
  exact ⟨buf.bytes.length - 1, by omega⟩

theorem bufferWrite_rest (n : Nat) (buf : Buffer) :
    (bufferShift buf (min buf.used (max 1 n))).bytes = buf.bytes.drop (max 1 n) := by
  rw [Buffer.bytes, (bufferWrite_count n buf).2, Cell.vals_drop, ← Buffer.bytes]

theorem packetSendLoop_honest (writes : List WriteResult) (buf : Buffer) :
    SendsWhole buf.bytes writes (packetSendLoop writes buf) := by
  induction writes generalizing buf with
  | nil =>
      unfold packetSendLoop
      split_ifs with empty
      · rw [bytes_of_empty empty]
        exact ⟨List.prefix_refl _, fun _ => rfl, False.elim⟩
      · obtain ⟨left, length⟩ := bytes_of_nonempty empty
        refine ⟨List.nil_prefix, (fun returned => nomatch returned), fun fails => ?_⟩
        rw [length] at fails
        exact fails.elim
  | cons result writes ih =>
      unfold packetSendLoop
      split_ifs with empty
      · rw [bytes_of_empty empty]
        exact ⟨List.prefix_refl _, fun _ => rfl, False.elim⟩
      · obtain ⟨left, length⟩ := bytes_of_nonempty empty
        cases result with
        | error errno =>
            simp only [bufferWrite]
            split_ifs with hard
            · have positive := errno.property.1
              refine ⟨List.nil_prefix, fun returned => ?_, fun _ => ⟨_, ?_, rfl⟩⟩
              · have zero := Option.some.inj returned
                omega
              · omega
            · obtain ⟨front, whole, fails⟩ := ih buf
              refine ⟨front, whole, fun failing => fails ?_⟩
              rw [length] at failing ⊢
              exact failing.resolve_left hard
        | count n =>
            simp only [bufferWrite_count, Option.getD_some]
            obtain ⟨front, whole, fails⟩ := ih (bufferShift buf (min buf.used (max 1 n)))
            rw [bufferWrite_rest] at front whole fails
            refine ⟨?_, fun returned => ?_, fun failing => fails ?_⟩
            · calc buf.bytes.take (max 1 n) ++ _
                  <+: buf.bytes.take (max 1 n) ++ buf.bytes.drop (max 1 n) :=
                    List.prefix_append_right_inj _ |>.mpr front
                _ = buf.bytes := List.take_append_drop _ _
            · simp only [whole returned, List.take_append_drop]
            · rw [List.length_drop, length]
              rw [length] at failing
              exact failing

/-- What the loop of `client_connect` does when no write fails. -/
theorem clientConnectLoop_whole {writes : List WriteResult} {buf : Buffer}
    (through : ¬ FailsBefore (fun _ => True) buf.bytes.length writes)
    (ended : (clientConnectLoop writes buf).2 = true) : (clientConnectLoop writes buf).1 = buf.bytes := by
  induction writes generalizing buf with
  | nil =>
      unfold clientConnectLoop at ended ⊢
      split_ifs at ended ⊢ with empty
      exact (bytes_of_empty empty).symm
  | cons result writes ih =>
      unfold clientConnectLoop at ended ⊢
      split_ifs at ended ⊢ with empty
      · exact (bytes_of_empty empty).symm
      · obtain ⟨left, length⟩ := bytes_of_nonempty empty
        rw [length] at through
        cases result with
        | error errno => exact absurd (Or.inl trivial) through
        | count n =>
            simp only [bufferWrite_count] at ended ⊢
            have later := @ih (bufferShift buf (min buf.used (max 1 n)))
            rw [bufferWrite_rest, List.length_drop, length] at later
            rw [later through ended, List.take_append_drop]

theorem clientConnectLoop_front (writes : List WriteResult) (buf : Buffer) :
    (clientConnectLoop writes buf).1 <+: buf.bytes := by
  induction writes generalizing buf with
  | nil =>
      unfold clientConnectLoop
      split_ifs <;> exact List.nil_prefix
  | cons result writes ih =>
      unfold clientConnectLoop
      split_ifs
      · exact List.nil_prefix
      · cases result with
        | error errno => exact List.nil_prefix
        | count n =>
            simp only [bufferWrite_count]
            have front := ih (bufferShift buf (min buf.used (max 1 n)))
            rw [bufferWrite_rest] at front
            calc buf.bytes.take (max 1 n) ++ _
                <+: buf.bytes.take (max 1 n) ++ buf.bytes.drop (max 1 n) :=
                  List.prefix_append_right_inj _ |>.mpr front
              _ = buf.bytes := List.take_append_drop _ _

/-- The loop ends at the first write that fails, with bytes left. -/
theorem clientConnectLoop_fails {writes : List WriteResult} {buf : Buffer}
    (fails : FailsBefore (fun _ => True) buf.bytes.length writes) :
    (clientConnectLoop writes buf).2 = true ∧ (clientConnectLoop writes buf).1 ≠ buf.bytes := by
  induction writes generalizing buf with
  | nil =>
      cases length : buf.bytes.length with
      | zero =>
          rw [length] at fails
          exact fails.elim
      | succ left =>
          rw [length] at fails
          exact fails.elim
  | cons result writes ih =>
      unfold clientConnectLoop
      split_ifs with empty
      · rw [bytes_of_empty empty] at fails
        exact fails.elim
      · obtain ⟨left, length⟩ := bytes_of_nonempty empty
        cases result with
        | error errno =>
            refine ⟨rfl, fun same => ?_⟩
            rw [← same] at length
            cases length
        | count n =>
            rw [length] at fails
            simp only [bufferWrite_count]
            have later := @ih (bufferShift buf (min buf.used (max 1 n)))
            rw [bufferWrite_rest, List.length_drop, length] at later
            obtain ⟨ended, short⟩ := later fails
            refine ⟨ended, fun same => short ?_⟩
            have split := same.trans (List.take_append_drop (max 1 n) buf.bytes).symm
            exact List.append_cancel_left split

/-! ## The senders -/

theorem packetSend_honest {pkt : Packet} (wf : pkt.WellFormed) (bulk : pkt.bulk ≤ 2 ^ 63)
    (writes : List WriteResult) (realloc : Nat → Bool) :
    ∃ sent, packetSend realloc writes pkt = .ok sent ∧ SendsWhole pkt.image writes sent := by
  unfold packetSend
  rcases bufferSerialize_cases wf bulk realloc bufferInit with ⟨buf, failed, _⟩ |
    ⟨buf, answer, contents, _⟩
  · simp only [failed]
    exact ⟨_, rfl, List.nil_prefix, (fun returned => nomatch returned),
      fun _ => ⟨_, by decide, rfl⟩⟩
  · simp only [answer]
    have bytes : buf.bytes = pkt.image := by
      rw [Buffer.bytes, contents, bufferInit_contents, List.nil_append, vals_cells]
    exact ⟨_, rfl, bytes ▸ packetSendLoop_honest writes buf⟩

theorem connectPacket_wellFormed (username : CStr) (port : UInt32) :
    (connectPacket (some username) port).WellFormed where
  request := fun request => absurd request (show ¬ mpktConnectType = mpktRequestType by decide)
  response := fun response => absurd response (show ¬ mpktConnectType = mpktResponseType by decide)
  connect := fun _ => rfl

theorem connectPacket_fields (username : CStr) (port : UInt32) :
    (connectPacket (some username) port).fields =
      [.fixed 4, .fixed 4, .fixed 4, .str username.val.length] := rfl

theorem connectPacket_bulk (username : CStr) (port : UInt32) :
    (connectPacket (some username) port).bulk ≤ 2 ^ 63 := by
  rw [Packet.bulk, connectPacket_fields]
  simp only [least_cons, least_nil, Field.least]
  omega

theorem connectPacket_length (username : CStr) (port : UInt32) :
    (connectPacket (some username) port).image.length = username.val.length + 13 := by
  rw [← (connectPacket_wellFormed username port).size_fields, connectPacket_fields]
  simp only [size_cons, size_nil, Field.size]
  omega

/-- No write fails before the CONNECT packet is through, unless the packet does
not fit into memory. -/
def ConnectUninterrupted (username : CStr) (writes : List WriteResult) : Prop :=
  username.val.length + 13 < 2 ^ 63 →
    ¬ FailsBefore (fun _ => True) (username.val.length + 13) writes

theorem FailsBefore.imp {kind kind' : Errno → Prop} (weaker : ∀ errno, kind errno → kind' errno)
    {left : Nat} {writes : List WriteResult} (fails : FailsBefore kind left writes) :
    FailsBefore kind' left writes := by
  induction writes generalizing left with
  | nil => cases left <;> exact fails.elim
  | cons result writes ih =>
      cases left with
      | zero => exact fails.elim
      | succ left =>
          cases result with
          | error errno => exact Or.imp (weaker errno) ih fails
          | count n => exact ih fails

theorem clientConnect_honest {username : CStr} {writes : List WriteResult}
    (through : ConnectUninterrupted username writes) (realloc : Nat → Bool)
    (connected : Except Errno Int) (localport : Option UInt32) :
    ∃ sent, clientConnect realloc connected localport writes (some username) = .ok sent ∧
      SendsWhole (connectPacket (some username) (localport.getD 0)).image writes sent := by
  have failing : ∀ encoding, SendsWhole encoding writes ([], some (-1)) := fun encoding =>
    ⟨List.nil_prefix, (fun returned => nomatch returned), fun _ => ⟨_, by decide, rfl⟩⟩
  unfold clientConnect
  cases connected with
  | error errno => exact ⟨_, rfl, failing _⟩
  | ok fd =>
      cases localport with
      | none => exact ⟨_, rfl, failing _⟩
      | some port =>
          simp only [Option.getD_some]
          rcases bufferSerialize_cases (connectPacket_wellFormed username port)
            (connectPacket_bulk username port) realloc bufferInit with ⟨buf, refused, _⟩ |
            ⟨buf, answer, contents, small, _⟩
          · simp only [refused]
            exact ⟨_, rfl, failing _⟩
          · simp only [answer]
            have bytes : buf.bytes = (connectPacket (some username) port).image := by
              rw [Buffer.bytes, contents, bufferInit_contents, List.nil_append, vals_cells]
            rw [connectPacket_length] at small
            have calm := through small
            rw [← connectPacket_length username port, ← bytes] at calm
            rw [← bytes]
            refine ⟨_, rfl, clientConnectLoop_front writes buf, fun returned => ?_, fun hard => ?_⟩
            · apply clientConnectLoop_whole calm
              cases ended : (clientConnectLoop writes buf).2 with
              | true => rfl
              | false =>
                  simp only [ended] at returned
                  cases returned
            · exact absurd (hard.imp fun _ _ => trivial) calm

/-- When a write does fail, success is reported for a part of the packet. -/
theorem clientConnect_dishonest {username : CStr} {writes : List WriteResult}
    (small : username.val.length + 13 < 2 ^ 63)
    (fails : FailsBefore (fun _ => True) (username.val.length + 13) writes) (port : UInt32) :
    ∃ wire, clientConnect (fun _ => true) (.ok 3) (some port) writes (some username) =
        .ok (wire, some 0) ∧
      wire ≠ (connectPacket (some username) port).image := by
  unfold clientConnect
  rcases @bufferSerialize_emits (fun _ => true) _ _
    (serializePkt_emits (connectPacket_wellFormed username port))
    (by rw [connectPacket_length]; exact small) bufferInit with ⟨buf, _, _, n, le, refused⟩ |
    ⟨buf, answer, contents, _⟩
  · rw [connectPacket_length] at le
    have used : bufferInit.used = 0 := rfl
    have large := refused rfl
    omega
  · simp only [answer]
    have bytes : buf.bytes = (connectPacket (some username) port).image := by
      rw [Buffer.bytes, contents, bufferInit_contents, List.nil_append, vals_cells]
    rw [← connectPacket_length username port, ← bytes] at fails
    obtain ⟨ended, short⟩ := clientConnectLoop_fails fails
    refine ⟨_, ?_, bytes ▸ short⟩
    simp only [ended, if_true]

/-- `packet_send` keeps its promise for every packet and whatever the writes do;
`client_connect` does as long as no write fails, be it for an interrupt only. -/
theorem sendersHonest_iff {pkt : Packet} (wf : pkt.WellFormed) (bulk : pkt.bulk ≤ 2 ^ 63)
    (username : CStr) (writes : List WriteResult) :
    SendersHonest pkt username writes ↔ ConnectUninterrupted username writes := by
  constructor
  · rintro ⟨_, connect⟩ small fails
    obtain ⟨wire, answer, short⟩ := clientConnect_dishonest small fails 0
    obtain ⟨sent, answer', honest⟩ := connect (fun _ => true) (.ok 3) (some 0)
    rw [answer] at answer'
    cases answer'
    exact short (honest.whole rfl)
  · exact fun through => ⟨packetSend_honest wf bulk writes, clientConnect_honest through⟩

/-- A DISCONNECT packet and a user `u` that nothing interrupts. -/
theorem sendersHonest_uninterrupted :
    SendersHonest { mpktMagic := mpktMagicNumber, mpktType := mpktDisconnect } ⟨[117], by decide⟩
        [.count 5, .count 9] :=
  (sendersHonest_iff
    ⟨fun request => absurd request (by decide), fun response => absurd response (by decide),
      fun connect => absurd connect (by decide)⟩
    (by decide) _ _).mpr fun _ fails => fails

/-- The first write of the CONNECT packet of `u` is interrupted. -/
theorem interruptedConnect_dishonest :
    ¬ SendersHonest { mpktMagic := mpktMagicNumber, mpktType := mpktDisconnect } ⟨[117], by decide⟩
        [.error ⟨eintr, by decide⟩] := by
  rintro ⟨_, connect⟩
  obtain ⟨wire, answer, short⟩ :=
    @clientConnect_dishonest ⟨[117], by decide⟩ [.error ⟨eintr, by decide⟩] (by decide)
      (Or.inl trivial) 0
  obtain ⟨sent, answer', honest⟩ := connect (fun _ => true) (.ok 3) (some 0)
  rw [answer] at answer'
  cases answer'
  exact short (honest.whole rfl)

end Middfs
