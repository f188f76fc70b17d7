import Middfs.Decode.Allocation
import Middfs.Decode.Soundness

/-!
# One attempt, with whatever memory there is

A caller that only knows that no allocation of 2 ^ 63 bytes or more succeeds
still knows what an attempt comes to, unless it fails: the verdict is the one
of the wire format with all the memory in the world.
-/

set_option autoImplicit false

namespace Middfs

open Prefix

/-- A whole packet stands at the front. -/
def Whole (buf : List UInt8) : Prop := ∃ (w : Packet) (rest : List UInt8), w.WellFormed ∧ buf = w.wire ++ rest

def Rejected (buf : List UInt8) : Prop := BadType buf ∨ TooBig memory buf

theorem outcome_badType {malloc : Nat → Bool} {buf : List UInt8} (bad : BadType buf) :
    outcome malloc buf = .error := by
  rw [outcome, readHead_badType.mpr bad]

theorem outcome_tooBig {malloc : Nat → Bool} {buf : List UInt8} (large : TooBig malloc buf) :
    outcome malloc buf = .error := by
  rw [outcome, readHead_noMemory rfl large]

theorem rejected_of_error {buf : List UInt8} (error : outcome memory buf = .error) :
    Rejected buf := by
  unfold outcome at error
  split at error
  · cases error
  · rename_i why read
    rcases readHead_refuse read with ⟨_, bad⟩ | ⟨_, _, large⟩
    · exact Or.inl bad
    · exact Or.inr large
  · rename_i o rest read
    unfold verdict at error
    rw [settle_err] at error
    split_ifs at error with bad
    exact absurd rfl bad

theorem outcome_rejected {buf : List UInt8} (rejected : Rejected buf) :
    outcome memory buf = .error := rejected.elim outcome_badType outcome_tooBig

theorem grants_or_tooBig (malloc : Nat → Bool) (w : Packet) (rest : List UInt8) :
    zeroPacket.Grants malloc w ∨ TooBig malloc (w.wireHead ++ rest) := by
  by_cases dir : w.mpktType = mpktResponseType ∧ w.mpktResponse.mrspType = mrspDirType
  · obtain ⟨response, isDir⟩ := dir
    cases granted : malloc (w.mpktResponse.mrspDir.mdirCount.toNat * sizeofDirent) with
    | true => exact Or.inl fun _ _ => ⟨_, by simp [Dir.Grants, direntArray, zeroPacket, granted]; rfl⟩
    | false =>
        refine Or.inr ⟨w.mpktMagic, w.mpktResponse.mrspDir.mdirCount,
          w.mpktResponse.mrspDir.entries.flatMap Dirent.wire ++ rest, ?_, granted⟩
        rw [Packet.wireHead, Packet.wireUnion, response,
          if_neg (show ¬ mpktResponseType = mpktRequestType by decide), if_pos rfl,
          Response.wireHead, Response.wireUnion, isDir]
        simp only [rspTypes_differ, if_true, if_false, Dir.wire, List.append_assoc]
  · exact Or.inl fun response isDir => absurd ⟨response, isDir⟩ dir

/-- A whole packet is complete, or rejected as too big. -/
theorem outcome_whole {w : Packet} {rest : List UInt8} (wf : w.WellFormed)
    (bound : (w.wire ++ rest).length < 2 ^ 63) :
    outcome memory (w.wire ++ rest) = .complete w.wire.length w.live ∨
      outcome memory (w.wire ++ rest) = .error := by
  have split : w.wire ++ rest = w.wireHead ++ (w.payload ++ rest) := by
    rw [Packet.wire, List.append_assoc]
  rcases grants_or_tooBig memory w (w.payload ++ rest) with granted | large
  · left
    obtain ⟨q, read, live⟩ := readPkt_back wf granted rest
    have known : ¬ BadType (w.wire ++ rest) := fun bad => by
      have refused := (@readHead_badType memory zeroPacket _).mpr bad
      obtain ⟨head, mid, headRead, _⟩ := bind_eq_done.mp read
      rw [refused] at headRead
      cases headRead
    have ready := zeroPacket_ready (w.wire ++ rest)
    obtain ⟨s, answer, same, _⟩ := decode_outcome memory_small memory_large bound ready known
    rw [deserializePkt_complete memory_small bound ready read] at answer
    cases answer
    rw [← same, verdict, if_neg (by simp), if_pos (by simp)]
    simp [live]
  · right
    rw [split]
    exact outcome_tooBig large

/-- What is complete is a whole packet, unless a length wrapped around. -/
theorem whole_of_complete {buf : List UInt8} {used : Nat} {pkt : Packet}
    (bound : buf.length < 2 ^ 63) (short : ¬ Overlong buf)
    (complete : outcome memory buf = .complete used pkt) :
    ∃ (w : Packet) (rest : List UInt8), w.WellFormed ∧ buf = w.wire ++ rest ∧ w.live = pkt ∧ w.wire.length = used := by
  have known : ¬ BadType buf := fun bad => by
    rw [outcome_badType bad] at complete
    cases complete
  obtain ⟨s, answer, same, _⟩ := decode_outcome memory_small memory_large bound
    (zeroPacket_ready buf) known
  rw [complete] at same
  obtain ⟨clean, rfl, within, live⟩ := verdict_complete same
  have whole : deserializePkt memory buf zeroPacket 0 = .ok ⟨s.used, s.obj, 0⟩ := by
    rw [answer, ← clean]
  obtain ⟨rest, read, used⟩ := readPkt_of_complete bound short whole within
  obtain ⟨split, wf⟩ := readPkt_sound read
  refine ⟨s.obj, rest, wf, split, live, ?_⟩
  rw [used, split, List.length_append]
  omega

/-- A wrapped length is never the beginning of a whole packet. -/
theorem Overlong.not_whole {buf : List UInt8} (long : Overlong buf) (bound : buf.length < 2 ^ 63) :
    ¬ Whole buf := by
  rintro ⟨w, rest, wf, rfl⟩
  exact wf.not_overlong bound long

theorem Overlong.complete {buf : List UInt8} (long : Overlong buf) (bound : buf.length < 2 ^ 63) :
    ∃ used pkt, outcome memory buf = .complete used pkt := by
  obtain ⟨w, rest, read, past, wrapped⟩ := long.settles bound
  refine ⟨sizeAdd (buf.length - rest.length) w.payloadLength, w.live, ?_⟩
  rw [outcome, read]
  simp only [settle_of_lt past, verdict, if_pos wrapped, ne_eq, not_true_eq_false, if_false]

theorem Overlong.grow {buf : List UInt8} (long : Overlong buf) (more : List UInt8) :
    Overlong (buf ++ more) := by
  obtain ⟨head, rest, rfl, filled, wraps⟩ := long
  exact ⟨head, rest ++ more, by rw [List.append_assoc], filled, wraps⟩

/-- What was received of a response is not misread: its length does not wrap around, its type
is known, and no packet of another type stands there. -/
structure Legible (buf : List UInt8) : Prop where
  short : ¬ Overlong buf
  known : ¬ BadType buf
  response : Whole buf → ntohl (buf.drop 4) = mpktResponseType

theorem Legible.complete {buf : List UInt8} (legible : Legible buf) (bound : buf.length < 2 ^ 63)
    {used : Nat} {live : Packet} (complete : outcome memory buf = .complete used live) :
    ∃ (w : Packet) (rest : List UInt8), w.WellFormed ∧ w.mpktType = mpktResponseType ∧
      buf = w.wire ++ rest ∧ live = w.live := by
  obtain ⟨w, rest, wf, split, same, _⟩ := whole_of_complete bound legible.short complete
  have response := legible.response ⟨w, rest, wf, split⟩
  rw [split, w.wire_type] at response
  exact ⟨w, rest, wf, response, split, same.symm⟩

/-! ## Any memory -/

theorem attempt_cases {malloc : Nat → Bool} (large : ∀ n, malloc n = true → n < 2 ^ 63)
    {buf : List UInt8} {pkt : Packet} (bound : buf.length < 2 ^ 63) (ready : pkt.Ready buf) :
    (deserializePkt malloc buf pkt 0 = .error .abort ∧ BadType buf) ∨
      (∃ s, deserializePkt malloc buf pkt 0 = .ok s ∧ s.err ≠ 0) ∨
      ∃ s, deserializePkt malloc buf pkt 0 = .ok s ∧ s.err = 0 ∧ ¬ BadType buf ∧
        deserializePkt memory buf pkt 0 = .ok s ∧ verdict buf s = outcome memory buf ∧
        (outcome memory buf = .waiting → ∀ more, s.obj.Ready (buf ++ more)) := by
  have less : ∀ n, malloc n = true → memory n = true := fun n granted =>
    memory_small n (large n granted)
  rcases deserializePkt_poorer less buf pkt 0 with same | failed
  · rw [same]
    by_cases bad : BadType buf
    · have refused := @deserializePkt_refuse _ memory_small _ pkt _ bound
        (readHead_badType.mpr bad)
      exact Or.inl ⟨refused, bad⟩
    · obtain ⟨s, answer, agrees, again⟩ := decode_outcome memory_small memory_large bound ready bad
      rw [agrees] at again
      by_cases clean : s.err = 0
      · exact Or.inr (Or.inr ⟨s, answer, clean, bad, answer, agrees, again⟩)
      · exact Or.inr (Or.inl ⟨s, answer, clean⟩)
  · exact Or.inr (Or.inl failed)

/-! ## What is taken for complete -/

/-- A packet that is taken for complete is whole, or the length it gives wrapped
around and there is no payload. -/
theorem complete_cases {malloc : Nat → Bool} (large : ∀ n, malloc n = true → n < 2 ^ 63)
    {buf : List UInt8} (bound : buf.length < 2 ^ 63) {s : Cursor Packet}
    (answer : deserializePkt malloc buf zeroPacket 0 = .ok s) (clean : s.err = 0)
    (whole : s.used ≤ buf.length) :
    (s.obj.WellFormed ∧ ∃ rest, buf = s.obj.wire ++ rest ∧ s.used = s.obj.wire.length) ∨
      (s.obj.HeadFilled ∧ 2 ^ 63 ≤ s.obj.payloadLength ∧ Overlong buf ∧
        (s.obj.mpktType = mpktRequestType → s.obj.mpktRequest.mreqData = none)) := by
  have same : deserializePkt memory buf zeroPacket 0 = .ok ⟨s.used, s.obj, 0⟩ := by
    rw [deserializePkt_richer (fun n granted => memory_small n (large n granted)) answer clean, ← clean]
  by_cases long : Overlong buf
  · right
    obtain ⟨w, rest, read, past, _⟩ := long.settles bound
    have settled := deserializePkt_done memory_small bound (zeroPacket_ready buf).roomy read
    rw [settle_of_lt past, same] at settled
    obtain ⟨split, filled, _⟩ := readHead_sound read
    have total := congrArg List.length split
    rw [List.length_append] at total
    obtain ⟨head, rest', splitHead, filledHead, wraps⟩ := id long
    simp only [Except.ok.injEq, Cursor.mk.injEq] at settled
    obtain ⟨_, obj, _⟩ := settled
    rw [obj]
    refine ⟨filled, ?_, long, readHead_data read⟩
    -- the two readings of the head agree on the length that it gives
    have free : ∀ pkt : Packet, zeroPacket.Grants (fun _ => true) pkt := fun _ _ _ => ⟨_, rfl⟩
    obtain ⟨q, readQ, bareQ⟩ := readHead_back filled (free w) rest
    obtain ⟨r, readR, bareR⟩ := readHead_back filledHead (free head) rest'
    rw [← split, splitHead, readR] at readQ
    cases readQ
    have lengths : w.payloadLength = head.payloadLength := by
      rw [← w.payloadLength_bare, ← bareQ, bareR, head.payloadLength_bare]
    have shorter := congrArg List.length splitHead
    rw [List.length_append] at shorter
    omega
  · left
    obtain ⟨rest, read, used⟩ := readPkt_of_complete bound long same whole
    obtain ⟨split, wf⟩ := readPkt_sound read
    refine ⟨wf, rest, split, ?_⟩
    have total := congrArg List.length split
    rw [List.length_append] at total
    omega

/-- The head of what is taken for complete stands at the front. -/
theorem complete_front {malloc : Nat → Bool} (large : ∀ n, malloc n = true → n < 2 ^ 63)
    {buf : List UInt8} (bound : buf.length < 2 ^ 63) {s : Cursor Packet}
    (answer : deserializePkt malloc buf zeroPacket 0 = .ok s) (clean : s.err = 0)
    (whole : s.used ≤ buf.length) : ∃ rest, buf = s.obj.wireHead ++ rest := by
  rcases complete_cases large bound answer clean whole with ⟨_, rest, split, _⟩ | ⟨_, _, long, _⟩
  · exact ⟨s.obj.payload ++ rest, by rw [← List.append_assoc]; exact split⟩
  · obtain ⟨w, rest, read, past, _⟩ := long.settles bound
    have settled := deserializePkt_done memory_small bound (zeroPacket_ready buf).roomy read
    rw [settle_of_lt past,
      deserializePkt_richer (fun n granted => memory_small n (large n granted)) answer clean] at settled
    have obj : s.obj = w := congrArg Cursor.obj (Except.ok.inj settled)
    exact ⟨rest, obj ▸ (readHead_sound read).1⟩

theorem complete_filled {malloc : Nat → Bool} (large : ∀ n, malloc n = true → n < 2 ^ 63)
    {buf : List UInt8} (bound : buf.length < 2 ^ 63) {s : Cursor Packet}
    (answer : deserializePkt malloc buf zeroPacket 0 = .ok s) (clean : s.err = 0)
    (whole : s.used ≤ buf.length) : s.obj.HeadFilled := by
  rcases complete_cases large bound answer clean whole with ⟨wf, _⟩ | ⟨filled, _⟩
  · exact wf.head
  · exact filled

theorem decoded_request {malloc : Nat → Bool} {w : Packet} (filled : w.HeadFilled)
    (request : w.mpktType = mpktRequestType) {rest : List UInt8}
    (bound : (w.wireHead ++ rest).length < 2 ^ 63) {s : Cursor Packet}
    (answer : deserializePkt malloc (w.wireHead ++ rest) zeroPacket 0 = .ok s) (clean : s.err = 0) :
    s.obj.mpktType = mpktRequestType ∧ s.obj.mpktRequest.bare = w.mpktRequest.bare := by
  have same : deserializePkt (fun _ => true) (w.wireHead ++ rest) zeroPacket 0 = .ok s :=
    deserializePkt_richer (fun _ _ => rfl) answer clean
  obtain ⟨q, read, bare⟩ := readHead_back filled
    (show zeroPacket.Grants (fun _ => true) w from fun _ _ => ⟨_, rfl⟩) rest
  have done := @deserializePkt_done (fun _ => true) (fun _ _ => rfl) _ _ _ _ bound
    (zeroPacket_ready _).roomy read
  rw [same] at done
  have obj := congrArg Cursor.obj (Except.ok.inj done)
  have type : q.mpktType = mpktRequestType := (congrArg Packet.mpktType bare).trans request
  have fields : q.mpktRequest.bare = w.mpktRequest.bare := by
    have requests := congrArg Packet.mpktRequest bare
    simpa only [Packet.bare, if_pos type, if_pos request] using requests
  rw [obj, ← fields]
  unfold settle Packet.withPayload Request.withPayload
  split_ifs <;> exact ⟨type, rfl⟩

end Middfs
