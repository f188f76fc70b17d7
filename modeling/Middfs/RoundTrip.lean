import Middfs.Buffers
import Middfs.Decode.Attempt

/-!
# Encoding and decoding again

`Encodes pkt bytes`: whatever buffer `serialize_pkt` is given, if it has room
for `bytes`, then exactly they are what the call leaves at the front of it.
-/

set_option autoImplicit false

namespace Middfs

open Prefix

def Encodes (pkt : Packet) (bytes : List UInt8) : Prop :=
  ∀ mem : List UInt8, bytes.length ≤ mem.length → ∃ s, serializePkt pkt mem.length = .ok s ∧
    s.used = bytes.length ∧ storeAll mem s.writes = some (bytes ++ mem.drop bytes.length)

theorem serializePkt_encodes {pkt : Packet} (wf : pkt.WellFormed)
    (small : pkt.image.length < 2 ^ 64) : Encodes pkt pkt.image := by
  intro mem room
  obtain ⟨s, written, answer, emitted⟩ := serializePkt_emits wf small mem.length
  obtain ⟨used, rfl⟩ := emitted.fits room
  refine ⟨s, answer, used, ?_⟩
  have stored := @Contig.storeAll _ _ _ emitted.contig mem (by omega)
  simpa using stored

theorem Emit.call_eq_ok {s t : Emit} {nbytes : Nat} {f : Serialize} (called : s.call nbytes f = .ok t) :
    (∃ r, f (sizerem nbytes s.used) = .ok r) ∧ t.used < 2 ^ 64 := by
  unfold Emit.call at called
  cases answer : f (sizerem nbytes s.used) with
  | error trap =>
      rw [answer] at called
      cases called
  | ok r =>
      rw [answer] at called
      cases called
      exact ⟨⟨r, rfl⟩, Nat.mod_lt _ (by decide)⟩

theorem bind_eq_ok {α β : Type} {x : Except Trap α} {f : α → Except Trap β} {b : β}
    (done : (x >>= f) = .ok b) : ∃ a, x = .ok a ∧ f a = .ok b := by
  cases x with
  | error trap => cases done
  | ok a => exact ⟨a, rfl, done⟩

theorem not_encodes_missing {pkt : Packet} (request : pkt.mpktType = mpktRequestType)
    (has : reqHasData pkt.mpktRequest.mreqType = true) (missing : pkt.mpktRequest.mreqData = none)
    (some_ : pkt.mpktRequest.mreqSize.toNat ≠ 0) (bytes : List UInt8) : ¬ Encodes pkt bytes := by
  intro encodes
  have size := pkt.mpktRequest.mreqSize.toNat_lt
  obtain ⟨s, answer, _⟩ := encodes (List.replicate (bytes.length + 2 ^ 66) 0)
    (by rw [List.length_replicate]; omega)
  rw [List.length_replicate] at answer
  obtain ⟨typed, _, answer⟩ := bind_eq_ok answer
  obtain ⟨tagged, tagged', answer⟩ := bind_eq_ok answer
  rw [if_pos request] at answer
  obtain ⟨⟨r, sent⟩, _⟩ := Emit.call_eq_ok answer
  have taggedUsed := (Emit.call_eq_ok tagged').2
  obtain ⟨_, _, sent⟩ := bind_eq_ok sent
  obtain ⟨_, _, sent⟩ := bind_eq_ok sent
  obtain ⟨_, _, sent⟩ := bind_eq_ok sent
  obtain ⟨_, _, sent⟩ := bind_eq_ok sent
  obtain ⟨_, _, sent⟩ := bind_eq_ok sent
  obtain ⟨_, _, sent⟩ := bind_eq_ok sent
  obtain ⟨before, off, sent⟩ := bind_eq_ok sent
  have hasOff : reqHasOff pkt.mpktRequest.mreqType = true := by
    rw [beq_iff_eq.mp has]
    rfl
  rw [Emit.callIf, if_pos hasOff] at off
  have beforeUsed := (Emit.call_eq_ok off).2
  rw [Emit.callIf, if_pos has] at sent
  obtain ⟨⟨t, raw⟩, _⟩ := Emit.call_eq_ok sent
  have failed : memcpyFrom none pkt.mpktRequest.mreqSize.toNat = .error .wild := if_neg some_
  rw [serializeRaw, if_pos (by rw [sizerem_eq_sub, sizerem_eq_sub]; omega), missing, failed] at raw
  cases raw

theorem Packet.wire_length_image (pkt : Packet) : pkt.image.length = pkt.wire.length := by
  have eight : ∀ v w : UInt64, (htonll v).length = (htonll w).length := fun v w => by
    simp only [htonll, List.length_append, htonl_length]
  have sized : ∀ (cond : Bool) (v w : UInt64),
      (onlyIf cond (htonll v)).length = (onlyIf cond (htonll w)).length := fun cond v w => by
    cases cond
    · rfl
    · exact eight v w
  unfold Packet.image Packet.wire Packet.asSent
  split_ifs with request
  · simp only [Packet.wireHead, Packet.wireUnion, request, if_true, Request.wireHead,
      Request.asSent, List.length_append]
    rw [sized _ (viaInt32 pkt.mpktRequest.mreqSize) pkt.mpktRequest.mreqSize,
      sized _ (viaInt32 pkt.mpktRequest.mreqOff) pkt.mpktRequest.mreqOff]
  · rfl

/-- With memory enough, a packet that an object can hold is put into an empty
buffer. -/
theorem bufferSerialize_whole {pkt : Packet} (wf : pkt.WellFormed) (small : pkt.wire.length < 2 ^ 63)
    {buf : Buffer} (empty : buf.contents = []) :
    ∃ buf', bufferSerialize memory (serializePkt pkt) buf = .ok (buf', some pkt.wire.length) ∧
      buf'.bytes = pkt.image := by
  have used : buf.used = 0 := by
    rw [← buf.bytes_length, Buffer.bytes, empty]
    rfl
  have length := pkt.wire_length_image
  rcases @bufferSerialize_emits memory _ _ (serializePkt_emits wf) (length ▸ small) buf with
    ⟨_, _, _, n, within, failed⟩ | ⟨buf', encoded, contents, _⟩
  · have granted : memory (buf.used + n) = true := memory_small _ (by omega)
    have beyond := failed granted
    omega
  · refine ⟨buf', length ▸ encoded, ?_⟩
    rw [Buffer.bytes, contents, empty, List.nil_append, vals_cells]

section Decode
variable {malloc : Nat → Bool} (small : ∀ n, n < 2 ^ 63 → malloc n = true)
include small

/-- Decoding what the wire format prints, with anything after it. -/
theorem deserializePkt_wire {pkt a : Packet} {rest : List UInt8} (wf : pkt.WellFormed)
    (granted : a.Grants malloc pkt) (ready : a.Ready (pkt.wire ++ rest))
    (bound : (pkt.wire ++ rest).length < 2 ^ 63) :
    ∃ q, deserializePkt malloc (pkt.wire ++ rest) a 0 = .ok ⟨pkt.wire.length, q, 0⟩ ∧
      q.live = pkt.live := by
  obtain ⟨q, read, live⟩ := readPkt_back wf granted rest
  refine ⟨q, ?_, live⟩
  rw [deserializePkt_complete small bound ready read]
  simp

end Decode

theorem outcome_of_complete {bytes : List UInt8} (short : bytes.length < 2 ^ 63) {s : Cursor Packet}
    (answer : deserializePkt memory bytes zeroPacket 0 = .ok s) (clean : s.err = 0)
    (within : s.used ≤ bytes.length) : outcome memory bytes = .complete s.used s.obj.live := by
  rcases attempt_cases memory_large short (zeroPacket_ready bytes) with ⟨refused, _⟩ |
    ⟨s', failed, err⟩ | ⟨s', same, _, _, _, verdicts, _⟩
  · rw [answer] at refused
    cases refused
  · rw [answer] at failed
    cases failed
    exact absurd clean err
  · rw [answer] at same
    cases same
    rw [← verdicts, verdict, if_neg (not_not.mpr clean), if_pos within]

/-- What is taken for complete of the bytes of a packet, and of whatever follows
it, is that packet. -/
theorem wire_decodes {v : Packet} (wf : v.WellFormed) {more bytes : List UInt8}
    (bound : (v.wire ++ more).length < 2 ^ 63) (front : bytes <+: v.wire ++ more) {s : Cursor Packet}
    (answer : deserializePkt memory bytes zeroPacket 0 = .ok s) (clean : s.err = 0)
    (within : s.used ≤ bytes.length) :
    s.obj.WellFormed ∧ s.obj.live = v.live ∧ s.obj.wire = v.wire ∧ s.used = v.wire.length := by
  obtain ⟨tail, split⟩ := front
  have whole : Whole (bytes ++ tail) := ⟨v, more, wf, split⟩
  have bound' : (bytes ++ tail).length < 2 ^ 63 := split ▸ bound
  have short : bytes.length < 2 ^ 63 := by
    rw [List.length_append] at bound'
    omega
  -- the verdict on the bytes that are there stands once all were read
  have complete : outcome memory (bytes ++ tail) = .complete s.used s.obj.live := by
    have verdicts := outcome_of_complete short answer clean within
    rw [outcome_grow tail bound' (by rw [verdicts]; intro no; cases no), verdicts]
  have grants : zeroPacket.Grants memory v := by
    rcases grants_or_tooBig memory v (v.payload ++ more) with grants | large
    · exact grants
    · have error : outcome memory (bytes ++ tail) = .error := by
        rw [split, Packet.wire, List.append_assoc]
        exact outcome_tooBig large
      rw [complete] at error
      cases error
  obtain ⟨q, decoded, live⟩ := deserializePkt_wire memory_small wf grants (zeroPacket_ready _) bound
  have settled := outcome_of_complete bound decoded rfl (by simp)
  rw [← split, complete] at settled
  obtain ⟨used, same⟩ := Verdict.complete.inj settled
  rcases complete_cases memory_large short answer clean within with ⟨wf', rest, parts, length⟩ |
    ⟨_, _, long, _⟩
  · refine ⟨wf', same.trans live, ?_, used⟩
    have both : s.obj.wire ++ (rest ++ tail) = v.wire ++ more := by
      rw [← List.append_assoc, ← parts, split]
    exact (List.append_inj both (length.symm.trans used)).1
  · exact absurd whole ((long.grow tail).not_whole bound')

/-! ## Packets other than requests -/

theorem nonRequest_round_trip (pkt : Packet) (s : List UInt8)
    (notRequest : pkt.mpktType ≠ mpktRequestType) (wf : pkt.WellFormed)
    (fits : (pkt.wire ++ s).length < 2 ^ 63) :
    ∃ bytes, Encodes pkt bytes ∧ ∃ q,
      deserializePkt (fun _ => true) (bytes ++ s) zeroPacket 0 = .ok ⟨bytes.length, q, 0⟩ ∧
        q.live = pkt.live := by
  have granted : zeroPacket.Grants (fun _ => true) pkt := fun _ _ => ⟨_, rfl⟩
  have short : pkt.image.length < 2 ^ 64 := by
    rw [pkt.wire_length_image]
    rw [List.length_append] at fits
    omega
  obtain ⟨q, decoded, live⟩ := @deserializePkt_wire (fun _ => true) (fun _ _ => rfl) _ _ _ wf
    granted (zeroPacket_ready _) fits
  refine ⟨pkt.image, serializePkt_encodes wf short, q, ?_, live⟩
  rw [Packet.image_eq_wire notRequest]
  exact decoded

/-- A directory with three entries, one of them without a name to speak of. -/
def homeListing : Packet :=
  { mpktMagic := mpktMagicNumber
    mpktType := mpktResponseType
    mpktResponse :=
      { mrspType := mrspDirType
        mrspDir :=
          { mdirCount := 3
            mdirEnts := some
              [{ mdeName := some (strAt [97, 98]), mdeMode := 16804 },
                { mdeName := some (strAt []), mdeMode := 0 },
                { mdeName := some (strAt [99]), mdeMode := -1 }] } } }

theorem homeListing_wellFormed : homeListing.WellFormed where
  request := fun other => absurd other (by decide)
  response := fun _ =>
    { known := by decide
      data := fun other => absurd other (by decide)
      dir := fun _ => ⟨rfl, by decide⟩ }
  connect := fun other => absurd other (by decide)

/-- With another packet behind it. -/
theorem homeListing_round_trip :
    ∃ bytes, Encodes homeListing bytes ∧ ∃ q,
      deserializePkt (fun _ => true) (bytes ++ smallWrite.wire) zeroPacket 0 =
          .ok ⟨bytes.length, q, 0⟩ ∧
        q.live = homeListing.live :=
  nonRequest_round_trip homeListing smallWrite.wire (by decide) homeListing_wellFormed (by decide)

/-! ## Requests -/

/-- What decoding into a zeroed packet the bytes that were encoded comes to. -/
def RoundTrips (pkt : Packet) : Prop :=
  ∃ bytes, Encodes pkt bytes ∧ ∃ q,
    deserializePkt (fun _ => true) bytes zeroPacket 0 = .ok ⟨bytes.length, q, 0⟩ ∧
      q.live = pkt.live

theorem Encodes.unique {pkt : Packet} {bytes other : List UInt8} (first : Encodes pkt bytes)
    (second : Encodes pkt other) : bytes = other := by
  have room : (List.replicate (bytes.length + other.length) (0 : UInt8)).length =
      bytes.length + other.length := List.length_replicate
  obtain ⟨s, answer, used, stored⟩ := first
    (List.replicate (bytes.length + other.length) 0) (by omega)
  obtain ⟨s', answer', used', stored'⟩ := second
    (List.replicate (bytes.length + other.length) 0) (by omega)
  rw [answer] at answer'
  cases answer'
  rw [stored] at stored'
  exact (List.append_inj (Option.some.inj stored') (used.symm.trans used')).1

theorem Request.asSent_wireHead {req : Request}
    (size : reqHasSize req.mreqType = true → viaInt32 req.mreqSize = req.mreqSize)
    (off : reqHasOff req.mreqType = true → viaInt32 req.mreqOff = req.mreqOff) :
    req.asSent.wireHead = req.wireHead := by
  have same : ∀ (cond : Bool) (v w : UInt64), (cond = true → v = w) →
      onlyIf cond (htonll v) = onlyIf cond (htonll w) := by
    intro cond v w equal
    cases cond with
    | true => rw [equal rfl]
    | false => rfl
  simp only [Request.wireHead, Request.asSent]
  rw [same _ _ _ size, same _ _ _ off]

/-- The head of a request is decoded as it was sent. -/
theorem decode_image {malloc : Nat → Bool} {pkt : Packet} (request : pkt.mpktType = mpktRequestType)
    (wf : pkt.WellFormed) {rest : List UInt8} (fits : (pkt.image ++ rest).length < 2 ^ 63)
    {s : Cursor Packet} (decoded : deserializePkt malloc (pkt.image ++ rest) zeroPacket 0 = .ok s)
    (clean : s.err = 0) :
    s.obj.mpktType = mpktRequestType ∧ s.obj.mpktRequest.bare = pkt.mpktRequest.asSent.bare := by
  have sent : pkt.asSent = { pkt with mpktRequest := pkt.mpktRequest.asSent } := if_pos request
  have filled : pkt.asSent.HeadFilled := by
    rw [sent]
    exact ⟨wf.head.request, wf.head.response, wf.head.connect⟩
  have sentType : pkt.asSent.mpktType = mpktRequestType := by
    rw [sent]
    exact request
  have parts : pkt.image ++ rest = pkt.asSent.wireHead ++ (pkt.payload ++ rest) :=
    List.append_assoc _ _ _
  rw [parts] at fits decoded
  have head := decoded_request filled sentType fits decoded clean
  rwa [sent] at head

/-- The 64-bit values that survive a conversion to `int32_t` and back. -/
def FitsInt32 (v : UInt64) : Prop := v.toNat < 2 ^ 31 ∨ 2 ^ 64 - 2 ^ 31 ≤ v.toNat

instance (v : UInt64) : Decidable (FitsInt32 v) := inferInstanceAs (Decidable (_ ∨ _))

theorem Packet.wellFormed_of_request {pkt : Packet} (request : pkt.mpktType = mpktRequestType)
    (wf : pkt.mpktRequest.WellFormed) : pkt.WellFormed :=
  ⟨fun _ => wf, fun other => absurd (request.symm.trans other) (by decide),
    fun other => absurd (request.symm.trans other) (by decide)⟩

/-- The size and the offset of a request are not changed by the encoder. -/
def Packet.SurvivesCast (pkt : Packet) : Prop :=
  pkt.mpktType = mpktRequestType →
    (reqHasSize pkt.mpktRequest.mreqType = true → FitsInt32 pkt.mpktRequest.mreqSize) ∧
      (reqHasOff pkt.mpktRequest.mreqType = true → FitsInt32 pkt.mpktRequest.mreqOff)

theorem Packet.image_of_survives (pkt : Packet) (survives : pkt.SurvivesCast) :
    pkt.image = pkt.wire := by
  by_cases request : pkt.mpktType = mpktRequestType
  · obtain ⟨size, off⟩ := survives request
    have heads := Request.asSent_wireHead (fun has => (viaInt32_eq_self _).mpr (size has))
      (fun has => (viaInt32_eq_self _).mpr (off has))
    simp only [Packet.image, Packet.wire, Packet.asSent, if_pos request, Packet.wireHead,
      Packet.wireUnion, heads]
  · exact pkt.image_eq_wire request

theorem RoundTrips.fits {pkt : Packet} (trips : RoundTrips pkt)
    (request : pkt.mpktType = mpktRequestType) (wf : pkt.mpktRequest.WellFormed)
    (small : pkt.wire.length < 2 ^ 63) :
    (reqHasSize pkt.mpktRequest.mreqType = true → FitsInt32 pkt.mpktRequest.mreqSize) ∧
      (reqHasOff pkt.mpktRequest.mreqType = true → FitsInt32 pkt.mpktRequest.mreqOff) := by
  have whole := Packet.wellFormed_of_request request wf
  have short : pkt.image.length < 2 ^ 63 := by
    rw [pkt.wire_length_image]
    exact small
  obtain ⟨bytes, encodes, q, decoded, live⟩ := trips
  rw [encodes.unique (serializePkt_encodes whole (by omega))] at decoded
  have image : pkt.image ++ [] = pkt.image := List.append_nil _
  have bare : q.mpktRequest.bare = pkt.mpktRequest.asSent.bare :=
    (decode_image request whole (image.symm ▸ short) (image.symm ▸ decoded) rfl).2
  have size : q.mpktRequest.live.mreqSize = pkt.mpktRequest.asSent.live.mreqSize :=
    show q.mpktRequest.bare.mreqSize = _ by
      rw [bare]
      rfl
  have off : q.mpktRequest.live.mreqOff = pkt.mpktRequest.asSent.live.mreqOff :=
    show q.mpktRequest.bare.mreqOff = _ by
      rw [bare]
      rfl
  have type : q.mpktType = mpktRequestType := (congrArg Packet.mpktType live).trans request
  have same : q.mpktRequest.live = pkt.mpktRequest.live := by
    have requests := congrArg Packet.mpktRequest live
    simpa only [Packet.live, if_pos type, if_pos request] using requests
  rw [same] at size off
  constructor
  · intro has
    have sizes : pkt.mpktRequest.mreqSize = viaInt32 pkt.mpktRequest.mreqSize := by
      simpa only [Request.live, Request.asSent, has, if_true] using size
    exact (viaInt32_eq_self _).mp sizes.symm
  · intro has
    have offs : pkt.mpktRequest.mreqOff = viaInt32 pkt.mpktRequest.mreqOff := by
      simpa only [Request.live, Request.asSent, has, if_true] using off
    exact (viaInt32_eq_self _).mp offs.symm

/-- A request comes back unchanged exactly when its size and its offset, where
its type has them, survive the cast. -/
theorem request_round_trip_iff (pkt : Packet) (request : pkt.mpktType = mpktRequestType)
    (wf : pkt.mpktRequest.WellFormed) (small : pkt.wire.length < 2 ^ 63) :
    RoundTrips pkt ↔
      (reqHasSize pkt.mpktRequest.mreqType = true → FitsInt32 pkt.mpktRequest.mreqSize) ∧
        (reqHasOff pkt.mpktRequest.mreqType = true → FitsInt32 pkt.mpktRequest.mreqOff) := by
  constructor
  · intro trips
    exact trips.fits request wf small
  · rintro ⟨size, off⟩
    have whole := Packet.wellFormed_of_request request wf
    have image := pkt.image_of_survives fun _ => ⟨size, off⟩
    have encoded := serializePkt_encodes whole (by rw [image]; omega)
    obtain ⟨q, decoded, live⟩ := @deserializePkt_wire (fun _ => true) (fun _ _ => rfl) _ zeroPacket [] whole (fun _ _ => ⟨_, rfl⟩) (zeroPacket_ready _)
      (by simpa using small)
    rw [List.append_nil, ← image] at decoded
    exact ⟨pkt.image, encoded, q, decoded, live⟩

/-- A READ of 4096 bytes at offset 8192. -/
def smallRead : Packet :=
  { mpktMagic := mpktMagicNumber
    mpktType := mpktRequestType
    mpktRequest :=
      { mreqType := mreqRead
        mreqRequester := some (strAt [97])
        mreqRsrc := ⟨some (strAt [98]), some (strAt [47, 102])⟩
        mreqSize := 4096
        mreqOff := 8192 } }

theorem smallRead_wellFormed : smallRead.mpktRequest.WellFormed where
  requester := rfl
  rsrc := ⟨rfl, rfl⟩
  target := fun has => absurd has (by decide)
  data := fun has => absurd has (by decide)

theorem smallRead_round_trip : RoundTrips smallRead :=
  (request_round_trip_iff smallRead rfl smallRead_wellFormed (by decide)).mpr
    ⟨fun _ => Or.inl (by decide), fun _ => Or.inl (by decide)⟩

def bigTruncate : Packet :=
  { smallRead with
    mpktRequest := { smallRead.mpktRequest with mreqType := mreqTruncate, mreqSize := 2147483648 } }

theorem bigTruncate_wellFormed : bigTruncate.mpktRequest.WellFormed where
  requester := rfl
  rsrc := ⟨rfl, rfl⟩
  target := fun has => absurd has (by decide)
  data := fun has => absurd has (by decide)

theorem bigTruncate_no_round_trip :
    bigTruncate.mpktType = mpktRequestType ∧ bigTruncate.mpktRequest.WellFormed ∧
      ¬ RoundTrips bigTruncate := by
  refine ⟨rfl, bigTruncate_wellFormed, fun trips => ?_⟩
  have fits := (trips.fits rfl bigTruncate_wellFormed (by decide)).1 rfl
  exact absurd fits (by decide)

end Middfs
