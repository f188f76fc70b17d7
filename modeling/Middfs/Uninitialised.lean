import Middfs.Decode.Stale

/-!
# Decoding into a struct that was not initialised

Whether `deserialize_pkt` depends on the bytes alone.  It does, except on the
bytes of a DIR response, whose entries go wherever `mdir_ents` pointed before,
and on those of a payload whose length wraps around, of which the pointer is
left as it was.
-/

set_option autoImplicit false

namespace Middfs

open Prefix

/-! ## What is promised -/

/-- Two answers for the same bytes: the same count and the same error flag and,
where a complete packet is reported, the same fields. -/
def Alike (buf : List UInt8) : Except Trap (Cursor Packet) → Except Trap (Cursor Packet) → Prop
  | .ok s, .ok s' =>
      s.used = s'.used ∧ s.err = s'.err ∧
        (s.err = 0 → s.used ≤ buf.length → s.obj.live = s'.obj.live)
  | .error trap, .error trap' => trap = trap'
  | _, _ => False

def Packet.ents (pkt : Packet) : Option (List Dirent) := pkt.mpktResponse.mrspDir.mdirEnts

/-- The struct after one or more attempts on prefixes of these bytes, the first
of which found no array. -/
inductive Attempted (malloc : Nat → Bool) (buf : List UInt8) : Packet → Prop where
  | first {front : List UInt8} {pkt : Packet} {s : Cursor Packet} : front <+: buf →
      pkt.ents = none → deserializePkt malloc front pkt 0 = .ok s → Attempted malloc buf s.obj
  | again {front : List UInt8} {pkt : Packet} {s : Cursor Packet} : front <+: buf →
      Attempted malloc buf pkt → deserializePkt malloc front pkt 0 = .ok s →
      Attempted malloc buf s.obj

/-- The array has room for the entries and was allocated by this call or by an
earlier attempt. -/
def OwnArray (malloc : Nat → Bool) (buf : List UInt8) (pkt : Packet) (s : Cursor Packet) : Prop :=
  (pkt.ents = none ∨ Attempted malloc buf pkt) ∧
    ∃ ents, s.obj.ents = some ents ∧ s.obj.mpktResponse.mrspDir.mdirCount.toNat ≤ ents.length

/-- Whatever the struct held, the answer is the same, and entries are stored into
an array of the decoder's own only. -/
structure DependsOnBytes (buf : List UInt8) : Prop where
  alike : ∀ malloc a b, (∀ n, malloc n = true → n < 2 ^ 63) →
    Alike buf (deserializePkt malloc buf a 0) (deserializePkt malloc buf b 0)
  own : ∀ malloc pkt s, (∀ n, malloc n = true → n < 2 ^ 63) →
    deserializePkt malloc buf pkt 0 = .ok s → s.obj.ents ≠ pkt.ents → OwnArray malloc buf pkt s

/-! ## The bytes of a directory -/

theorem announcesDir_wireHead {o : Packet} (response : o.mpktType = mpktResponseType)
    (dir : o.mpktResponse.mrspType = mrspDirType) (rest : List UInt8) :
    AnnouncesDir (o.wireHead ++ rest) := by
  have split : o.wireHead ++ rest = htonl o.mpktMagic ++ (htonl mpktResponseType ++
      (htonl mrspDirType ++ (htonll o.mpktResponse.mrspDir.mdirCount ++
        (o.mpktResponse.mrspDir.entries.flatMap Dirent.wire ++ rest)))) := by
    rw [Packet.wireHead, Packet.wireUnion, response,
      if_neg (show ¬ mpktResponseType = mpktRequestType by decide), if_pos rfl, Response.wireHead,
      Response.wireUnion, dir]
    simp only [rspTypes_differ, if_true, if_false, Dir.wire, List.append_assoc]
  rw [split]
  have four := htonl_length o.mpktMagic
  have four' := htonl_length mpktResponseType
  refine ⟨?_, ?_, ?_⟩
  · simp only [List.length_append, htonl_length, htonll]
    omega
  · rw [← four, List.drop_left, ntohl_htonl]
  · rw [show (8 : Nat) = (htonl o.mpktMagic).length + (htonl mpktResponseType).length by
      rw [four, four'], ← List.drop_drop, List.drop_left, List.drop_left, ntohl_htonl]

theorem Packet.live_withEnts {pkt : Packet}
    (calm : pkt.mpktType = mpktResponseType → pkt.mpktResponse.mrspType ≠ mrspDirType)
    (ents : Option (List Dirent)) : (pkt.withEnts ents).live = pkt.live := by
  unfold Packet.live Packet.withEnts
  simp only [Packet.mk.injEq, true_and, and_true]
  split_ifs with response
  · unfold Response.live Response.withEnts
    simp only [if_neg (calm response)]
  · rfl

theorem Packet.withPayload_type (pkt : Packet) (bytes : List UInt8) :
    (pkt.withPayload bytes).mpktType = pkt.mpktType := by
  unfold Packet.withPayload
  split_ifs <;> rfl

theorem Packet.withPayload_rspType (pkt : Packet) (bytes : List UInt8) :
    (pkt.withPayload bytes).mpktResponse.mrspType = pkt.mpktResponse.mrspType := by
  unfold Packet.withPayload Response.withPayload
  split_ifs <;> rfl

/-! ## Where the promise is kept -/

theorem readHead_of_complete {buf : List UInt8} (bound : buf.length < 2 ^ 63)
    (short : ¬ Overlong buf) {n : Nat} {pkt : Packet}
    (answer : deserializePkt memory buf zeroPacket 0 = .ok ⟨n, pkt, 0⟩) (within : n ≤ buf.length) :
    ∃ o rest, (readHead memory zeroPacket).run buf = .done o rest ∧ o.payloadLength ≤ rest.length := by
  obtain ⟨last, read, _⟩ := readPkt_of_complete bound short answer within
  obtain ⟨head, mid, readHead, tail⟩ := bind_eq_done.mp read
  obtain ⟨bytes, _, taken, _⟩ := bind_eq_done.mp tail
  rw [run_take] at taken
  split at taken
  · rename_i enough
    exact ⟨head, mid, readHead, enough⟩
  · cases taken

/-- What is reported as complete is what the bytes say. -/
theorem complete_fresh {buf : List UInt8} (bound : buf.length < 2 ^ 63) (calm : ¬ AnnouncesDir buf)
    (short : ¬ Overlong buf) {malloc : Nat → Bool} (large : ∀ n, malloc n = true → n < 2 ^ 63)
    {pkt : Packet} {s : Cursor Packet} (answer : deserializePkt malloc buf pkt 0 = .ok s)
    (clean : s.err = 0) (within : s.used ≤ buf.length) :
    outcome memory buf = .complete s.used s.obj.live := by
  have less : ∀ n, malloc n = true → memory n = true := fun n granted =>
    memory_small n (large n granted)
  have full := deserializePkt_richer less answer clean
  -- the struct that is all zero gives the same count, so it is read to its end too
  rcases answerCount_eq (deserializePkt_blind memory bound (a := pkt) (b := zeroPacket)
    fun announces => absurd announces calm) with ⟨trap, died, _⟩ | ⟨r, z, mine, zero, count, flag⟩
  · rw [full] at died
    cases died
  rw [full] at mine
  cases mine
  have whole : deserializePkt memory buf zeroPacket 0 = .ok ⟨z.used, z.obj, 0⟩ := by
    rw [zero, ← clean, flag]
  obtain ⟨o, rest, read, enough⟩ := readHead_of_complete bound short whole (count ▸ within)
  obtain ⟨split, _, _⟩ := readHead_sound read
  have notDir : o.mpktType = mpktResponseType → o.mpktResponse.mrspType ≠ mrspDirType :=
    fun response dir => calm (split ▸ announcesDir_wireHead response dir rest)
  -- without an array the struct is read like the one that is all zero
  obtain ⟨q, again, bare⟩ := readHead_done_alike memory_small (b := pkt.withEnts none)
    (zeroPacket_ready buf) read
  have roomy : Roomy (buf.drop 12) (pkt.withEnts none).mpktResponse.mrspDir := fun _ held => by
    cases held
  have emptied := deserializePkt_done memory_small bound roomy again
  have length : q.payloadLength = o.payloadLength := by
    rw [← q.payloadLength_bare, bare, o.payloadLength_bare]
  have restored := deserializePkt_withEnts memory calm pkt.ents (pkt.withEnts none)
  have whole : (pkt.withEnts none).withEnts pkt.ents = pkt := rfl
  rw [whole, full, emptied, length, settle_of_le enough] at restored
  have obj : s.obj = (q.withPayload (rest.take o.payloadLength)).withEnts pkt.ents :=
    congrArg Cursor.obj (Except.ok.inj restored)
  have used : s.used = buf.length - rest.length + o.payloadLength :=
    congrArg Cursor.used (Except.ok.inj restored)
  have bareType : q.bare.mpktType = o.bare.mpktType := congrArg Packet.mpktType bare
  have type : q.mpktType = o.mpktType := bareType
  have rspType : q.mpktType = mpktResponseType →
      q.mpktResponse.mrspType = o.mpktResponse.mrspType := by
    intro response
    have both := congrArg (fun pkt => pkt.mpktResponse.mrspType) bare
    simpa only [Packet.bare, if_pos response, if_pos (type ▸ response), Response.bare_type] using both
  have live : s.obj.live = (o.withPayload (rest.take o.payloadLength)).live := by
    rw [obj, Packet.live_withEnts, Packet.live_withPayload_congr bare]
    rw [q.withPayload_type, q.withPayload_rspType]
    intro response
    rw [rspType response]
    exact notDir (type ▸ response)
  rw [outcome, read]
  simp only [settle_of_le enough, verdict, ne_eq, not_true_eq_false, if_false]
  rw [← used, if_pos within, live]

theorem dependsOnBytes {buf : List UInt8} (bound : buf.length < 2 ^ 63) (calm : ¬ AnnouncesDir buf)
    (short : ¬ Overlong buf) : DependsOnBytes buf where
  alike := by
    intro malloc a b large
    rcases answerCount_eq (deserializePkt_blind malloc bound (a := a) (b := b)
      fun announces => absurd announces calm) with ⟨trap, first, second⟩ |
      ⟨s, s', first, second, count, flag⟩
    · rw [first, second]
      rfl
    · rw [first, second]
      refine ⟨count, flag, fun clean within => ?_⟩
      have mine := complete_fresh bound calm short large first clean within
      have other := complete_fresh bound calm short large second (flag ▸ clean) (count ▸ within)
      rw [mine] at other
      injection other
  own := by
    intro malloc pkt s _ answer changed
    have restored := deserializePkt_withEnts malloc calm pkt.ents pkt
    have whole : pkt.withEnts pkt.ents = pkt := rfl
    rw [whole, answer] at restored
    have obj := congrArg Cursor.obj (Except.ok.inj restored)
    exact absurd (congrArg Packet.ents obj) changed

/-! ## Where it is broken -/

/-- On the bytes of a DIR response everything is up to `deserialize_dir`. -/
theorem answerCount_dir {malloc : Nat → Bool} {buf : List UInt8} (announces : AnnouncesDir buf)
    (pkt : Packet) :
    answerCount (deserializePkt malloc buf pkt 0) =
      (answerCount (deserializeDir malloc (buf.drop 12) pkt.mpktResponse.mrspDir 0)).map
        fun count => if count.2 ≠ 0 then (0, count.2) else (sizeAdd 8 (sizeAdd 4 count.1), count.2) := by
  obtain ⟨long, response, dir⟩ := announces
  have four : 4 ≤ (buf.drop 8).length := by
    rw [List.length_drop]
    omega
  rw [deserializePkt_eq malloc (by omega)]
  simp only [deserializePktUnion, response, if_true, Cursor.tryCall, deserializeRsp, typeInt32_front,
    if_pos four, if_neg (Nat.not_lt_of_le four), deserializeRspUnion, dir, rspTypes_differ, if_false,
    List.drop_drop]
  cases deserializeDir malloc (buf.drop (8 + 4)) pkt.mpktResponse.mrspDir 0 with
  | error trap => rfl
  | ok s =>
      simp only [answerCount, Except.map, pktEnd]
      split_ifs <;> rfl

theorem Alike.count {buf : List UInt8} {r r' : Except Trap (Cursor Packet)} (alike : Alike buf r r') :
    answerCount r = answerCount r' := by
  cases r with
  | error trap =>
      cases r' with
      | error trap' => exact congrArg (fun trap => answerCount (.error trap)) alike
      | ok s' => exact alike.elim
  | ok s =>
      cases r' with
      | error trap' => exact alike.elim
      | ok s' => exact SameCount.answer ⟨alike.1, alike.2.1⟩

theorem announcesDir_dependent {buf : List UInt8} (announces : AnnouncesDir buf) :
    ¬ DependsOnBytes buf := by
  intro depends
  have enough : ¬ 8 > (buf.drop 12).length := by
    have long := announces.1
    rw [List.length_drop]
    omega
  have alike := (depends.alike (fun _ => false) zeroPacket (zeroPacket.withEnts (some []))
    (fun _ granted => by cases granted)).count
  rw [answerCount_dir announces, answerCount_dir announces] at alike
  have refused : answerCount (deserializeDir (fun _ => false) (buf.drop 12)
      zeroPacket.mpktResponse.mrspDir 0) = .ok (0, 1) := by
    unfold deserializeDir
    simp only [call_uint64_front, ne_eq, not_true_eq_false, if_false, false_or]
    rw [if_neg enough]
    rfl
  rw [refused] at alike
  unfold deserializeDir at alike
  simp only [call_uint64_front, ne_eq, not_true_eq_false, if_false, false_or] at alike
  rw [if_neg enough] at alike
  simp only [direntArray, Packet.withEnts, Response.withEnts] at alike
  cases count : (deserializeUint64 (buf.drop 12) zeroPacket.mpktResponse.mrspDir.mdirCount 0).obj.toNat with
  | zero =>
      simp only [count, deserializeDirents] at alike
      cases alike
  | succ left =>
      simp only [count, deserializeDirents] at alike
      cases alike

/-- A struct in which pointers to payloads were left. -/
def stalePacket : Packet :=
  { mpktRequest := { mreqData := some [] }, mpktResponse := { mrspData := { mdataBuf := some [] } } }

/-- A payload that is announced but not there keeps the pointer that was there. -/
theorem stale_live {w q : Packet} (payload : 0 < w.payloadLength)
    (noData : w.mpktRequest.mreqData = none) (noBuf : w.mpktResponse.mrspData.mdataBuf = none)
    (data : q.mpktRequest.mreqData = some []) (buffer : q.mpktResponse.mrspData.mdataBuf = some []) :
    w.live ≠ q.live := by
  intro same
  have type : w.live.mpktType = q.live.mpktType := congrArg Packet.mpktType same
  unfold Packet.payloadLength at payload
  split_ifs at payload with request response
  · have req := congrArg Packet.mpktRequest same
    have request' : q.mpktType = mpktRequestType := type.symm.trans request
    simp only [Packet.live, if_pos request, if_pos request'] at req
    have has : reqHasData w.mpktRequest.mreqType = true := by
      unfold Request.payloadLength at payload
      by_contra lacks
      rw [if_neg lacks] at payload
      exact Nat.lt_irrefl 0 payload
    have reqType : w.mpktRequest.live.mreqType = q.mpktRequest.live.mreqType :=
      congrArg Request.mreqType req
    have has' : reqHasData q.mpktRequest.mreqType = true := reqType ▸ has
    have pointer := congrArg Request.mreqData req
    simp only [Request.live, if_pos has, if_pos has', noData, data] at pointer
    cases pointer
  · have rsp := congrArg Packet.mpktResponse same
    have response' : q.mpktType = mpktResponseType := type.symm.trans response
    simp only [Packet.live, if_pos response, if_pos response'] at rsp
    have isData : w.mpktResponse.mrspType = mrspDataType := by
      unfold Response.payloadLength at payload
      by_contra other
      rw [if_neg other] at payload
      exact Nat.lt_irrefl 0 payload
    rw [Response.payloadLength, if_pos isData] at payload
    have isData' : q.mpktResponse.mrspType = mrspDataType := by
      have types := congrArg Response.mrspType rsp
      rw [Response.live_type, Response.live_type] at types
      exact types.symm.trans isData
    have pointer := congrArg Response.mrspData rsp
    simp only [Response.live, if_pos isData, if_pos isData', noBuf, buffer, Data.mk.injEq] at pointer
    obtain ⟨pointers, nbytes⟩ := pointer
    have some_ : ¬ w.mpktResponse.mrspData.mdataNbytes = 0 := fun zero => by
      rw [zero] at payload
      cases payload
    rw [if_neg some_, if_neg (nbytes ▸ some_)] at pointers
    cases pointers
  · exact Nat.lt_irrefl 0 payload

theorem overlong_dependent {buf : List UInt8} (bound : buf.length < 2 ^ 63) (long : Overlong buf) :
    ¬ DependsOnBytes buf := by
  intro depends
  obtain ⟨w, rest, read, past, wrapped⟩ := long.settles bound
  obtain ⟨q, again, bare⟩ := readHead_done_alike memory_small (b := stalePacket)
    (zeroPacket_ready buf) read
  have length : q.payloadLength = w.payloadLength := by
    rw [← q.payloadLength_bare, bare, w.payloadLength_bare]
  have roomy : Roomy (buf.drop 12) stalePacket.mpktResponse.mrspDir := fun _ held => by
    cases held
  have zero := deserializePkt_done memory_small bound (zeroPacket_ready buf).roomy read
  have stale := deserializePkt_done memory_small bound roomy again
  rw [settle_of_lt past] at zero
  rw [length, settle_of_lt past] at stale
  have alike := depends.alike memory zeroPacket stalePacket memory_large
  rw [zero, stale] at alike
  obtain ⟨noData, noBuf, _⟩ := readHead_keeps read
  obtain ⟨data, buffer, _⟩ := readHead_keeps again
  exact stale_live (Nat.zero_lt_of_lt past) noData noBuf data buffer (alike.2.2 rfl wrapped)

/-- The answer depends on the bytes alone exactly when they are neither those of a
DIR response nor announce a length that wraps around. -/
theorem dependsOnBytes_iff (buf : Bytes) :
    DependsOnBytes buf.val ↔ ¬ AnnouncesDir buf.val ∧ ¬ Overlong buf.val :=
  ⟨fun depends => ⟨fun announces => announcesDir_dependent announces depends,
    fun long => overlong_dependent buf.property long depends⟩,
    fun ⟨calm, short⟩ => dependsOnBytes buf.property calm short⟩

/-- A response with a directory of one entry `a`, in a struct of which the bytes of
`mdir_ents` were not zero: the entry is stored wherever they point. -/
theorem oneEntry_dependent :
    ¬ DependsOnBytes
      [0, 0, 7, 8, 0, 0, 0, 4, 0, 0, 0, 3, 0, 0, 0, 0, 0, 0, 0, 1, 97, 0, 0, 0, 128, 0] := by
  intro depends
  have alike := (depends.alike memory zeroPacket (zeroPacket.withEnts (some []))
    memory_large).count
  cases alike

end Middfs
