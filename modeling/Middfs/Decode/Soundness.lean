import Middfs.Decode.Outcome

/-!
# What a complete packet is

A caller takes a packet for complete when no error is set and the number of
bytes reported is within the buffer.  `Decoded` is what it then relies on; the
one way to get a packet that is not is a length that wraps around.
-/

set_option autoImplicit false

namespace Middfs

open Prefix

/-- Every allocation below 2 ^ 63 bytes succeeds, and no other. -/
def memory (n : Nat) : Bool := decide (n < 2 ^ 63)

theorem memory_small : ∀ n, n < 2 ^ 63 → memory n = true := fun _ => decide_eq_true

theorem memory_large : ∀ n, memory n = true → n < 2 ^ 63 := fun _ => of_decide_eq_true

/-! ## The sizes of the fields -/

def strSize : Option CStr → Nat
  | none => 0
  | some s => s.val.length + 1

def Rsrc.fieldsSize (rsrc : Rsrc) : Nat := strSize rsrc.mrOwner + strSize rsrc.mrPath

def Request.fieldsSize (req : Request) : Nat :=
  4 + strSize req.mreqRequester + req.mreqRsrc.fieldsSize +
    (if reqHasMode req.mreqType then 4 else 0) + (if reqHasSize req.mreqType then 8 else 0) +
    (if reqHasTo req.mreqType then req.mreqTo.fieldsSize else 0) +
    (if reqHasOff req.mreqType then 8 else 0) +
    (if reqHasData req.mreqType then req.mreqSize.toNat else 0)

def Response.fieldsSize (rsp : Response) : Nat :=
  4 +
    if rsp.mrspType = mrspOk then 0
    else if rsp.mrspType = mrspDataType then 8 + rsp.mrspData.mdataNbytes.toNat
    else if rsp.mrspType = mrspStatType then 28
    else if rsp.mrspType = mrspDirType then
      8 + (rsp.mrspDir.entries.map fun ent => strSize ent.mdeName + 4).sum
    else 4

def Packet.fieldsSize (pkt : Packet) : Nat :=
  8 +
    if pkt.mpktType = mpktRequestType then pkt.mpktRequest.fieldsSize
    else if pkt.mpktType = mpktResponseType then pkt.mpktResponse.fieldsSize
    else if pkt.mpktType = mpktConnectType then 4 + strSize pkt.mpktConnect.name
    else 0

theorem strWire_length (s : Option CStr) : (strWire s).length = strSize s := by
  cases s with
  | none => rfl
  | some s => simp [strWire, strSize]

theorem htonll_length (v : UInt64) : (htonll v).length = 8 := by
  simp only [htonll, List.length_append, htonl_length]

theorem onlyIf_length (cond : Bool) (bytes : List UInt8) :
    (onlyIf cond bytes).length = if cond then bytes.length else 0 := by
  cases cond <;> rfl

theorem Rsrc.wire_length (rsrc : Rsrc) : rsrc.wire.length = rsrc.fieldsSize := by
  simp only [Rsrc.wire, Rsrc.fieldsSize, List.length_append, strWire_length]

theorem Request.wireHead_length (req : Request) :
    req.wireHead.length + req.payloadLength = req.fieldsSize := by
  simp only [Request.wireHead, Request.fieldsSize, Request.payloadLength, List.length_append,
    onlyIf_length, strWire_length, Rsrc.wire_length, htonl_length, htonll_length, htonlInt]

theorem Response.wireHead_length {rsp : Response} (known : rsp.mrspType ≤ mrspErrorType) :
    rsp.wireHead.length + rsp.payloadLength = rsp.fieldsSize := by
  unfold Response.wireHead Response.wireUnion Response.payloadLength Response.fieldsSize
  rcases rspType_cases known with type | type | type | type | type
  all_goals simp only [type, rspTypes_differ, if_true, if_false, List.length_append, htonl_length,
    htonll_length, htonlInt, Stat.wire, Dir.wire, List.length_nil, List.length_flatMap,
    Dirent.wire, strWire_length, Nat.add_zero]
  rw [Nat.add_assoc]

theorem Packet.WellFormed.wire_length {pkt : Packet} (wf : pkt.WellFormed) :
    pkt.wire.length = pkt.fieldsSize := by
  rw [Packet.wire, List.length_append, wf.payload_length]
  unfold Packet.wireHead Packet.wireUnion Packet.payloadLength Packet.fieldsSize
  simp only [List.length_append, htonl_length]
  by_cases request : pkt.mpktType = mpktRequestType
  · have sum := pkt.mpktRequest.wireHead_length
    simp only [if_pos request]
    omega
  by_cases response : pkt.mpktType = mpktResponseType
  · have sum := Response.wireHead_length (wf.response response).known
    simp only [if_neg request, if_pos response]
    omega
  simp only [if_neg request, if_neg response]
  split_ifs
  · rw [Connect.wire, List.length_append, htonl_length, strWire_length, Nat.add_zero]
  · rfl

/-! ## Complete packets -/

/-- What the caller of `deserialize_pkt` takes for granted about a packet of
`n` bytes at the front of `buf`. -/
structure Decoded (buf : List UInt8) (n : Nat) (pkt : Packet) : Prop where
  header : 8 ≤ n
  size : n = pkt.fieldsSize
  bytes : buf.take n = pkt.wire
  filled : pkt.HeadFilled
  write : pkt.mpktType = mpktRequestType → reqHasData pkt.mpktRequest.mreqType = true →
    ∃ data, pkt.mpktRequest.mreqData = some data ∧
      data.length = pkt.mpktRequest.mreqSize.toNat ∧ (buf.take n).drop (n - data.length) = data
  data : pkt.mpktType = mpktResponseType → pkt.mpktResponse.mrspType = mrspDataType →
    0 < pkt.mpktResponse.mrspData.mdataNbytes.toNat →
    ∃ data, pkt.mpktResponse.mrspData.mdataBuf = some data ∧
      data.length = pkt.mpktResponse.mrspData.mdataNbytes.toNat ∧
      (buf.take n).drop (n - data.length) = data
  dir : pkt.mpktType = mpktResponseType → pkt.mpktResponse.mrspType = mrspDirType →
    ∃ ents, pkt.mpktResponse.mrspDir.mdirEnts = some ents ∧
      ents.length = pkt.mpktResponse.mrspDir.mdirCount.toNat ∧
      ∀ ent ∈ ents, ent.mdeName.isSome

def DecodesSoundly (buf : List UInt8) : Prop :=
  ∀ n pkt, deserializePkt memory buf zeroPacket 0 = .ok ⟨n, pkt, 0⟩ → n ≤ buf.length →
    Decoded buf n pkt

theorem Packet.payloadLength_lt (pkt : Packet) : pkt.payloadLength < 2 ^ 64 := by
  unfold Packet.payloadLength Request.payloadLength Response.payloadLength
  split_ifs
  · exact pkt.mpktRequest.mreqSize.toNat_lt
  · decide
  · exact pkt.mpktResponse.mrspData.mdataNbytes.toNat_lt
  · decide
  · decide

theorem drop_wireHead {pkt : Packet} {data : List UInt8} (payload : pkt.payload = data) :
    pkt.wire.drop (pkt.wire.length - data.length) = data := by
  have length : pkt.wire.length - data.length = pkt.wireHead.length := by
    rw [Packet.wire, List.length_append, payload]
    omega
  rw [length, Packet.wire, List.drop_left, payload]

theorem ntohl_htonl (v : UInt32) (rest : List UInt8) : ntohl (htonl v ++ rest) = v := by
  have front : (htonl v ++ rest).take 4 = htonl v := by
    rw [← htonl_length v, List.take_left]
  rw [ntohl, front, htonl, BigEndian.ofBytes_toBytes_of_lt (by
    have bound := v.toNat_lt
    omega), UInt32.ofNat_toNat]

theorem Packet.wire_type (w : Packet) (rest : List UInt8) :
    ntohl ((w.wire ++ rest).drop 4) = w.mpktType := by
  have split : w.wire ++ rest =
      htonl w.mpktMagic ++ (htonl w.mpktType ++ (w.wireUnion ++ w.payload ++ rest)) := by
    simp only [Packet.wire, Packet.wireHead, List.append_assoc]
  rw [split, ← htonl_length w.mpktMagic, List.drop_left, ntohl_htonl]

theorem zeroPacket_array {malloc : Nat → Bool} {pkt : Packet} {ts rest : List UInt8}
    (read : (readHead malloc zeroPacket).run ts = .done pkt rest)
    (response : pkt.mpktType = mpktResponseType)
    (isDir : pkt.mpktResponse.mrspType = mrspDirType) :
    pkt.mpktResponse.mrspDir.mdirEnts = some pkt.mpktResponse.mrspDir.entries := by
  obtain ⟨_, _, dir⟩ := readHead_sound read
  obtain ⟨arr, held, ents⟩ := dir response isDir
  have fresh : arr = List.replicate pkt.mpktResponse.mrspDir.mdirCount.toNat {} := by
    simp only [Dir.Grants, direntArray, zeroPacket] at held
    split at held
    · exact (Option.some.inj held).symm
    · cases held
  rw [ents, fresh]
  simp

theorem decoded_of_read {buf rest : List UInt8} {pkt : Packet}
    (read : (readPkt memory zeroPacket).run buf = .done pkt rest) :
    Decoded buf (buf.length - rest.length) pkt := by
  obtain ⟨split, wf⟩ := readPkt_sound read
  obtain ⟨head, mid, headRead, tail⟩ := bind_eq_done.mp read
  obtain ⟨bytes, last, taken, made⟩ := bind_eq_done.mp tail
  have length : buf.length - rest.length = pkt.wire.length := by
    rw [split, List.length_append]
    omega
  have front : buf.take pkt.wire.length = pkt.wire := by rw [split, List.take_left]
  rw [length]
  refine ⟨?_, wf.wire_length, front, wf.head, ?_, ?_, ?_⟩
  · rw [wf.wire_length]
    exact Nat.le_add_right 8 _
  · intro request has
    obtain ⟨data, held, whole⟩ := (wf.request request).data has
    have payload : pkt.payload = data := by
      rw [Packet.payload, if_pos request, Request.payload, if_pos has, held, Option.getD_some]
    exact ⟨data, held, whole, by rw [front, drop_wireHead payload]⟩
  · intro response isData positive
    have nonzero : pkt.mpktResponse.mrspData.mdataNbytes ≠ 0 := by
      intro zero
      rw [zero] at positive
      exact absurd positive (by decide)
    obtain ⟨data, held, whole⟩ := (wf.response response).data isData nonzero
    have payload : pkt.payload = data := by
      rw [Packet.payload, if_neg (by rw [response]; decide), if_pos response, Response.payload,
        if_pos isData, Data.payload, held, Option.getD_some, ← whole, List.take_length]
    exact ⟨data, held, whole, by rw [front, drop_wireHead payload]⟩
  · intro response isDir
    have filled := (wf.response response).dir isDir
    refine ⟨pkt.mpktResponse.mrspDir.entries, ?_, filled.1, filled.2⟩
    cases made
    have dir : (head.withPayload bytes).mpktResponse.mrspDir = head.mpktResponse.mrspDir := by
      unfold Packet.withPayload Response.withPayload
      split_ifs <;> rfl
    have type : (head.withPayload bytes).mpktType = head.mpktType := by
      unfold Packet.withPayload
      split_ifs <;> rfl
    have rspType : (head.withPayload bytes).mpktResponse.mrspType = head.mpktResponse.mrspType := by
      unfold Packet.withPayload Response.withPayload
      split_ifs <;> rfl
    rw [dir]
    exact zeroPacket_array headRead (type.symm.trans response) (rspType.symm.trans isDir)

/-- What is taken for complete was read to its end. -/
theorem readPkt_of_complete {buf : List UInt8} (bound : buf.length < 2 ^ 63)
    (short : ¬ Overlong buf) {n : Nat} {pkt : Packet}
    (answer : deserializePkt memory buf zeroPacket 0 = .ok ⟨n, pkt, 0⟩) (within : n ≤ buf.length) :
    ∃ rest, (readPkt memory zeroPacket).run buf = .done pkt rest ∧ n = buf.length - rest.length := by
  have ready := zeroPacket_ready buf
  cases read : (readHead memory zeroPacket).run buf with
  | need =>
      obtain ⟨s, needs, past, _⟩ := deserializePkt_need memory_small memory_large bound ready read
      rw [answer] at needs
      cases needs
      exact absurd within (Nat.not_le_of_lt past.beyond)
  | refuse why =>
      have refused := deserializePkt_refuse memory_small bound read
      rw [answer] at refused
      cases why with
      | badType => cases refused
      | noMemory =>
          obtain ⟨s, same, err⟩ := refused
          cases same
          exact absurd rfl err
  | done head rest =>
      have settled := deserializePkt_done memory_small bound ready.roomy read
      rw [answer] at settled
      obtain ⟨split, filled, _⟩ := readHead_sound read
      have length : buf.length - rest.length = head.wireHead.length := by
        rw [split, List.length_append]
        omega
      by_cases enough : head.payloadLength ≤ rest.length
      · have whole : (readPkt memory zeroPacket).run buf =
            .done (head.withPayload (rest.take head.payloadLength))
              (rest.drop head.payloadLength) := by
          rw [readPkt, run_bind, read, Res.andThen_done, run_bind, run_take, if_pos enough]
          rfl
        have complete := deserializePkt_complete memory_small bound ready whole
        rw [answer] at complete
        cases complete
        exact ⟨_, whole, rfl⟩
      · rw [settle_of_lt (by omega), length] at settled
        have fits : head.wireHead.length + head.payloadLength < 2 ^ 64 := by
          by_contra large
          exact short ⟨head, rest, split, filled, by omega⟩
        have sum := sizeAdd_of_lt fits
        cases settled
        have total := congrArg List.length split
        rw [List.length_append] at total
        omega

theorem decodesSoundly_of_not_overlong {buf : List UInt8} (bound : buf.length < 2 ^ 63)
    (short : ¬ Overlong buf) : DecodesSoundly buf := by
  intro n pkt answer within
  obtain ⟨rest, read, rfl⟩ := readPkt_of_complete bound short answer within
  exact decoded_of_read read

/-- The payload does not fit in the buffer, but its end, wrapped around, does. -/
theorem Overlong.settles {buf : List UInt8} (long : Overlong buf) (bound : buf.length < 2 ^ 63) :
    ∃ w rest, (readHead memory zeroPacket).run buf = .done w rest ∧
      rest.length < w.payloadLength ∧
      sizeAdd (buf.length - rest.length) w.payloadLength ≤ buf.length := by
  obtain ⟨head, rest, split, filled, wraps⟩ := long
  have total := congrArg List.length split
  rw [List.length_append] at total
  have positive : 0 < head.payloadLength := by omega
  have granted : zeroPacket.Grants memory head := by
    intro response isDir
    have notRequest : head.mpktType ≠ mpktRequestType := by
      rw [response]
      decide
    have notData : head.mpktResponse.mrspType ≠ mrspDataType := by
      rw [isDir]
      decide
    rw [Packet.payloadLength, if_neg notRequest, if_pos response, Response.payloadLength,
      if_neg notData] at positive
    exact absurd positive (Nat.lt_irrefl 0)
  obtain ⟨w, read, bare⟩ := readHead_back filled granted rest
  rw [← split] at read
  have sameLength : w.payloadLength = head.payloadLength := by
    rw [← w.payloadLength_bare, bare, head.payloadLength_bare]
  refine ⟨w, rest, read, by omega, ?_⟩
  have bounded := w.payloadLength_lt
  unfold sizeAdd
  omega

theorem not_decodesSoundly_of_overlong {buf : List UInt8} (bound : buf.length < 2 ^ 63)
    (long : Overlong buf) : ¬ DecodesSoundly buf := by
  intro sound
  obtain ⟨w, rest, read, past, wrapped⟩ := long.settles bound
  have answer := deserializePkt_done memory_small bound (zeroPacket_ready buf).roomy read
  rw [settle_of_lt past] at answer
  have decoded := sound _ _ answer wrapped
  obtain ⟨noData, noBuf, _⟩ := readHead_keeps read
  have positive : 0 < w.payloadLength := by omega
  unfold Packet.payloadLength Request.payloadLength Response.payloadLength at positive
  split_ifs at positive with request has response data
  · obtain ⟨bytes, held, _⟩ := decoded.write request has
    rw [noData] at held
    cases held
  · exact absurd positive (Nat.lt_irrefl 0)
  · obtain ⟨bytes, held, _⟩ := decoded.data response data positive
    rw [noBuf] at held
    cases held
  · exact absurd positive (Nat.lt_irrefl 0)
  · exact absurd positive (Nat.lt_irrefl 0)

theorem Packet.WellFormed.not_overlong {w : Packet} {rest : List UInt8} (wf : w.WellFormed)
    (bound : (w.wire ++ rest).length < 2 ^ 63) : ¬ Overlong (w.wire ++ rest) := by
  rintro ⟨head, rest', split, filled, wraps⟩
  have parts : w.wire ++ rest = w.wireHead ++ (w.payload ++ rest) := by
    rw [Packet.wire, List.append_assoc]
  have free : ∀ pkt : Packet, zeroPacket.Grants (fun _ => true) pkt := fun _ _ _ => ⟨_, rfl⟩
  obtain ⟨q, readQ, bareQ⟩ := readHead_back wf.head (free w) (w.payload ++ rest)
  obtain ⟨r, readR, bareR⟩ := readHead_back filled (free head) rest'
  rw [← parts, split, readR] at readQ
  cases readQ
  have lengths : head.payloadLength = w.payloadLength := by
    rw [← head.payloadLength_bare, ← bareR, bareQ, w.payloadLength_bare]
  rw [split, List.length_append] at bound
  have payload := wf.payload_length
  rw [List.length_append] at bound
  omega

/-- The one way to go wrong: the end of the payload wraps around, and the number
of bytes reported is smaller than the head. -/
theorem decodesSoundly_iff (buf : List UInt8) (bound : buf.length < 2 ^ 63) :
    DecodesSoundly buf ↔ ¬ Overlong buf := by
  constructor
  · intro sound long
    exact not_decodesSoundly_of_overlong bound long sound
  · exact decodesSoundly_of_not_overlong bound

def smallWrite : Packet :=
  { mpktMagic := mpktMagicNumber
    mpktType := mpktRequestType
    mpktRequest :=
      { mreqType := mreqWrite
        mreqRequester := some (strAt [97])
        mreqRsrc := ⟨some (strAt [98]), some (strAt [47, 102])⟩
        mreqSize := 3
        mreqOff := 8192
        mreqData := some [7, 8, 9] } }

theorem smallWrite_wellFormed : smallWrite.WellFormed where
  request := fun _ =>
    { requester := rfl
      rsrc := ⟨rfl, rfl⟩
      target := fun has => absurd has (by decide)
      data := fun _ => ⟨[7, 8, 9], rfl, rfl⟩ }
  response := fun other => absurd other (by decide)
  connect := fun other => absurd other (by decide)

/-- A WRITE of 2 ^ 64 - 31 bytes, with empty strings; its head has 31 bytes. -/
def wrappingWrite : Packet :=
  { mpktMagic := mpktMagicNumber
    mpktType := mpktRequestType
    mpktRequest :=
      { mreqType := mreqWrite
        mreqRequester := some (strAt [])
        mreqRsrc := ⟨some (strAt []), some (strAt [])⟩
        mreqSize := 18446744073709551585 } }

theorem wrappingWrite_overlong : Overlong wrappingWrite.wireHead := by
  refine ⟨wrappingWrite, [], by simp, ?_, by decide⟩
  exact ⟨fun _ => ⟨rfl, ⟨rfl, rfl⟩, fun has => absurd has (by decide)⟩,
    fun other => absurd other (by decide), fun other => absurd other (by decide)⟩

/-- A whole WRITE with the first bytes of another packet behind it, and the head of one whose
length wraps around. -/
theorem decodesSoundly_writes :
    DecodesSoundly (smallWrite.wire ++ [0, 0, 7]) ∧ ¬ DecodesSoundly wrappingWrite.wireHead :=
  ⟨(decodesSoundly_iff _ (by decide)).mpr (smallWrite_wellFormed.not_overlong (by decide)),
    fun sound => (decodesSoundly_iff _ (by decide)).mp sound wrappingWrite_overlong⟩

theorem wrappingWrite_unsound : ¬ DecodesSoundly wrappingWrite.wireHead :=
  not_decodesSoundly_of_overlong (by decide) wrappingWrite_overlong

end Middfs
