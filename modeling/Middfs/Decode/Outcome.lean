import Middfs.Decode.Pkt
import Middfs.Wire.Pkt

/-!
# What an attempt to decode comes to

The callers of `deserialize_pkt` tell three outcomes apart: `*errp` is set, or
the number of bytes reported is within the buffer, or more bytes are needed.
`outcome` gives this verdict for a byte string in terms of the wire format
alone.  It does not depend on what the packet struct held, and once it is not
`waiting` it does not change when more bytes arrive.
-/

set_option autoImplicit false

namespace Middfs

open Prefix

inductive Verdict where
  | error
  | waiting
  | complete (used : Nat) (pkt : Packet)
  deriving DecidableEq, Repr

/-- How a caller reads the result of `deserialize_pkt` on `buf`; of the packet
only the meaningful fields count. -/
def verdict (buf : List UInt8) (s : Cursor Packet) : Verdict :=
  if s.err ≠ 0 then .error
  else if s.used ≤ buf.length then .complete s.used s.obj.live
  else .waiting

def outcome (malloc : Nat → Bool) (buf : List UInt8) : Verdict :=
  match (readHead malloc zeroPacket).run buf with
  | .need => .waiting
  | .refuse _ => .error
  | .done o rest => verdict buf (settle buf rest o.payloadLength o Packet.withPayload)

/-- A complete head announces a payload so long that its end does not fit in a
`size_t`. -/
def Overlong (buf : List UInt8) : Prop :=
  ∃ head rest, buf = Packet.wireHead head ++ rest ∧ head.HeadFilled ∧
    2 ^ 64 ≤ head.wireHead.length + head.payloadLength

def BadType (buf : List UInt8) : Prop :=
  ∃ magic type rest, buf = htonl magic ++ htonl mpktResponseType ++ htonl type ++ rest ∧
    mrspErrorType < type

def TooBig (malloc : Nat → Bool) (buf : List UInt8) : Prop :=
  ∃ magic count rest, buf = htonl magic ++ htonl mpktResponseType ++ htonl mrspDirType ++
    htonll count ++ rest ∧ malloc (count.toNat * sizeofDirent) = false

section Malloc
variable {malloc : Nat → Bool}

/-! ## Refusals -/

theorem readDir_refuse {dir : Dir} {ts : List UInt8} {why : Refusal}
    (read : (readDir malloc dir).run ts = .refuse why) :
    why = .noMemory ∧ dir.mdirEnts = none ∧ ∃ count rest, ts = htonll count ++ rest ∧
      malloc (count.toNat * sizeofDirent) = false := by
  have total : ∀ us other, (readDirent {}).run us ≠ .refuse other := fun us other =>
    (@deserializeDirent_follows (fun _ => true) (fun _ _ => rfl)).total us {} other
  rcases Res.andThen_eq_refuse read with count | ⟨counted, mid, count, ents⟩
  · exact absurd count (dirCount_tracks.total ts dir why)
  · obtain ⟨v, value, rfl⟩ := fill_eq_done.mp count
    cases held : direntArray malloc { dir with mdirCount := v } with
    | none =>
        simp only [held, run_refuse, Res.refuse.injEq] at ents
        obtain ⟨split, _⟩ := uint64_codec.sound _ ts v mid value
        cases old : dir.mdirEnts with
        | some arr => simp [direntArray, old] at held
        | none =>
            refine ⟨ents.symm, rfl, v, mid, split, ?_⟩
            simpa [direntArray, old] using held
    | some arr =>
        simp only [held] at ents
        rcases Res.andThen_eq_refuse ents with times | ⟨vs, last, _, built⟩
        · exact absurd times (times_ne_refuse _ total _ mid why)
        · cases built

theorem readRspUnion_refuse {rsp : Response} {ts : List UInt8} {why : Refusal}
    (read : (readRspUnion malloc rsp).run ts = .refuse why) :
    (why = .badType ∧ mrspErrorType < rsp.mrspType) ∨
      (why = .noMemory ∧ rsp.mrspType = mrspDirType ∧ rsp.mrspDir.mdirEnts = none ∧
        ∃ count rest, ts = htonll count ++ rest ∧
          malloc (count.toNat * sizeofDirent) = false) := by
  unfold readRspUnion at read
  split_ifs at read with isOk isData isStat isDir isError
  · cases read
  · exact absurd (fill_eq_refuse.mp (fill_eq_refuse.mp read))
      (deserializeUint64_follows.total ts _ why)
  · exact absurd (fill_eq_refuse.mp read) (deserializeStat_follows.total ts _ why)
  · obtain ⟨reason, fresh, large⟩ := readDir_refuse (fill_eq_refuse.mp read)
    exact Or.inr ⟨reason, isDir, fresh, large⟩
  · exact absurd (fill_eq_refuse.mp read) (deserializeInt32_follows.total ts _ why)
  · cases read
    refine Or.inl ⟨rfl, ?_⟩
    by_contra known
    have cases := rspType_cases (UInt32.not_lt.mp known)
    tauto

theorem readHead_refuse {pkt : Packet} {ts : List UInt8} {why : Refusal}
    (read : (readHead malloc pkt).run ts = .refuse why) :
    (why = .badType ∧ BadType ts) ∨
      (why = .noMemory ∧ pkt.mpktResponse.mrspDir.mdirEnts = none ∧ TooBig malloc ts) := by
  have free : ∀ n, n < 2 ^ 63 → (fun _ : Nat => true) n = true := fun _ _ => rfl
  rcases Res.andThen_eq_refuse read with shared | ⟨typed, mid, shared, union⟩
  · exact absurd shared (deserializePktShared_tracks.total ts pkt why)
  obtain ⟨splitShared, _, keptPkt⟩ := pktShared_fills.sound pkt ts typed mid shared
  unfold readPktUnion at union
  split_ifs at union with request response connect
  · exact absurd (fill_eq_refuse.mp union) (readRequestHead_total free _ mid why)
  · rcases Res.andThen_eq_refuse (fill_eq_refuse.mp union) with type | ⟨rsp, last, type, body⟩
    · exact absurd type (rspType_tracks.total mid _ why)
    · obtain ⟨splitType, _, keptRsp⟩ := rspType_fills.sound _ _ _ _ type
      have dirKept : rsp.mrspDir = pkt.mpktResponse.mrspDir := by rw [keptRsp, keptPkt]
      have whole : ts = htonl typed.mpktMagic ++ htonl mpktResponseType ++
          htonl rsp.mrspType ++ last := by
        rw [splitShared, splitType, response]
        simp only [List.append_assoc]
      rcases readRspUnion_refuse body with ⟨reason, unknown⟩ | ⟨reason, isDir, fresh, large⟩
      · exact Or.inl ⟨reason, typed.mpktMagic, rsp.mrspType, last, whole, unknown⟩
      · obtain ⟨count, rest, split, refused⟩ := large
        refine Or.inr ⟨reason, dirKept ▸ fresh, typed.mpktMagic, count, rest, ?_, refused⟩
        rw [whole, isDir, split]
        simp only [List.append_assoc]
  · exact absurd (fill_eq_refuse.mp union) ((deserializeConnect_follows free).total mid _ why)
  · cases union

theorem readHead_response (pkt : Packet) (magic type : UInt32) (rest : List UInt8) :
    (readHead malloc pkt).run (htonl magic ++ htonl mpktResponseType ++ htonl type ++ rest) =
      ((readRspUnion malloc { pkt.mpktResponse with mrspType := type }).run rest).andThen
        fun rsp last => .done { pkt with
          mpktMagic := magic, mpktType := mpktResponseType, mpktResponse := rsp } last := by
  have shared := pktShared_fills.back pkt { mpktMagic := magic, mpktType := mpktResponseType }
    (htonl type ++ rest) ⟨trivial, trivial⟩
  have typed := rspType_fills.back pkt.mpktResponse { mrspType := type } rest trivial
  have read : (readRspHead malloc pkt.mpktResponse).run (htonl type ++ rest) =
      (readRspUnion malloc { pkt.mpktResponse with mrspType := type }).run rest := by
    rw [readRspHead, run_bind, typed, Res.andThen_done]
  simp only [List.append_assoc] at shared ⊢
  rw [readHead, run_bind, shared, Res.andThen_done, readPktUnion]
  rw [if_neg (show ¬ mpktResponseType = mpktRequestType by decide), if_pos rfl, run_fill]
  simp only [read]

/-- The bytes that bring the decoder down are those of a response of unknown
type. -/
theorem readHead_badType {pkt : Packet} {ts : List UInt8} :
    (readHead malloc pkt).run ts = .refuse .badType ↔ BadType ts := by
  constructor
  · intro read
    rcases readHead_refuse read with ⟨_, unknown⟩ | ⟨impossible, _⟩
    · exact unknown
    · cases impossible
  · rintro ⟨magic, type, rest, rfl, unknown⟩
    have above : 4 < type.toNat := unknown
    have unlike : ∀ known : UInt32, known.toNat ≤ 4 → type ≠ known := by
      rintro known small rfl
      omega
    rw [readHead_response, readRspUnion]
    rw [if_neg (unlike mrspOk (by decide)), if_neg (unlike mrspDataType (by decide)),
      if_neg (unlike mrspStatType (by decide)), if_neg (unlike mrspDirType (by decide)),
      if_neg (unlike mrspErrorType (by decide))]
    rfl

theorem readHead_noMemory {pkt : Packet} {ts : List UInt8}
    (fresh : pkt.mpktResponse.mrspDir.mdirEnts = none) (large : TooBig malloc ts) :
    (readHead malloc pkt).run ts = .refuse .noMemory := by
  obtain ⟨magic, count, rest, rfl, refused⟩ := large
  have counted := (uint64_codec.fill Dir.mdirCount (fun v dir => { dir with mdirCount := v }) (fun _ _ => rfl)).back
      pkt.mpktResponse.mrspDir { mdirCount := count } rest trivial
  have none : direntArray malloc { pkt.mpktResponse.mrspDir with mdirCount := count } = none := by
    simp [direntArray, fresh, refused]
  have dir : (readDir malloc pkt.mpktResponse.mrspDir).run (htonll count ++ rest) =
      .refuse .noMemory := by
    rw [readDir, run_bind, counted, Res.andThen_done]
    simp only [none]
    rfl
  have split : htonl magic ++ htonl mpktResponseType ++ htonl mrspDirType ++ htonll count ++ rest =
      htonl magic ++ htonl mpktResponseType ++ htonl mrspDirType ++ (htonll count ++ rest) := by
    simp only [List.append_assoc]
  rw [split, readHead_response, readRspUnion]
  simp only [rspTypes_differ, if_true, if_false, run_fill, dir, Res.andThen_refuse]

/-! ## The verdict -/

theorem verdict_over {buf : List UInt8} {slack : Nat} {s : Cursor Packet} (past : Over buf slack s) :
    verdict buf s = .waiting := by
  rw [verdict, if_neg (by simpa using past.err), if_neg (Nat.not_le_of_lt past.beyond)]

theorem verdict_settle_congr {buf rest : List UInt8} {o q : Packet} (same : q.bare = o.bare)
    (live : q.live = o.live) :
    verdict buf (settle buf rest q.payloadLength q Packet.withPayload) =
      verdict buf (settle buf rest o.payloadLength o Packet.withPayload) := by
  have length : q.payloadLength = o.payloadLength := by
    rw [← q.payloadLength_bare, same, o.payloadLength_bare]
  rw [length]
  unfold settle
  split_ifs with enough
  · simp only [verdict, Packet.live_withPayload_congr same]
  · simp only [verdict, live]

theorem Packet.live_eq_bare {pkt : Packet} (noData : pkt.mpktRequest.mreqData = none)
    (noBuf : pkt.mpktResponse.mrspData.mdataBuf = none) : pkt.live = pkt.bare := by
  have request : pkt.mpktRequest.live = pkt.mpktRequest.bare := by
    simp only [Request.bare, Request.live, noData, ite_self]
  have response : pkt.mpktResponse.live = pkt.mpktResponse.bare := by
    simp only [Response.bare, ← noBuf]
  simp only [Packet.live, Packet.bare, request, response]

theorem deserializePkt_complete (small : ∀ n, n < 2 ^ 63 → malloc n = true) {buf rest : List UInt8}
    {pkt o : Packet} (bound : buf.length < 2 ^ 63) (ready : pkt.Ready buf)
    (read : (readPkt malloc pkt).run buf = .done o rest) :
    deserializePkt malloc buf pkt 0 = .ok ⟨buf.length - rest.length, o, 0⟩ := by
  obtain ⟨head, mid, readHead, tail⟩ := bind_eq_done.mp read
  obtain ⟨bytes, last, taken, made⟩ := bind_eq_done.mp tail
  cases made
  have midLe := (Middfs.readHead malloc pkt).rest_length_le readHead
  rw [deserializePkt_done small bound ready.roomy readHead]
  rw [run_take] at taken
  split at taken
  · rename_i enough
    cases taken
    rw [settle_of_le enough, List.length_drop]
    congr 2
    omega
  · cases taken

/-! ## The object decoded into does not matter -/

theorem readHead_keeps {pkt o : Packet} {ts rest : List UInt8}
    (read : (readHead malloc pkt).run ts = .done o rest) :
    o.mpktRequest.mreqData = pkt.mpktRequest.mreqData ∧
      o.mpktResponse.mrspData.mdataBuf = pkt.mpktResponse.mrspData.mdataBuf ∧
      (0 < o.payloadLength → o.mpktResponse.mrspDir = pkt.mpktResponse.mrspDir) := by
  obtain ⟨typed, mid, shared, union⟩ := bind_eq_done.mp read
  obtain ⟨_, _, kept⟩ := pktShared_fills.sound pkt ts typed mid shared
  have request : typed.mpktRequest = pkt.mpktRequest := by rw [kept]
  have response : typed.mpktResponse = pkt.mpktResponse := by rw [kept]
  rw [← request, ← response]
  unfold readPktUnion at union
  split_ifs at union with isRequest isResponse isConnect
  · obtain ⟨req, head, rfl⟩ := fill_eq_done.mp union
    obtain ⟨_, _, keptReq⟩ := requestHead_fills.sound _ _ _ _ head
    refine ⟨?_, rfl, fun _ => rfl⟩
    rw [keptReq]
    rfl
  · obtain ⟨rsp, head, rfl⟩ := fill_eq_done.mp union
    obtain ⟨rspTyped, last, type, body⟩ := bind_eq_done.mp head
    obtain ⟨_, _, keptRsp⟩ := rspType_fills.sound _ _ _ _ type
    have data : rspTyped.mrspData = typed.mpktResponse.mrspData := by rw [keptRsp]
    have dir : rspTyped.mrspDir = typed.mpktResponse.mrspDir := by rw [keptRsp]
    rw [← data, ← dir]
    unfold readRspUnion at body
    split_ifs at body with isOk isData isStat isDir isError
    · cases body
      exact ⟨rfl, rfl, fun _ => rfl⟩
    · obtain ⟨v, value, rfl⟩ := fill_eq_done.mp body
      obtain ⟨count, _, rfl⟩ := fill_eq_done.mp value
      exact ⟨rfl, rfl, fun _ => rfl⟩
    · obtain ⟨v, _, rfl⟩ := fill_eq_done.mp body
      exact ⟨rfl, rfl, fun _ => rfl⟩
    · obtain ⟨v, _, rfl⟩ := fill_eq_done.mp body
      refine ⟨rfl, rfl, fun positive => ?_⟩
      simp only [Packet.payloadLength, if_neg isRequest, if_pos isResponse, Response.payloadLength,
        if_neg isData, Nat.lt_irrefl] at positive
    · obtain ⟨v, _, rfl⟩ := fill_eq_done.mp body
      exact ⟨rfl, rfl, fun _ => rfl⟩
    · cases body
  · obtain ⟨conn, _, rfl⟩ := fill_eq_done.mp union
    exact ⟨rfl, rfl, fun _ => rfl⟩
  · cases union
    exact ⟨rfl, rfl, fun _ => rfl⟩

theorem htonl_length (v : UInt32) : (htonl v).length = 4 := BigEndian.toBytes_length 4 v.toNat

theorem drop_response (magic type : UInt32) (rest : List UInt8) :
    (htonl magic ++ htonl mpktResponseType ++ htonl type ++ rest).drop 12 = rest := by
  have twelve : (htonl magic ++ htonl mpktResponseType ++ htonl type).length = 12 := by
    simp only [List.length_append, htonl_length]
  rw [← twelve, List.drop_left]

section Small
variable (small : ∀ n, n < 2 ^ 63 → malloc n = true)
include small

/-- An array left by an earlier attempt was no larger than what can be
allocated. -/
theorem Packet.Ready.grants {a b o : Packet} {ts rest : List UInt8} (readyA : a.Ready ts)
    (read : (readHead malloc a).run ts = .done o rest) : b.Grants malloc o := by
  obtain ⟨split, _, dir⟩ := readHead_sound read
  intro isResponse isDir
  obtain ⟨arr, held, _⟩ := dir isResponse isDir
  cases mine : b.mpktResponse.mrspDir.mdirEnts with
  | some ents => exact ⟨ents, by simp [Dir.Grants, direntArray, mine]⟩
  | none =>
      have granted : malloc (o.mpktResponse.mrspDir.mdirCount.toNat * sizeofDirent) = true := by
        cases others : a.mpktResponse.mrspDir.mdirEnts with
        | none =>
            simp only [Dir.Grants, direntArray, others] at held
            by_contra refused
            simp [refused] at held
        | some ents =>
            obtain ⟨bounded, count, last, again, room⟩ := readyA.roomy ents others
            have front : ts = htonl o.mpktMagic ++ htonl mpktResponseType ++ htonl mrspDirType ++
                (htonll o.mpktResponse.mrspDir.mdirCount ++
                  (o.mpktResponse.mrspDir.entries.flatMap Dirent.wire ++ rest)) := by
              rw [split, Packet.wireHead, Packet.wireUnion, isResponse,
                if_neg (show ¬ mpktResponseType = mpktRequestType by decide), if_pos rfl,
                Response.wireHead, Response.wireUnion, isDir]
              simp only [rspTypes_differ, if_true, if_false, Dir.wire, List.append_assoc]
            have value := uint64_codec.back 0 o.mpktResponse.mrspDir.mdirCount
              (o.mpktResponse.mrspDir.entries.flatMap Dirent.wire ++ rest) trivial
            rw [front, drop_response, value] at again
            cases again
            refine small _ (Nat.lt_of_le_of_lt ?_ bounded)
            exact Nat.mul_le_mul_right sizeofDirent room
      exact ⟨_, by simp [Dir.Grants, direntArray, mine, granted]; rfl⟩

theorem readHead_done_alike {a b o : Packet} {ts rest : List UInt8} (readyA : a.Ready ts)
    (read : (readHead malloc a).run ts = .done o rest) :
    ∃ q, (readHead malloc b).run ts = .done q rest ∧ q.bare = o.bare := by
  obtain ⟨split, filled, _⟩ := readHead_sound read
  rw [split]
  exact readHead_back filled (readyA.grants small read) rest

theorem Packet.Ready.refuse_iff {a : Packet} {ts : List UInt8} (ready : a.Ready ts) :
    (readHead malloc a).run ts = .refuse .noMemory ↔ TooBig malloc ts := by
  constructor
  · intro read
    rcases readHead_refuse read with ⟨impossible, _⟩ | ⟨_, _, large⟩
    · cases impossible
    · exact large
  · intro large
    cases old : a.mpktResponse.mrspDir.mdirEnts with
    | none => exact readHead_noMemory old large
    | some ents =>
        obtain ⟨bounded, count, last, read, room⟩ := ready.roomy ents old
        obtain ⟨magic, other, rest, rfl, refused⟩ := large
        have value := uint64_codec.back 0 other rest trivial
        rw [List.append_assoc, drop_response, value] at read
        cases read
        have fits := Nat.mul_le_mul_right sizeofDirent room
        rw [small _ (Nat.lt_of_le_of_lt fits bounded)] at refused
        cases refused

theorem readHead_refuse_alike {a b : Packet} {ts : List UInt8} {why : Refusal}
    (readyA : a.Ready ts) (readyB : b.Ready ts)
    (read : (readHead malloc a).run ts = .refuse why) :
    (readHead malloc b).run ts = .refuse why := by
  cases why with
  | badType => exact readHead_badType.mpr (readHead_badType.mp read)
  | noMemory => exact (readyB.refuse_iff small).mpr ((readyA.refuse_iff small).mp read)

theorem readHead_need_alike {a b : Packet} {ts : List UInt8} (readyA : a.Ready ts)
    (readyB : b.Ready ts) (read : (readHead malloc a).run ts = .need) :
    (readHead malloc b).run ts = .need := by
  cases other : (readHead malloc b).run ts with
  | need => rfl
  | refuse why =>
      rw [readHead_refuse_alike small readyB readyA other] at read
      cases read
  | done o rest =>
      obtain ⟨q, again, _⟩ := readHead_done_alike small (b := a) readyB other
      rw [again] at read
      cases read

/-- What the code answers is the verdict of the wire format, and a struct that
is to be decoded into again stays fit for it. -/
theorem decode_outcome (large : ∀ n, malloc n = true → n < 2 ^ 63) {buf : List UInt8} {pkt : Packet}
    (bound : buf.length < 2 ^ 63) (ready : pkt.Ready buf) (known : ¬ BadType buf) :
    ∃ s, deserializePkt malloc buf pkt 0 = .ok s ∧ verdict buf s = outcome malloc buf ∧
      (verdict buf s = .waiting → ∀ more, s.obj.Ready (buf ++ more)) := by
  cases read : (readHead malloc pkt).run buf with
  | need =>
      obtain ⟨s, answer, past, later⟩ := deserializePkt_need small large bound ready read
      have zero := readHead_need_alike small ready (zeroPacket_ready buf) read
      refine ⟨s, answer, ?_, fun _ => later⟩
      rw [outcome, zero, verdict_over past]
  | refuse why =>
      have zero := readHead_refuse_alike small ready (zeroPacket_ready buf) read
      have refused := deserializePkt_refuse small bound read
      cases why with
      | badType => exact absurd (readHead_badType.mp read) known
      | noMemory =>
          obtain ⟨s, answer, err⟩ := refused
          have failed : verdict buf s = .error := if_pos err
          refine ⟨s, answer, ?_, fun waiting => ?_⟩
          · rw [failed, outcome, zero]
          · rw [failed] at waiting
            cases waiting
  | done o rest =>
      have answer := deserializePkt_done small bound ready.roomy read
      obtain ⟨q, zero, same⟩ := readHead_done_alike small (b := zeroPacket) ready read
      obtain ⟨data, buffer, dir⟩ := readHead_keeps read
      obtain ⟨zeroData, zeroBuf, _⟩ := readHead_keeps zero
      have live : q.live = o.live := by
        rw [Packet.live_eq_bare zeroData zeroBuf, same,
          Packet.live_eq_bare (data.trans ready.noData) (buffer.trans ready.noBuf)]
      refine ⟨_, answer, ?_, ?_⟩
      · simp only [outcome, zero]
        exact (verdict_settle_congr same live).symm
      · intro waiting more
        have restLe := (readHead malloc pkt).rest_length_le read
        by_cases enough : o.payloadLength ≤ rest.length
        · rw [settle_of_le enough, verdict, if_neg (by simp), if_pos (by simp only; omega)] at waiting
          cases waiting
        · rw [settle_of_lt (by omega)]
          have dirKept := dir (by omega)
          exact ⟨ready.roomy.grow_drop (by rw [dirKept]) more, data.trans ready.noData,
            buffer.trans ready.noBuf⟩

end Small

theorem outcome_nil : outcome malloc [] = .waiting := by
  have need : (readHead malloc zeroPacket).run [] = .need := rfl
  rw [outcome, need]

/-! ## More bytes -/

theorem verdict_complete {buf : List UInt8} {s : Cursor Packet} {used : Nat} {pkt : Packet}
    (complete : verdict buf s = .complete used pkt) :
    s.err = 0 ∧ s.used = used ∧ used ≤ buf.length ∧ s.obj.live = pkt := by
  unfold verdict at complete
  split_ifs at complete with failed whole
  cases complete
  exact ⟨not_not.mp failed, rfl, whole, rfl⟩

theorem outcome_used {buf : List UInt8} {used : Nat} {pkt : Packet}
    (complete : outcome malloc buf = .complete used pkt) : used ≤ buf.length := by
  unfold outcome at complete
  split at complete
  · cases complete
  · cases complete
  · exact (verdict_complete complete).2.2.1

/-- A payload that is announced either ends in the buffer, or is so long that
no buffer reaches its end. -/
theorem verdict_settle_grow {buf rest : List UInt8} {o : Packet} (restLe : rest.length ≤ buf.length)
    (more : List UInt8) (bound : (buf ++ more).length < 2 ^ 63)
    (decided : verdict buf (settle buf rest o.payloadLength o Packet.withPayload) ≠ .waiting) :
    verdict (buf ++ more) (settle (buf ++ more) (rest ++ more) o.payloadLength o Packet.withPayload) =
      verdict buf (settle buf rest o.payloadLength o Packet.withPayload) := by
  have sameHead : (buf ++ more).length - (rest ++ more).length = buf.length - rest.length := by
    simp only [List.length_append]
    omega
  rw [List.length_append] at bound
  by_cases enough : o.payloadLength ≤ rest.length
  · have longer : o.payloadLength ≤ (rest ++ more).length := by
      rw [List.length_append]
      omega
    rw [settle_of_le enough, settle_of_le longer, sameHead, List.take_append_of_le_length enough]
    have whole : buf.length - rest.length + o.payloadLength ≤ buf.length := by omega
    have wholeMore : buf.length - rest.length + o.payloadLength ≤ (buf ++ more).length := by
      rw [List.length_append]
      omega
    simp only [verdict, if_pos whole, if_pos wholeMore]
  · have settled := @settle_of_lt _ buf _ _ o Packet.withPayload
      (Nat.lt_of_not_le enough)
    rw [settled] at decided ⊢
    have whole : sizeAdd (buf.length - rest.length) o.payloadLength ≤ buf.length := by
      by_contra short
      exact decided (by simp only [verdict, if_neg short, ne_eq, not_true_eq_false, if_false])
    have wholeMore : sizeAdd (buf.length - rest.length) o.payloadLength ≤ (buf ++ more).length := by
      rw [List.length_append]
      omega
    have past : (rest ++ more).length < o.payloadLength := by
      rw [List.length_append]
      unfold sizeAdd at whole
      omega
    rw [settle_of_lt past, sameHead]
    simp only [verdict, if_pos whole, if_pos wholeMore]

theorem outcome_grow {buf : List UInt8} (more : List UInt8) (bound : (buf ++ more).length < 2 ^ 63)
    (decided : outcome malloc buf ≠ .waiting) :
    outcome malloc (buf ++ more) = outcome malloc buf := by
  unfold outcome at decided ⊢
  cases read : (readHead malloc zeroPacket).run buf with
  | need =>
      rw [read] at decided
      exact absurd rfl decided
  | refuse why => rw [(readHead malloc zeroPacket).grow_refuse buf more why read]
  | done o rest =>
      have restLe := (readHead malloc zeroPacket).rest_length_le read
      simp only [read] at decided
      rw [(readHead malloc zeroPacket).grow_done buf more o rest read]
      exact verdict_settle_grow restLe more bound decided

/-- A type that is not known is not seen before it is there. -/
theorem BadType.grow {buf : List UInt8} (bad : BadType buf) (more : List UInt8) :
    BadType (buf ++ more) := by
  obtain ⟨magic, type, rest, rfl, unknown⟩ := bad
  exact ⟨magic, type, rest ++ more, by rw [List.append_assoc], unknown⟩

end Malloc
end Middfs
