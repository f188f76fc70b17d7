import Middfs.Wire.Laws

/-!
# Laws of whole packets

The union members and the payload are added to the laws of `Middfs.Wire.Laws`:
a packet that can be sent is read back whatever the object read into held
before, and every packet read can be sent and prints as the bytes it was read
from.
-/

set_option autoImplicit false

namespace Middfs

open Prefix

/-! ## Heads -/

theorem readRspHead_back {malloc : Nat → Bool} {a v : Response} (filled : v.HeadFilled)
    (granted : a.Grants malloc v) (rest : List UInt8) :
    ∃ w, (readRspHead malloc a).run (v.wireHead ++ rest) = .done w rest ∧ w.bare = v.bare := by
  have type := rspType_fills.back a v (v.wireUnion ++ rest) trivial
  obtain ⟨w, read, same⟩ := readRspUnion_back (a := { a with mrspType := v.mrspType }) filled
    granted rfl rest
  refine ⟨w, ?_, same⟩
  rw [Response.wireHead, List.append_assoc, readRspHead, run_bind, type]
  exact read

theorem readRspHead_sound {malloc : Nat → Bool} {a o : Response} {ts rest : List UInt8}
    (read : (readRspHead malloc a).run ts = .done o rest) :
    ts = o.wireHead ++ rest ∧ o.HeadFilled ∧
      (o.mrspType = mrspDirType → ∃ arr, a.mrspDir.Grants malloc o.mrspDir.mdirCount arr ∧
        o.mrspDir.mdirEnts =
          some (o.mrspDir.entries ++ arr.drop o.mrspDir.mdirCount.toNat)) := by
  obtain ⟨typed, mid, readType, readUnion⟩ := bind_eq_done.mp read
  obtain ⟨splitType, _, kept⟩ := rspType_fills.sound a ts typed mid readType
  obtain ⟨split, filled, same, dir⟩ := readRspUnion_sound readUnion
  have dirKept : typed.mrspDir = a.mrspDir := by rw [kept]
  rw [dirKept] at dir
  refine ⟨?_, filled, dir⟩
  rw [splitType, split, Response.wireHead, same, List.append_assoc]

def Packet.bare (pkt : Packet) : Packet where
  mpktMagic := pkt.mpktMagic
  mpktType := pkt.mpktType
  mpktRequest := if pkt.mpktType = mpktRequestType then pkt.mpktRequest.bare else {}
  mpktResponse := if pkt.mpktType = mpktResponseType then pkt.mpktResponse.bare else {}
  mpktConnect := if pkt.mpktType = mpktConnectType then pkt.mpktConnect else {}

structure Packet.HeadFilled (pkt : Packet) : Prop where
  request : pkt.mpktType = mpktRequestType → pkt.mpktRequest.headFilled
  response : pkt.mpktType = mpktResponseType → pkt.mpktResponse.HeadFilled
  connect : pkt.mpktType = mpktConnectType → pkt.mpktConnect.name.isSome

def Packet.Grants (malloc : Nat → Bool) (a v : Packet) : Prop :=
  v.mpktType = mpktResponseType → a.mpktResponse.Grants malloc v.mpktResponse

theorem Packet.bare_congr {w v : Packet} (magic : w.mpktMagic = v.mpktMagic)
    (type : w.mpktType = v.mpktType)
    (request : v.mpktType = mpktRequestType → w.mpktRequest.bare = v.mpktRequest.bare)
    (response : v.mpktType = mpktResponseType → w.mpktResponse.bare = v.mpktResponse.bare)
    (connect : v.mpktType = mpktConnectType → w.mpktConnect = v.mpktConnect) :
    w.bare = v.bare := by
  simp only [Packet.bare, magic, type, Packet.mk.injEq, true_and]
  refine ⟨?_, ?_, ?_⟩
  · split
    · exact request ‹_›
    · rfl
  · split
    · exact response ‹_›
    · rfl
  · split
    · exact connect ‹_›
    · rfl

theorem pktShared_fills :
    Fills readPktShared (fun pkt => htonl pkt.mpktMagic ++ htonl pkt.mpktType)
      (fun _ => True ∧ True)
      (fun a v => { a with mpktMagic := v.mpktMagic, mpktType := v.mpktType }) :=
  (uint32_codec.fill Packet.mpktMagic _ (fun _ _ => rfl)).seq
    (uint32_codec.fill Packet.mpktType _ (fun _ _ => rfl))
    (fun _ _ => rfl) (fun _ _ => Iff.rfl) (fun _ _ _ => rfl)

theorem readPktUnion_back {malloc : Nat → Bool} {a v : Packet} (filled : v.HeadFilled)
    (granted : a.Grants malloc v) (magic : a.mpktMagic = v.mpktMagic)
    (same : a.mpktType = v.mpktType) (rest : List UInt8) :
    ∃ w, (readPktUnion malloc a).run (v.wireUnion ++ rest) = .done w rest ∧ w.bare = v.bare := by
  unfold readPktUnion Packet.wireUnion
  rw [same]
  by_cases request : v.mpktType = mpktRequestType
  · have read := requestHead_fills.back a.mpktRequest v.mpktRequest rest (filled.request request)
    refine ⟨{ a with mpktRequest := a.mpktRequest.keep v.mpktRequest }, ?_,
      Packet.bare_congr magic same (fun _ => Request.keep_bare _ _) ?_ ?_⟩
    · rw [if_pos request, if_pos request]
      exact fill_eq_done.mpr ⟨_, read, rfl⟩
    all_goals exact fun other => absurd (request.symm.trans other) (by decide)
  rw [if_neg request, if_neg request]
  by_cases response : v.mpktType = mpktResponseType
  · obtain ⟨rsp, read, bare⟩ := readRspHead_back (filled.response response) (granted response) rest
    refine ⟨{ a with mpktResponse := rsp }, ?_,
      Packet.bare_congr magic same (fun other => absurd other request) (fun _ => bare) ?_⟩
    · rw [if_pos response, if_pos response]
      exact fill_eq_done.mpr ⟨_, read, rfl⟩
    · exact fun other => absurd (response.symm.trans other) (by decide)
  rw [if_neg response, if_neg response]
  by_cases connect : v.mpktType = mpktConnectType
  · have read := connect_codec.back a.mpktConnect v.mpktConnect rest (filled.connect connect)
    refine ⟨{ a with mpktConnect := v.mpktConnect }, ?_,
      Packet.bare_congr magic same (fun other => absurd other request)
        (fun other => absurd other response) (fun _ => rfl)⟩
    rw [if_pos connect, if_pos connect]
    exact fill_eq_done.mpr ⟨_, read, rfl⟩
  · refine ⟨a, ?_, Packet.bare_congr magic same (fun other => absurd other request)
      (fun other => absurd other response) (fun other => absurd other connect)⟩
    rw [if_neg connect, if_neg connect]
    rfl

theorem readPktUnion_sound {malloc : Nat → Bool} {a o : Packet} {ts rest : List UInt8}
    (read : (readPktUnion malloc a).run ts = .done o rest) :
    ts = o.wireUnion ++ rest ∧ o.HeadFilled ∧ o.mpktMagic = a.mpktMagic ∧
      o.mpktType = a.mpktType ∧
      (o.mpktType = mpktResponseType → o.mpktResponse.mrspType = mrspDirType →
        ∃ arr, a.mpktResponse.mrspDir.Grants malloc o.mpktResponse.mrspDir.mdirCount arr ∧
          o.mpktResponse.mrspDir.mdirEnts = some (o.mpktResponse.mrspDir.entries ++
            arr.drop o.mpktResponse.mrspDir.mdirCount.toNat)) := by
  unfold readPktUnion at read
  unfold Packet.wireUnion
  split at read
  · rename_i request
    obtain ⟨req, head, rfl⟩ := fill_eq_done.mp read
    obtain ⟨split, filled, _⟩ := requestHead_fills.sound _ _ _ _ head
    refine ⟨?_, ⟨fun _ => filled, ?_, ?_⟩, rfl, rfl, ?_⟩
    · rw [if_pos request, split]
    all_goals exact fun other => absurd (request.symm.trans other) (by decide)
  rename_i request
  split at read
  · rename_i response
    obtain ⟨rsp, head, rfl⟩ := fill_eq_done.mp read
    obtain ⟨split, filled, dir⟩ := readRspHead_sound head
    refine ⟨?_, ⟨fun other => absurd other request, fun _ => filled, ?_⟩, rfl, rfl, fun _ => dir⟩
    · rw [if_neg request, if_pos response, split]
    · exact fun other => absurd (response.symm.trans other) (by decide)
  rename_i response
  split at read
  · rename_i connect
    obtain ⟨conn, head, rfl⟩ := fill_eq_done.mp read
    obtain ⟨split, filled⟩ := connect_codec.sound _ _ _ _ head
    refine ⟨?_, ⟨fun other => absurd other request, fun other => absurd other response,
      fun _ => filled⟩, rfl, rfl, fun other => absurd other response⟩
    rw [if_neg request, if_neg response, if_pos connect, split]
  · rename_i connect
    cases read
    refine ⟨?_, ⟨fun other => absurd other request, fun other => absurd other response,
      fun other => absurd other connect⟩, rfl, rfl, fun other => absurd other response⟩
    rw [if_neg request, if_neg response, if_neg connect, List.nil_append]

theorem readHead_back {malloc : Nat → Bool} {a v : Packet} (filled : v.HeadFilled)
    (granted : a.Grants malloc v) (rest : List UInt8) :
    ∃ w, (readHead malloc a).run (v.wireHead ++ rest) = .done w rest ∧ w.bare = v.bare := by
  have shared := pktShared_fills.back a v (v.wireUnion ++ rest) ⟨trivial, trivial⟩
  obtain ⟨w, read, same⟩ := readPktUnion_back
    (a := { a with mpktMagic := v.mpktMagic, mpktType := v.mpktType }) filled granted rfl rfl rest
  refine ⟨w, ?_, same⟩
  rw [Packet.wireHead, List.append_assoc, readHead, run_bind, shared]
  exact read

theorem readHead_sound {malloc : Nat → Bool} {a o : Packet} {ts rest : List UInt8}
    (read : (readHead malloc a).run ts = .done o rest) :
    ts = o.wireHead ++ rest ∧ o.HeadFilled ∧
      (o.mpktType = mpktResponseType → o.mpktResponse.mrspType = mrspDirType →
        ∃ arr, a.mpktResponse.mrspDir.Grants malloc o.mpktResponse.mrspDir.mdirCount arr ∧
          o.mpktResponse.mrspDir.mdirEnts = some (o.mpktResponse.mrspDir.entries ++
            arr.drop o.mpktResponse.mrspDir.mdirCount.toNat)) := by
  obtain ⟨typed, mid, readShared, readUnion⟩ := bind_eq_done.mp read
  obtain ⟨splitShared, _, kept⟩ := pktShared_fills.sound a ts typed mid readShared
  obtain ⟨split, filled, magic, type, dir⟩ := readPktUnion_sound readUnion
  have dirKept : typed.mpktResponse = a.mpktResponse := by rw [kept]
  rw [dirKept] at dir
  refine ⟨?_, filled, dir⟩
  rw [splitShared, split, Packet.wireHead, magic, type]
  simp only [List.append_assoc]

theorem readHead_data {malloc : Nat → Bool} {a o : Packet} {ts rest : List UInt8}
    (read : (readHead malloc a).run ts = .done o rest) (request : o.mpktType = mpktRequestType) :
    o.mpktRequest.mreqData = a.mpktRequest.mreqData := by
  obtain ⟨typed, mid, readShared, readUnion⟩ := bind_eq_done.mp read
  obtain ⟨_, _, kept⟩ := pktShared_fills.sound a ts typed mid readShared
  have type := (readPktUnion_sound readUnion).2.2.2.1
  rw [readPktUnion, if_pos (type.symm.trans request)] at readUnion
  obtain ⟨req, head, rfl⟩ := fill_eq_done.mp readUnion
  obtain ⟨_, _, keptHead⟩ := requestHead_fills.sound _ _ _ _ head
  have data : req.mreqData = typed.mpktRequest.mreqData := by
    rw [keptHead]
    rfl
  rw [data, kept]

/-! ## Payloads -/

theorem Packet.WellFormed.head {pkt : Packet} (wf : pkt.WellFormed) : pkt.HeadFilled where
  request := fun is =>
    ⟨(wf.request is).requester, (wf.request is).rsrc, (wf.request is).target⟩
  response := fun is => ⟨(wf.response is).known, (wf.response is).dir⟩
  connect := wf.connect

section Request
variable (req : Request)

theorem Request.payloadLength_bare : req.bare.payloadLength = req.payloadLength := by
  have type : req.bare.mreqType = req.mreqType := rfl
  unfold Request.payloadLength
  rw [type]
  by_cases has : reqHasData req.mreqType = true
  · have size : req.bare.mreqSize = req.mreqSize := if_pos (reqHasSize_of_reqHasData has)
    rw [if_pos has, if_pos has, size]
  · rw [if_neg has, if_neg has]

theorem Request.live_withPayload (bytes : List UInt8) :
    (req.withPayload bytes).live =
      if reqHasData req.bare.mreqType then { req.bare with mreqData := some bytes }
      else req.bare := by
  have type : req.bare.mreqType = req.mreqType := rfl
  rw [type, Request.withPayload]
  by_cases has : reqHasData req.mreqType = true
  · rw [if_pos has, if_pos has]
    simp only [Request.live, Request.bare, has, if_true]
  · rw [if_neg has, if_neg has]
    simp only [Request.live, Request.bare, has, Bool.false_eq_true, if_false]

end Request

section Response
variable (rsp : Response)

theorem Response.bare_type : rsp.bare.mrspType = rsp.mrspType := by
  simp only [Response.bare, Response.live]
  split_ifs <;> rfl

theorem Response.bare_data (data : rsp.mrspType = mrspDataType) :
    rsp.bare = { mrspType := rsp.mrspType, mrspData := { mdataNbytes := rsp.mrspData.mdataNbytes } } := by
  simp only [Response.bare, Response.live, data, if_true, Option.map_none, ite_self]

theorem Response.payloadLength_bare : rsp.bare.payloadLength = rsp.payloadLength := by
  unfold Response.payloadLength
  rw [rsp.bare_type]
  by_cases data : rsp.mrspType = mrspDataType
  · rw [if_pos data, if_pos data, rsp.bare_data data]
  · rw [if_neg data, if_neg data]

theorem Response.live_withPayload (bytes : List UInt8) :
    (rsp.withPayload bytes).live =
      if rsp.bare.mrspType = mrspDataType ∧ rsp.bare.mrspData.mdataNbytes ≠ 0 then
        { rsp.bare with
          mrspData := { rsp.bare.mrspData with
            mdataBuf := some (bytes.take rsp.bare.mrspData.mdataNbytes.toNat) } }
      else rsp.bare := by
  rw [rsp.bare_type, Response.withPayload]
  by_cases data : rsp.mrspType = mrspDataType
  · rw [rsp.bare_data data, if_pos data, Data.withPayload]
    by_cases zero : rsp.mrspData.mdataNbytes = 0
    · simp only [Response.live, data, zero, if_true, ne_eq, not_true_eq_false, and_false, if_false]
    · simp only [Response.live, data, zero, if_true, if_false, ne_eq, not_false_eq_true, and_self,
        Option.map_some]
  · rw [if_neg data, if_neg (fun both => data both.1)]
    simp only [Response.bare, Response.live, if_neg data]

end Response

section Packet
variable {v w : Packet}

theorem Packet.payloadLength_bare (pkt : Packet) : pkt.bare.payloadLength = pkt.payloadLength := by
  simp only [Packet.payloadLength, Packet.bare]
  split_ifs
  · exact pkt.mpktRequest.payloadLength_bare
  · exact pkt.mpktResponse.payloadLength_bare
  · rfl

theorem Packet.live_withPayload (pkt : Packet) (bytes : List UInt8) :
    (pkt.withPayload bytes).live =
      { mpktMagic := pkt.mpktMagic
        mpktType := pkt.mpktType
        mpktRequest :=
          if pkt.mpktType = mpktRequestType then (pkt.mpktRequest.withPayload bytes).live else {}
        mpktResponse :=
          if pkt.mpktType = mpktResponseType then (pkt.mpktResponse.withPayload bytes).live
          else {}
        mpktConnect := if pkt.mpktType = mpktConnectType then pkt.mpktConnect else {} } := by
  simp only [Packet.withPayload]
  by_cases request : pkt.mpktType = mpktRequestType
  · have notResponse : pkt.mpktType ≠ mpktResponseType := by
      rw [request]
      decide
    simp only [if_pos request, Packet.live, if_neg notResponse]
  · by_cases response : pkt.mpktType = mpktResponseType
    · simp only [if_neg request, if_pos response, Packet.live]
    · simp only [if_neg request, if_neg response, Packet.live]

theorem Packet.live_withPayload_congr (same : w.bare = v.bare) (bytes : List UInt8) :
    (w.withPayload bytes).live = (v.withPayload bytes).live := by
  simp only [Packet.bare, Packet.mk.injEq] at same
  obtain ⟨magic, type, request, response, connect⟩ := same
  rw [type] at request response connect
  simp only [Packet.live_withPayload, magic, connect, type, Packet.mk.injEq, true_and, and_true]
  constructor
  · split
    · rename_i is
      rw [if_pos is, if_pos is] at request
      rw [Request.live_withPayload, Request.live_withPayload, request]
    · rfl
  · split
    · rename_i is
      rw [if_pos is, if_pos is] at response
      rw [Response.live_withPayload, Response.live_withPayload, response]
    · rfl

theorem Request.WellFormed.payload_length {req : Request} (wf : req.WellFormed) :
    req.payload.length = req.payloadLength := by
  unfold Request.payload Request.payloadLength
  by_cases has : reqHasData req.mreqType = true
  · obtain ⟨bytes, held, whole⟩ := wf.data has
    rw [if_pos has, if_pos has, held]
    exact whole
  · rw [if_neg has, if_neg has]
    rfl

theorem Request.WellFormed.live_payload {req : Request} (wf : req.WellFormed) :
    (req.withPayload req.payload).live = req.live := by
  unfold Request.withPayload Request.payload
  by_cases has : reqHasData req.mreqType = true
  · obtain ⟨bytes, held, _⟩ := wf.data has
    rw [if_pos has, if_pos has, held]
    simp only [Request.live, Option.getD_some, held]
  · rw [if_neg has]

theorem Response.WellFormed.payload_length {rsp : Response} (wf : rsp.WellFormed) :
    rsp.payload.length = rsp.payloadLength := by
  unfold Response.payload Response.payloadLength
  by_cases data : rsp.mrspType = mrspDataType
  · rw [if_pos data, if_pos data, Data.payload]
    by_cases zero : rsp.mrspData.mdataNbytes = 0
    · rw [zero]
      rfl
    · obtain ⟨bytes, held, whole⟩ := wf.data data zero
      rw [held, Option.getD_some, List.length_take_of_le (by omega)]
  · rw [if_neg data, if_neg data]
    rfl

theorem Response.WellFormed.live_payload {rsp : Response} (wf : rsp.WellFormed) :
    (rsp.withPayload rsp.payload).live = rsp.live := by
  unfold Response.withPayload Response.payload
  by_cases data : rsp.mrspType = mrspDataType
  · rw [if_pos data, if_pos data, Data.withPayload, Data.payload]
    by_cases zero : rsp.mrspData.mdataNbytes = 0
    · rw [if_pos zero]
    · obtain ⟨bytes, held, whole⟩ := wf.data data zero
      simp only [if_neg zero, held, Option.getD_some, Response.live, data, if_true, Option.map_some,
        List.take_take, Nat.min_self]
  · rw [if_neg data]

theorem Packet.WellFormed.payload_length (wf : v.WellFormed) :
    v.payload.length = v.payloadLength := by
  simp only [Packet.payload, Packet.payloadLength]
  split_ifs
  · exact (wf.request ‹_›).payload_length
  · exact (wf.response ‹_›).payload_length
  · rfl

theorem Packet.WellFormed.live_payload (wf : v.WellFormed) :
    (v.withPayload v.payload).live = v.live := by
  simp only [Packet.withPayload, Packet.payload]
  split_ifs
  · rename_i request
    simp only [Packet.live, request, if_true, (wf.request request).live_payload]
  · rename_i notRequest response
    simp only [Packet.live, response, if_true, (wf.response response).live_payload]
  · rfl

/-! ## Whole packets -/

theorem readPkt_back {malloc : Nat → Bool} {a : Packet} (wf : v.WellFormed)
    (granted : a.Grants malloc v) (rest : List UInt8) :
    ∃ w, (readPkt malloc a).run (v.wire ++ rest) = .done w rest ∧ w.live = v.live := by
  obtain ⟨o, head, same⟩ := readHead_back wf.head granted (v.payload ++ rest)
  have length : o.payloadLength = v.payload.length := by
    rw [← o.payloadLength_bare, same, v.payloadLength_bare, wf.payload_length]
  refine ⟨o.withPayload v.payload, ?_, ?_⟩
  · rw [readPkt, run_bind, Packet.wire, List.append_assoc, head, Res.andThen_done, run_bind, length,
      run_take_append]
    rfl
  · rw [Packet.live_withPayload_congr same, wf.live_payload]

theorem Request.payload_withPayload {req : Request} {bytes : List UInt8}
    (length : bytes.length = req.payloadLength) : (req.withPayload bytes).payload = bytes := by
  unfold Request.payloadLength at length
  unfold Request.withPayload Request.payload
  by_cases has : reqHasData req.mreqType = true
  · simp only [has, if_true, Option.getD_some]
  · rw [if_neg has] at length
    simp only [has, if_false, Bool.false_eq_true]
    exact (List.length_eq_zero_iff.mp length).symm

theorem Response.payload_withPayload {rsp : Response} {bytes : List UInt8}
    (length : bytes.length = rsp.payloadLength) : (rsp.withPayload bytes).payload = bytes := by
  unfold Response.payloadLength at length
  unfold Response.withPayload Response.payload
  by_cases data : rsp.mrspType = mrspDataType
  · rw [if_pos data] at length
    simp only [data, if_true, Data.withPayload, Data.payload]
    by_cases zero : rsp.mrspData.mdataNbytes = 0
    · rw [zero] at length
      simp only [zero, if_true]
      exact (List.length_eq_zero_iff.mp length).symm
    · simp only [if_neg zero, Option.getD_some]
      exact List.take_of_length_le (by omega)
  · rw [if_neg data] at length
    simp only [if_neg data]
    exact (List.length_eq_zero_iff.mp length).symm

theorem Packet.payload_withPayload {pkt : Packet} {bytes : List UInt8}
    (length : bytes.length = pkt.payloadLength) : (pkt.withPayload bytes).payload = bytes := by
  unfold Packet.payloadLength at length
  unfold Packet.withPayload Packet.payload
  split_ifs at length ⊢ with request response
  · exact Request.payload_withPayload length
  · exact Response.payload_withPayload length
  · exact (List.length_eq_zero_iff.mp length).symm

theorem Response.wireHead_withPayload (rsp : Response) (bytes : List UInt8) :
    (rsp.withPayload bytes).wireHead = rsp.wireHead := by
  unfold Response.withPayload Data.withPayload
  split_ifs <;> rfl

theorem Packet.wireHead_withPayload (pkt : Packet) (bytes : List UInt8) :
    (pkt.withPayload bytes).wireHead = pkt.wireHead := by
  unfold Packet.withPayload
  split_ifs with request response
  · have same : (pkt.mpktRequest.withPayload bytes).wireHead = pkt.mpktRequest.wireHead := by
      unfold Request.withPayload
      split_ifs <;> rfl
    simp only [Packet.wireHead, Packet.wireUnion, if_pos request, same]
  · simp only [Packet.wireHead, Packet.wireUnion, if_neg request, if_pos response,
      Response.wireHead_withPayload]
  · rfl

theorem Request.wellFormed_withPayload {req : Request} {bytes : List UInt8}
    (filled : req.headFilled) (length : bytes.length = req.payloadLength) :
    (req.withPayload bytes).WellFormed := by
  unfold Request.payloadLength at length
  unfold Request.withPayload
  by_cases has : reqHasData req.mreqType = true
  · rw [if_pos has] at length ⊢
    exact ⟨filled.1, filled.2.1, filled.2.2, fun _ => ⟨bytes, rfl, length⟩⟩
  · rw [if_neg has]
    exact ⟨filled.1, filled.2.1, filled.2.2, fun other => absurd other has⟩

theorem Response.wellFormed_withPayload {rsp : Response} {bytes : List UInt8}
    (filled : rsp.HeadFilled) (length : bytes.length = rsp.payloadLength) :
    (rsp.withPayload bytes).WellFormed := by
  unfold Response.payloadLength at length
  unfold Response.withPayload
  by_cases data : rsp.mrspType = mrspDataType
  · rw [if_pos data] at length ⊢
    refine ⟨filled.known, fun _ some => ⟨bytes, ?_, ?_⟩, filled.dir⟩
    · have nonzero : rsp.mrspData.mdataNbytes ≠ 0 := by
        intro zero
        simp only [Data.withPayload, zero, if_true] at some
        exact some rfl
      simp only [Data.withPayload, if_neg nonzero]
    · unfold Data.withPayload
      split_ifs <;> exact length
  · rw [if_neg data]
    exact ⟨filled.known, fun other => absurd other data, filled.dir⟩

theorem Packet.wellFormed_withPayload {pkt : Packet} {bytes : List UInt8}
    (filled : pkt.HeadFilled) (length : bytes.length = pkt.payloadLength) :
    (pkt.withPayload bytes).WellFormed := by
  unfold Packet.payloadLength at length
  unfold Packet.withPayload
  split_ifs at length ⊢ with request response
  · exact ⟨fun _ => Request.wellFormed_withPayload (filled.request request) length,
      fun other => absurd (request.symm.trans other) (by decide), filled.connect⟩
  · exact ⟨fun other => absurd other request,
      fun _ => Response.wellFormed_withPayload (filled.response response) length, filled.connect⟩
  · exact ⟨fun other => absurd other request, fun other => absurd other response, filled.connect⟩

theorem readPkt_sound {malloc : Nat → Bool} {a o : Packet} {ts rest : List UInt8}
    (read : (readPkt malloc a).run ts = .done o rest) : ts = o.wire ++ rest ∧ o.WellFormed := by
  obtain ⟨head, mid, readHead, tail⟩ := bind_eq_done.mp read
  obtain ⟨bytes, last, taken, made⟩ := bind_eq_done.mp tail
  cases made
  obtain ⟨split, length⟩ := take_eq_done.mp taken
  obtain ⟨splitHead, filled, _⟩ := readHead_sound readHead
  refine ⟨?_, Packet.wellFormed_withPayload filled length⟩
  rw [splitHead, split, Packet.wire, Packet.wireHead_withPayload, Packet.payload_withPayload length,
    List.append_assoc]

end Packet
end Middfs
