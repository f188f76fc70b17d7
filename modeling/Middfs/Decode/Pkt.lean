import Middfs.Decode.Payload

/-!
# Decoding packets

`deserializePkt` on a buffer agrees with the wire format: it fills in the
object the reader gives and settles the payload, or asks for more bytes than
there are, or refuses.  The one thing it relies on is that an array left in
`mdir_ents` by an earlier attempt is large enough for the count on the wire.
-/

set_option autoImplicit false

namespace Middfs

open Prefix

/-- The array of an earlier attempt has room for the entries announced. -/
def Roomy (buf : List UInt8) (dir : Dir) : Prop :=
  ∀ ents, dir.mdirEnts = some ents → ents.length * sizeofDirent < 2 ^ 63 ∧
    ∃ count rest, (readUint64 0).run buf = .done count rest ∧ count.toNat ≤ ents.length

theorem Roomy.grow {buf : List UInt8} {dir dir' : Dir} (roomy : Roomy buf dir)
    (same : dir'.mdirEnts = dir.mdirEnts) (more : List UInt8) : Roomy (buf ++ more) dir' := by
  intro ents held
  obtain ⟨small, count, rest, read, room⟩ := roomy ents (same ▸ held)
  exact ⟨small, count, rest ++ more, (readUint64 0).grow_done buf more count rest read, room⟩

theorem Roomy.grow_drop {k : Nat} {buf : List UInt8} {dir dir' : Dir}
    (roomy : Roomy (buf.drop k) dir) (same : dir'.mdirEnts = dir.mdirEnts) (more : List UInt8) :
    Roomy ((buf ++ more).drop k) dir' := by
  rw [List.drop_append]
  exact roomy.grow same (more.drop (k - buf.length))

section Malloc
variable {malloc : Nat → Bool} (small : ∀ n, n < 2 ^ 63 → malloc n = true)

theorem dirCount_tracks :
    Tracks (fun buf s => s.call buf deserializeUint64 Dir.mdirCount
        (fun v dir => { dir with mdirCount := v }))
      (fill readUint64 Dir.mdirCount (fun v dir => { dir with mdirCount := v })) 8 :=
  Tracks.call deserializeUint64_follows (by decide) Dir.mdirCount
    (fun v dir => { dir with mdirCount := v })

theorem direntArray_room {buf mid : List UInt8} {dir o : Dir} (roomy : Roomy buf dir)
    (read : (fill readUint64 Dir.mdirCount (fun v dir => { dir with mdirCount := v }) dir).run
      buf = .done o mid) {ents : List Dirent} (held : direntArray malloc o = some ents) :
    o.mdirCount.toNat ≤ ents.length ∧
      (ents.length * sizeofDirent < 2 ^ 63 ∨ malloc (ents.length * sizeofDirent) = true) := by
  obtain ⟨v, first, rfl⟩ := fill_eq_done.mp read
  cases kept : dir.mdirEnts with
  | some old =>
      simp only [direntArray, kept, Option.some.injEq] at held
      subst held
      obtain ⟨bounded, count, rest, again, room⟩ := roomy old kept
      have same : Res.done count rest = Res.done (ε := Refusal) v mid := by
        rw [← again, ← first]
        rfl
      cases same
      exact ⟨room, Or.inl bounded⟩
  | none =>
      simp only [direntArray, kept] at held
      split at held
      · rename_i granted
        cases held
        exact ⟨by simp, Or.inr (by simpa using granted)⟩
      · cases held

include small

theorem deserializeDir_done {buf rest : List UInt8} {dir o : Dir} (bound : buf.length < 2 ^ 63)
    (roomy : Roomy buf dir) (read : (readDir malloc dir).run buf = .done o rest) :
    deserializeDir malloc buf dir 0 = .ok ⟨buf.length - rest.length, o, 0⟩ := by
  obtain ⟨counted, mid, readCount, readEnts⟩ := bind_eq_done.mp read
  have first := dirCount_tracks.done buf buf dir counted mid bound ⟨[], rfl⟩ readCount
  have split := (fill readUint64 Dir.mdirCount
    (fun v dir => { dir with mdirCount := v }) dir).suffix buf counted mid readCount
  rw [Nat.sub_self] at first
  simp only [deserializeDir, first]
  rw [if_neg (by simp)]
  cases held : direntArray malloc counted with
  | none => simp [held] at readEnts
  | some ents =>
      have room := (direntArray_room roomy readCount held).1
      simp only [held] at readEnts
      obtain ⟨vs, last, readTimes, built⟩ := bind_eq_done.mp readEnts
      cases built
      simp only [deserializeDirents_done small bound _ split room readTimes]

theorem deserializeDir_need (large : ∀ n, malloc n = true → n < 2 ^ 63) {buf : List UInt8}
    {dir : Dir} (bound : buf.length < 2 ^ 63) (roomy : Roomy buf dir)
    (read : (readDir malloc dir).run buf = .need) :
    ∃ s, deserializeDir malloc buf dir 0 = .ok s ∧ Over buf (2 ^ 62) s ∧
      ∀ more, Roomy (buf ++ more) s.obj := by
  rcases Res.andThen_eq_need read with readCount | ⟨counted, mid, readCount, readEnts⟩
  · have past := dirCount_tracks.need buf buf dir bound ⟨[], rfl⟩ readCount
    rw [Nat.sub_self] at past
    have beyond := past.beyond
    simp only [deserializeDir]
    rw [if_pos (Or.inr beyond)]
    refine ⟨_, rfl, ⟨past.err, beyond, ?_⟩, fun more => roomy.grow rfl more⟩
    have within := past.within
    omega
  · have first := dirCount_tracks.done buf buf dir counted mid bound ⟨[], rfl⟩ readCount
    have split := (fill readUint64 Dir.mdirCount
      (fun v dir => { dir with mdirCount := v }) dir).suffix buf counted mid readCount
    rw [Nat.sub_self] at first
    simp only [deserializeDir, first]
    rw [if_neg (by simp)]
    cases held : direntArray malloc counted with
    | none => simp [held] at readEnts
    | some ents =>
        obtain ⟨room, bounded⟩ := direntArray_room roomy readCount held
        have few : ents.length * 16 < 2 ^ 63 := by
          rcases bounded with bounded | granted
          · exact bounded
          · exact large _ granted
        simp only [held] at readEnts
        have readTimes : (times (readDirent {}) counted.mdirCount.toNat).run mid = .need := by
          rcases Res.andThen_eq_need readEnts with readTimes | ⟨vs, last, _, built⟩
          · exact readTimes
          · cases built
        obtain ⟨s, answer, past⟩ := @deserializeDirents_need _ small buf _ _ _ split room bound
          (by omega) readTimes
        simp only [answer]
        refine ⟨_, rfl, ⟨past.err, past.beyond, ?_⟩, ?_⟩
        · have within := past.within
          simp only
          omega
        · intro more kept held'
          cases held'
          obtain ⟨v, count, rfl⟩ := fill_eq_done.mp readCount
          refine ⟨?_, v, mid ++ more, (readUint64 0).grow_done buf more v mid count, ?_⟩
          · rw [deserializeDirents_length answer]
            exact few
          · rw [deserializeDirents_length answer]
            exact room

theorem deserializeDir_refuse {buf : List UInt8}
    {dir : Dir} {why : Refusal} (bound : buf.length < 2 ^ 63)
    (read : (readDir malloc dir).run buf = .refuse why) :
    why = .noMemory ∧ ∃ s, deserializeDir malloc buf dir 0 = .ok s ∧ s.err ≠ 0 := by
  rcases Res.andThen_eq_refuse read with readCount | ⟨counted, mid, readCount, readEnts⟩
  · exact absurd readCount (dirCount_tracks.total buf dir why)
  · have first := dirCount_tracks.done buf buf dir counted mid bound ⟨[], rfl⟩ readCount
    rw [Nat.sub_self] at first
    simp only [deserializeDir, first]
    rw [if_neg (by simp)]
    cases held : direntArray malloc counted with
    | none =>
        simp only [held, run_refuse, Res.refuse.injEq] at readEnts
        exact ⟨readEnts.symm, _, rfl, by simp⟩
    | some ents =>
        simp only [held] at readEnts
        rcases Res.andThen_eq_refuse readEnts with readTimes | ⟨vs, last, _, built⟩
        · exact absurd readTimes
            (times_ne_refuse _ (fun ts => (deserializeDirent_follows small).total ts {}) _ mid why)
        · cases built

/-! ## Responses -/

omit small in
theorem rspType_tracks :
    Tracks (fun buf s => s.call buf deserializeInt32 Response.typeInt32 Response.setTypeInt32)
      (fill readInt32 Response.typeInt32 Response.setTypeInt32) 4 :=
  Tracks.call deserializeInt32_follows (by decide) Response.typeInt32 Response.setTypeInt32

omit small in
theorem settle_rsp {buf rest : List UInt8} {o : Response} (plain : o.mrspType ≠ mrspDataType) :
    settle buf rest o.payloadLength o Response.withPayload = ⟨buf.length - rest.length, o, 0⟩ := by
  rw [Response.payloadLength, if_neg plain, settle_zero]
  exact if_neg plain

omit small in
theorem tryCall_at {σ α : Type} (f : List UInt8 → α → Int → Except Trap (Cursor α)) (get : σ → α)
    (set : α → σ → σ) {buf mid : List UInt8} (split : ∃ used, buf = used ++ mid) (o : σ) :
    (⟨buf.length - mid.length, o, 0⟩ : Cursor σ).tryCall buf f get set =
      (f mid (get o) 0).map fun r =>
        ⟨sizeAdd (buf.length - mid.length) r.used, set r.obj o, r.err⟩ := by
  simp only [Cursor.tryCall, drop_to_mid split]
  cases f mid (get o) 0 <;> rfl

omit small in
theorem tryCall_settle {σ α : Type} {f : List UInt8 → α → Int → Except Trap (Cursor α)}
    {get : σ → α} {set : α → σ → σ} {buf mid rest : List UInt8} {o : σ} {v : α} {n : Nat}
    {put : List UInt8 → α → α} {put' : List UInt8 → σ → σ} (bound : buf.length < 2 ^ 63)
    (split : ∃ used, buf = used ++ mid) (restLe : rest.length ≤ mid.length)
    (answer : f mid (get o) 0 = .ok (settle mid rest n v put))
    (inside : ∀ bytes, set (put bytes v) o = put' bytes (set v o)) :
    (⟨buf.length - mid.length, o, 0⟩ : Cursor σ).tryCall buf f get set =
      .ok (settle buf rest n (set v o) put') := by
  rw [tryCall_at f get set split, answer, ← settle_shift bound split restLe inside]
  rfl

theorem deserializeRspUnion_done {buf mid rest : List UInt8} {typed o : Response}
    (bound : buf.length < 2 ^ 63) (split : ∃ used, buf = used ++ mid)
    (roomy : Roomy mid typed.mrspDir)
    (read : (readRspUnion malloc typed).run mid = .done o rest) :
    deserializeRspUnion malloc buf ⟨buf.length - mid.length, typed, 0⟩ =
      .ok (settle buf rest o.payloadLength o Response.withPayload) := by
  have midLe := mid_length_le split
  unfold readRspUnion at read
  unfold deserializeRspUnion
  simp only
  split at read
  · rename_i type
    cases read
    rw [if_pos type, settle_rsp (by rw [type]; decide)]
  rename_i notOk
  rw [if_neg notOk]
  split at read
  · rename_i type
    obtain ⟨data, head, rfl⟩ := fill_eq_done.mp read
    have restLe := (readDataHead typed.mrspData).rest_length_le head
    have answer := deserializeData_done small (by omega) head
    rw [if_pos type,
      @call_settle _ _ _ _ _ _ _ _ _ _ _ _ Response.withPayload bound split restLe answer]
    · simp only [Response.payloadLength, if_pos type]
    · intro bytes
      simp only [Response.withPayload, if_pos type]
  rename_i notData
  rw [if_neg notData]
  split at read
  · rename_i type
    have body := (Tracks.call deserializeStat_follows (by decide) Response.mrspStat
      (fun v rsp => { rsp with mrspStat := v })).done buf mid typed o rest bound split read
    obtain ⟨st, _, filled⟩ := fill_eq_done.mp read
    have plain : o.mrspType ≠ mrspDataType := by
      rw [filled]
      exact notData
    rw [if_pos type, settle_rsp plain, body]
  rename_i notStat
  rw [if_neg notStat]
  split at read
  · rename_i type
    obtain ⟨dir, head, filled⟩ := fill_eq_done.mp read
    have restLe := (readDir malloc typed.mrspDir).rest_length_le head
    have plain : o.mrspType ≠ mrspDataType := by
      rw [filled]
      exact notData
    rw [if_pos type, settle_rsp plain, tryCall_at _ _ _ split,
      deserializeDir_done small (by omega) roomy head]
    simp only [Except.map, filled]
    rw [sizeAdd_of_lt (by omega)]
    congr 2
    omega
  rename_i notDir
  rw [if_neg notDir]
  split at read
  · rename_i type
    have body := (Tracks.call deserializeInt32_follows (by decide) Response.mrspError
      (fun v rsp => { rsp with mrspError := v })).done buf mid typed o rest bound split read
    obtain ⟨error, _, filled⟩ := fill_eq_done.mp read
    have plain : o.mrspType ≠ mrspDataType := by
      rw [filled]
      exact notData
    rw [if_pos type, settle_rsp plain, body]
  · cases read

theorem deserializeRspUnion_need (large : ∀ n, malloc n = true → n < 2 ^ 63)
    {buf mid : List UInt8} {typed : Response} (bound : buf.length < 2 ^ 63)
    (split : ∃ used, buf = used ++ mid) (roomy : Roomy mid typed.mrspDir)
    (read : (readRspUnion malloc typed).run mid = .need) :
    ∃ s, deserializeRspUnion malloc buf ⟨buf.length - mid.length, typed, 0⟩ = .ok s ∧
      Over buf (2 ^ 62) s ∧ (∀ more, Roomy (mid ++ more) s.obj.mrspDir) ∧
      s.obj.mrspData.mdataBuf = typed.mrspData.mdataBuf := by
  have midLe := mid_length_le split
  unfold readRspUnion at read
  unfold deserializeRspUnion
  simp only
  split at read
  · cases read
  rename_i notOk
  rw [if_neg notOk]
  split at read
  · rename_i type
    have head := fill_eq_need.mp read
    obtain ⟨past, kept⟩ := @deserializeData_need malloc _ _ (by omega) head
    rw [if_pos type, call_at _ _ _ split]
    exact ⟨_, rfl, (past.call bound (by omega) split _).mono (by omega),
      fun more => roomy.grow rfl more, kept⟩
  rename_i notData
  rw [if_neg notData]
  split at read
  · rename_i type
    have past := (Tracks.call deserializeStat_follows (by decide) Response.mrspStat
      (fun v rsp => { rsp with mrspStat := v })).need buf mid typed bound split read
    rw [if_pos type]
    exact ⟨_, rfl, past.mono (by omega), fun more => roomy.grow rfl more, rfl⟩
  rename_i notStat
  rw [if_neg notStat]
  split at read
  · rename_i type
    have head := fill_eq_need.mp read
    obtain ⟨s, answer, past, kept⟩ := deserializeDir_need small large (by omega) roomy head
    rw [if_pos type, tryCall_at _ _ _ split, answer]
    exact ⟨_, rfl, past.call bound (by omega) split _, kept, rfl⟩
  rename_i notDir
  rw [if_neg notDir]
  split at read
  · rename_i type
    have past := (Tracks.call deserializeInt32_follows (by decide) Response.mrspError
      (fun v rsp => { rsp with mrspError := v })).need buf mid typed bound split read
    rw [if_pos type]
    exact ⟨_, rfl, past.mono (by omega), fun more => roomy.grow rfl more, rfl⟩
  · cases read

/-- An unknown response type brings the process down; a directory too large
sets `*errp`. -/
def Refused {σ : Type} (answer : Except Trap (Cursor σ)) : Refusal → Prop
  | .badType => answer = .error .abort
  | .noMemory => ∃ s, answer = .ok s ∧ s.err ≠ 0

theorem deserializeRspUnion_refuse {buf mid : List UInt8} {typed : Response} {why : Refusal}
    (bound : buf.length < 2 ^ 63) (split : ∃ used, buf = used ++ mid)
    (read : (readRspUnion malloc typed).run mid = .refuse why) :
    Refused (deserializeRspUnion malloc buf ⟨buf.length - mid.length, typed, 0⟩) why := by
  have midLe := mid_length_le split
  unfold readRspUnion at read
  unfold deserializeRspUnion
  simp only
  split at read
  · cases read
  rename_i notOk
  rw [if_neg notOk]
  split at read
  · exact absurd (fill_eq_refuse.mp (fill_eq_refuse.mp read))
      (deserializeUint64_follows.total mid _ why)
  rename_i notData
  rw [if_neg notData]
  split at read
  · exact absurd (fill_eq_refuse.mp read) (deserializeStat_follows.total mid _ why)
  rename_i notStat
  rw [if_neg notStat]
  split at read
  · rename_i type
    obtain ⟨rfl, s, answer, err⟩ :=
      deserializeDir_refuse small (by omega) (fill_eq_refuse.mp read)
    rw [if_pos type, tryCall_at _ _ _ split, answer]
    exact ⟨_, rfl, err⟩
  rename_i notDir
  rw [if_neg notDir]
  split at read
  · exact absurd (fill_eq_refuse.mp read) (deserializeInt32_follows.total mid _ why)
  · rename_i notError
    cases read
    rw [if_neg notError]
    rfl

omit small in
theorem readInt32_rest {int32 v : Int32} {buf mid : List UInt8}
    (read : (readInt32 int32).run buf = .done v mid) : 4 ≤ buf.length ∧ mid = buf.drop 4 := by
  obtain ⟨u, last, first, built⟩ := bind_eq_done.mp read
  obtain ⟨bytes, final, taken, made⟩ := bind_eq_done.mp first
  cases built
  cases made
  rw [run_take] at taken
  split at taken
  · rename_i enough
    cases taken
    exact ⟨enough, rfl⟩
  · cases taken

theorem deserializeRsp_done {buf rest : List UInt8} {rsp o : Response}
    (bound : buf.length < 2 ^ 63) (roomy : Roomy (buf.drop 4) rsp.mrspDir)
    (read : (readRspHead malloc rsp).run buf = .done o rest) :
    deserializeRsp malloc buf rsp 0 =
      .ok (settle buf rest o.payloadLength o Response.withPayload) := by
  obtain ⟨typed, mid, readType, readUnion⟩ := bind_eq_done.mp read
  have first := rspType_tracks.done buf buf rsp typed mid bound ⟨[], rfl⟩ readType
  have split := (fill readInt32 Response.typeInt32 Response.setTypeInt32 rsp).suffix buf typed mid
    readType
  obtain ⟨v, valueRead, rfl⟩ := fill_eq_done.mp readType
  rw [← (readInt32_rest valueRead).2] at roomy
  rw [Nat.sub_self] at first
  simp only [deserializeRsp, first]
  rw [if_neg (by omega)]
  exact deserializeRspUnion_done small bound split roomy readUnion

theorem deserializeRsp_need (large : ∀ n, malloc n = true → n < 2 ^ 63) {buf : List UInt8}
    {rsp : Response} (bound : buf.length < 2 ^ 63) (roomy : Roomy (buf.drop 4) rsp.mrspDir)
    (read : (readRspHead malloc rsp).run buf = .need) :
    ∃ s, deserializeRsp malloc buf rsp 0 = .ok s ∧ Over buf (2 ^ 62) s ∧
      (∀ more, Roomy ((buf ++ more).drop 4) s.obj.mrspDir) ∧
      s.obj.mrspData.mdataBuf = rsp.mrspData.mdataBuf := by
  rcases Res.andThen_eq_need read with readType | ⟨typed, mid, readType, readUnion⟩
  · have past := rspType_tracks.need buf buf rsp bound ⟨[], rfl⟩ readType
    rw [Nat.sub_self] at past
    simp only [deserializeRsp]
    rw [if_pos past.beyond]
    exact ⟨_, rfl, past.mono (by omega), fun more => roomy.grow_drop rfl more, rfl⟩
  · have first := rspType_tracks.done buf buf rsp typed mid bound ⟨[], rfl⟩ readType
    have split := (fill readInt32 Response.typeInt32 Response.setTypeInt32 rsp).suffix buf typed
      mid readType
    obtain ⟨v, valueRead, rfl⟩ := fill_eq_done.mp readType
    obtain ⟨enough, rest⟩ := readInt32_rest valueRead
    rw [← rest] at roomy
    rw [Nat.sub_self] at first
    simp only [deserializeRsp, first]
    rw [if_neg (by omega)]
    obtain ⟨s, answer, past, kept, same⟩ := @deserializeRspUnion_need _ small large _ _
      (Response.setTypeInt32 v rsp) bound split roomy readUnion
    refine ⟨s, answer, past, fun more => ?_, same⟩
    rw [List.drop_append_of_le_length enough, ← rest]
    exact kept more

theorem deserializeRsp_refuse {buf : List UInt8} {rsp : Response} {why : Refusal}
    (bound : buf.length < 2 ^ 63) (read : (readRspHead malloc rsp).run buf = .refuse why) :
    Refused (deserializeRsp malloc buf rsp 0) why := by
  rcases Res.andThen_eq_refuse read with readType | ⟨typed, mid, readType, readUnion⟩
  · exact absurd readType (rspType_tracks.total buf rsp why)
  · have first := rspType_tracks.done buf buf rsp typed mid bound ⟨[], rfl⟩ readType
    have split := (fill readInt32 Response.typeInt32 Response.setTypeInt32 rsp).suffix buf typed
      mid readType
    rw [Nat.sub_self] at first
    simp only [deserializeRsp, first]
    rw [if_neg (by omega)]
    exact deserializeRspUnion_refuse small bound split readUnion

/-! ## Packets -/

omit small in
theorem deserializePktShared_tracks :
    Tracks
      (fun buf s =>
        (s.call buf deserializeUint32 Packet.mpktMagic
          (fun v pkt => { pkt with mpktMagic := v })).call buf deserializeUint32 Packet.mpktType
          (fun v pkt => { pkt with mpktType := v }))
      readPktShared 8 :=
  Tracks.seq
    (Tracks.call deserializeUint32_follows (by decide) Packet.mpktMagic
      (fun v pkt => { pkt with mpktMagic := v }))
    (Tracks.call deserializeUint32_follows (by decide) Packet.mpktType
      (fun v pkt => { pkt with mpktType := v }))
    (by decide)

omit small in
theorem settle_pkt {buf rest : List UInt8} {o : Packet} (notRequest : o.mpktType ≠ mpktRequestType)
    (notResponse : o.mpktType ≠ mpktResponseType) :
    settle buf rest o.payloadLength o Packet.withPayload = ⟨buf.length - rest.length, o, 0⟩ := by
  rw [Packet.payloadLength, if_neg notRequest, if_neg notResponse, settle_zero]
  rw [Packet.withPayload, if_neg notRequest, if_neg notResponse]

theorem readRequestHead_total (req : Request) (ts : List UInt8) (why : Refusal) :
    (readRequestHead req).run ts ≠ .refuse why := by
  intro read
  rcases Res.andThen_eq_refuse read with shared | ⟨o, mid, _, fields⟩
  · exact (deserializeRequestShared_tracks small).total ts req why shared
  · exact (deserializeRequestFields_tracks small o.mreqType).total mid o why fields

theorem deserializePktUnion_done {buf mid rest : List UInt8} {typed o : Packet}
    (bound : buf.length < 2 ^ 63) (split : ∃ used, buf = used ++ mid)
    (roomy : Roomy (mid.drop 4) typed.mpktResponse.mrspDir)
    (read : (readPktUnion malloc typed).run mid = .done o rest) :
    deserializePktUnion malloc buf ⟨buf.length - mid.length, typed, 0⟩ =
      .ok (settle buf rest o.payloadLength o Packet.withPayload) := by
  have midLe := mid_length_le split
  unfold readPktUnion at read
  unfold deserializePktUnion
  simp only
  split at read
  · rename_i type
    obtain ⟨req, head, filled⟩ := fill_eq_done.mp read
    have type' : o.mpktType = mpktRequestType := by
      rw [filled]
      exact type
    have restLe := (readRequestHead typed.mpktRequest).rest_length_le head
    have answer := deserializeRequest_done small (by omega) head
    rw [if_pos type,
      @call_settle _ _ _ _ _ _ _ _ _ _ _ _ Packet.withPayload bound split restLe answer]
    · rw [Packet.payloadLength, if_pos type', filled]
    · intro bytes
      simp only [Packet.withPayload, if_pos type]
  rename_i notRequest
  rw [if_neg notRequest]
  split at read
  · rename_i type
    obtain ⟨rsp, head, filled⟩ := fill_eq_done.mp read
    have type' : o.mpktType = mpktResponseType := by
      rw [filled]
      exact type
    have notRequest' : o.mpktType ≠ mpktRequestType := by
      rw [filled]
      exact notRequest
    have restLe := (readRspHead malloc typed.mpktResponse).rest_length_le head
    have answer := deserializeRsp_done small (by omega) roomy head
    rw [if_pos type,
      @tryCall_settle _ _ _ _ _ _ _ _ _ _ _ _ Packet.withPayload bound split restLe answer]
    · rw [Packet.payloadLength, if_neg notRequest', if_pos type', filled]
    · intro bytes
      simp only [Packet.withPayload, if_neg notRequest, if_pos type]
  rename_i notResponse
  rw [if_neg notResponse]
  split at read
  · rename_i type
    have body := (Tracks.call (deserializeConnect_follows small) (by decide) Packet.mpktConnect
      (fun v pkt => { pkt with mpktConnect := v })).done buf mid typed o rest bound split read
    obtain ⟨conn, _, filled⟩ := fill_eq_done.mp read
    have notRequest' : o.mpktType ≠ mpktRequestType := by
      rw [filled]
      exact notRequest
    have notResponse' : o.mpktType ≠ mpktResponseType := by
      rw [filled]
      exact notResponse
    rw [if_pos type, body, settle_pkt notRequest' notResponse']
  · rename_i notConnect
    cases read
    rw [if_neg notConnect, settle_pkt notRequest notResponse]

theorem deserializePktUnion_need (large : ∀ n, malloc n = true → n < 2 ^ 63)
    {buf mid : List UInt8} {typed : Packet} (bound : buf.length < 2 ^ 63)
    (split : ∃ used, buf = used ++ mid) (roomy : Roomy (mid.drop 4) typed.mpktResponse.mrspDir)
    (read : (readPktUnion malloc typed).run mid = .need) :
    ∃ s, deserializePktUnion malloc buf ⟨buf.length - mid.length, typed, 0⟩ = .ok s ∧
      Over buf (2 ^ 62) s ∧ (∀ more, Roomy ((mid ++ more).drop 4) s.obj.mpktResponse.mrspDir) ∧
      s.obj.mpktRequest.mreqData = typed.mpktRequest.mreqData ∧
      s.obj.mpktResponse.mrspData.mdataBuf = typed.mpktResponse.mrspData.mdataBuf := by
  have midLe := mid_length_le split
  unfold readPktUnion at read
  unfold deserializePktUnion
  simp only
  split at read
  · rename_i type
    obtain ⟨past, kept⟩ := deserializeRequest_need small (by omega) (fill_eq_need.mp read)
    rw [if_pos type, call_at _ _ _ split]
    exact ⟨_, rfl, (past.call bound (by omega) split _).mono (by omega),
      fun more => roomy.grow_drop rfl more, kept, rfl⟩
  rename_i notRequest
  rw [if_neg notRequest]
  split at read
  · rename_i type
    obtain ⟨s, answer, past, kept, same⟩ := deserializeRsp_need small large (by omega) roomy
      (fill_eq_need.mp read)
    rw [if_pos type, tryCall_at _ _ _ split, answer]
    exact ⟨_, rfl, past.call bound (by omega) split _, kept, rfl, same⟩
  rename_i notResponse
  rw [if_neg notResponse]
  split at read
  · rename_i type
    have past := (Tracks.call (deserializeConnect_follows small) (by decide) Packet.mpktConnect
      (fun v pkt => { pkt with mpktConnect := v })).need buf mid typed bound split read
    rw [if_pos type]
    exact ⟨_, rfl, past.mono (by omega), fun more => roomy.grow_drop rfl more, rfl, rfl⟩
  · cases read

theorem deserializePktUnion_refuse {buf mid : List UInt8} {typed : Packet} {why : Refusal}
    (bound : buf.length < 2 ^ 63) (split : ∃ used, buf = used ++ mid)
    (read : (readPktUnion malloc typed).run mid = .refuse why) :
    Refused (deserializePktUnion malloc buf ⟨buf.length - mid.length, typed, 0⟩) why := by
  have midLe := mid_length_le split
  unfold readPktUnion at read
  unfold deserializePktUnion
  simp only
  split at read
  · exact absurd (fill_eq_refuse.mp read) (readRequestHead_total small _ mid why)
  rename_i notRequest
  rw [if_neg notRequest]
  split at read
  · rename_i type
    have refused := deserializeRsp_refuse small (by omega) (fill_eq_refuse.mp read)
    rw [if_pos type, tryCall_at _ _ _ split]
    cases why with
    | badType =>
        rw [show deserializeRsp malloc mid typed.mpktResponse 0 = .error .abort from refused]
        rfl
    | noMemory =>
        obtain ⟨s, answer, err⟩ := refused
        rw [answer]
        exact ⟨_, rfl, err⟩
  rename_i notResponse
  rw [if_neg notResponse]
  split at read
  · exact absurd (fill_eq_refuse.mp read) ((deserializeConnect_follows small).total mid _ why)
  · cases read

/-! ## The whole packet -/

/-- What a packet struct has to satisfy to be decoded into again: nothing is
left in it of a payload, and an array left in it has room. -/
structure Packet.Ready (buf : List UInt8) (pkt : Packet) : Prop where
  roomy : Roomy (buf.drop 12) pkt.mpktResponse.mrspDir
  noData : pkt.mpktRequest.mreqData = none
  noBuf : pkt.mpktResponse.mrspData.mdataBuf = none

omit small in
theorem zeroPacket_ready (buf : List UInt8) : zeroPacket.Ready buf :=
  ⟨fun _ held => (nomatch held), rfl, rfl⟩

omit small in
theorem readUint32_rest {uint v : UInt32} {buf mid : List UInt8}
    (read : (readUint32 uint).run buf = .done v mid) : 4 ≤ buf.length ∧ mid = buf.drop 4 := by
  obtain ⟨bytes, last, taken, made⟩ := bind_eq_done.mp read
  cases made
  rw [run_take] at taken
  split at taken
  · rename_i enough
    cases taken
    exact ⟨enough, rfl⟩
  · cases taken

omit small in
theorem readPktShared_rest {pkt typed : Packet} {buf mid : List UInt8}
    (read : (readPktShared pkt).run buf = .done typed mid) :
    8 ≤ buf.length ∧ mid = buf.drop 8 ∧ typed.mpktResponse = pkt.mpktResponse ∧
      typed.mpktRequest = pkt.mpktRequest := by
  obtain ⟨first, last, readMagic, readType⟩ := bind_eq_done.mp read
  obtain ⟨magic, magicRead, rfl⟩ := fill_eq_done.mp readMagic
  obtain ⟨type, typeRead, rfl⟩ := fill_eq_done.mp readType
  obtain ⟨enoughMagic, rfl⟩ := readUint32_rest magicRead
  obtain ⟨enoughType, rfl⟩ := readUint32_rest typeRead
  rw [List.length_drop] at enoughType
  exact ⟨by omega, by rw [List.drop_drop], rfl, rfl⟩

theorem deserializePkt_done {buf rest : List UInt8} {pkt o : Packet} (bound : buf.length < 2 ^ 63)
    (roomy : Roomy (buf.drop 12) pkt.mpktResponse.mrspDir)
    (read : (readHead malloc pkt).run buf = .done o rest) :
    deserializePkt malloc buf pkt 0 = .ok (settle buf rest o.payloadLength o Packet.withPayload) := by
  obtain ⟨typed, mid, readShared, readUnion⟩ := bind_eq_done.mp read
  have first := deserializePktShared_tracks.done buf buf pkt typed mid bound ⟨[], rfl⟩ readShared
  have split := (readPktShared pkt).suffix buf typed mid readShared
  obtain ⟨enough, dropped, kept, _⟩ := readPktShared_rest readShared
  have left : Roomy (mid.drop 4) typed.mpktResponse.mrspDir := by
    rw [dropped, List.drop_drop, kept]
    exact roomy
  rw [Nat.sub_self] at first
  simp only [deserializePkt, ne_eq, not_true_eq_false, if_false, first]
  rw [if_neg (by simp only [or_false]; omega), deserializePktUnion_done small bound split left readUnion]
  simp only [settle_err, not_true_eq_false, if_false]

theorem deserializePkt_need (large : ∀ n, malloc n = true → n < 2 ^ 63) {buf : List UInt8}
    {pkt : Packet} (bound : buf.length < 2 ^ 63) (ready : pkt.Ready buf)
    (read : (readHead malloc pkt).run buf = .need) :
    ∃ s, deserializePkt malloc buf pkt 0 = .ok s ∧ Over buf (2 ^ 62) s ∧
      ∀ more, s.obj.Ready (buf ++ more) := by
  rcases Res.andThen_eq_need read with readShared | ⟨typed, mid, readShared, readUnion⟩
  · have past := deserializePktShared_tracks.need buf buf pkt bound ⟨[], rfl⟩ readShared
    rw [Nat.sub_self] at past
    simp only [deserializePkt, ne_eq, not_true_eq_false, if_false]
    rw [if_pos (Or.inl past.beyond)]
    exact ⟨_, rfl, past.mono (by omega),
      fun more => ⟨ready.roomy.grow_drop rfl more, ready.noData, ready.noBuf⟩⟩
  · have first := deserializePktShared_tracks.done buf buf pkt typed mid bound ⟨[], rfl⟩ readShared
    have split := (readPktShared pkt).suffix buf typed mid readShared
    obtain ⟨enough, dropped, kept, _⟩ := readPktShared_rest readShared
    have roomy : Roomy (mid.drop 4) typed.mpktResponse.mrspDir := by
      rw [dropped, List.drop_drop, kept]
      exact ready.roomy
    rw [Nat.sub_self] at first
    simp only [deserializePkt, ne_eq, not_true_eq_false, if_false, first]
    rw [if_neg (by simp only [or_false]; omega)]
    obtain ⟨s, answer, past, grown, data, buffer⟩ := deserializePktUnion_need small large bound
      split roomy readUnion
    have typedData : typed.mpktRequest = pkt.mpktRequest := (readPktShared_rest readShared).2.2.2
    have clean : s.err = 0 := past.err
    simp only [answer, clean, not_true_eq_false, if_false]
    refine ⟨s, rfl, past, fun more => ⟨?_, ?_, ?_⟩⟩
    · have later := grown more
      rw [dropped, ← List.drop_append_of_le_length enough, List.drop_drop] at later
      exact later
    · rw [data, typedData, ready.noData]
    · rw [buffer, kept, ready.noBuf]

theorem deserializePkt_refuse {buf : List UInt8} {pkt : Packet} {why : Refusal}
    (bound : buf.length < 2 ^ 63) (read : (readHead malloc pkt).run buf = .refuse why) :
    Refused (deserializePkt malloc buf pkt 0) why := by
  rcases Res.andThen_eq_refuse read with readShared | ⟨typed, mid, readShared, readUnion⟩
  · exact absurd readShared (deserializePktShared_tracks.total buf pkt why)
  · have first := deserializePktShared_tracks.done buf buf pkt typed mid bound ⟨[], rfl⟩ readShared
    have split := (readPktShared pkt).suffix buf typed mid readShared
    have enough := (readPktShared_rest readShared).1
    rw [Nat.sub_self] at first
    simp only [deserializePkt, ne_eq, not_true_eq_false, if_false, first]
    rw [if_neg (by simp only [or_false]; omega)]
    have refused := deserializePktUnion_refuse small bound split readUnion
    cases why with
    | badType =>
        have died : deserializePktUnion malloc buf ⟨buf.length - mid.length, typed, 0⟩ =
          .error .abort := refused
        rw [died]
        rfl
    | noMemory =>
        obtain ⟨s, answer, err⟩ := refused
        rw [answer]
        exact ⟨_, rfl, by simp [err]⟩

end Malloc
end Middfs
