import Middfs.RoundTrip
import Middfs.Layout

/-!
# The number that the encoder returns

The contract at the top of `middfs-serial.c`: a `serialize_*` function returns
the number of bytes that the whole encoding takes, whether they fit or not.
Numbers and raw bytes are counted so, strings are not: `strnlen` stops at the
end of the buffer.  A packet is laid out as the list of its fields, and what is
returned is what counting these fields gives.
-/

set_option autoImplicit false

namespace Middfs

open Layout

def Emit.written (s : Emit) : Nat := (s.writes.map fun write => write.2.length).sum

/-- `f` counts `fields`, if what it needs is there (`ok`), and writes all of them
when there is room; if it is not, `f` does not come back once there is room. -/
structure Sized (f : Serialize) (ok : Prop) (fields : List Field) : Prop where
  counts : ok → ∀ n, counted n 0 fields < 2 ^ 64 →
    ∃ s, f n = .ok s ∧ s.used = counted n 0 fields
  whole : ok → ∀ n, size fields ≤ n →
    ∃ s, f n = .ok s ∧ s.used = size fields % 2 ^ 64 ∧ s.written = size fields
  missing : ¬ ok → ∃ room, ∀ n, room ≤ n → ∃ trap, f n = .error trap

/-- The same of a function body that goes on from a cursor.  The cursor may have
wrapped around. -/
structure SizedStep (g : Nat → Emit → Except Trap Emit) (ok : Prop) (fields : List Field) :
    Prop where
  counts : ok → ∀ n s, counted n s.used fields < 2 ^ 64 →
    ∃ o, g n s = .ok o ∧ o.used = counted n s.used fields
  whole : ok → ∀ n s off, s.used = off % 2 ^ 64 → off + size fields ≤ n →
    ∃ o, g n s = .ok o ∧ o.used = (off + size fields) % 2 ^ 64 ∧
      o.written = s.written + size fields
  missing : ¬ ok → ∃ room, ∀ n s, room ≤ n → s.used < 2 ^ 64 → ∃ trap, g n s = .error trap
  bounded : ∀ n s o, s.used < 2 ^ 64 → g n s = .ok o → o.used < 2 ^ 64

/-! ## Sequencing -/

theorem Emit.call_ok {s r : Emit} {n : Nat} {f : Serialize} (answer : f (n - s.used) = .ok r) :
    s.call n f =
      .ok ⟨sizeAdd s.used r.used, s.writes ++ r.writes.map fun w => (s.used + w.1, w.2)⟩ := by
  simp only [Emit.call, sizerem_eq_sub, answer]
  rfl

theorem Sized.step {f : Serialize} {ok : Prop} {fields : List Field} (sized : Sized f ok fields) :
    SizedStep (fun n s => s.call n f) ok fields where
  counts := by
    intro there n s small
    have shifted := counted_shift n s.used fields
    obtain ⟨r, answer, used⟩ := sized.counts there (n - s.used) (by omega)
    refine ⟨_, Emit.call_ok answer, ?_⟩
    simp only [used, sizeAdd]
    rw [Nat.mod_eq_of_lt (by omega), ← shifted]
  whole := by
    intro there n s off wrapped room
    have le : s.used ≤ off := wrapped ▸ Nat.mod_le off _
    obtain ⟨r, answer, used, written⟩ := sized.whole there (n - s.used) (by omega)
    refine ⟨_, Emit.call_ok answer, ?_, ?_⟩
    · simp only [used, wrapped, sizeAdd, Nat.mod_add_mod, Nat.add_mod_mod]
    · unfold Emit.written at written ⊢
      rw [List.map_append, List.sum_append, List.map_map, ← written]
      rfl
  missing := by
    intro lacks
    obtain ⟨room, fails⟩ := sized.missing lacks
    refine ⟨room + 2 ^ 64, fun n s enough bounded => ?_⟩
    obtain ⟨trap, failed⟩ := fails (n - s.used) (by omega)
    exact ⟨trap, by simp only [Emit.call, sizerem_eq_sub, failed]; rfl⟩
  bounded := fun _ _ _ _ called => (Emit.call_eq_ok called).2

theorem SizedStep.seq {g h : Nat → Emit → Except Trap Emit} {ok ok' : Prop}
    {fields more : List Field} (first : SizedStep g ok fields) (second : SizedStep h ok' more) :
    SizedStep (fun n s => g n s >>= h n) (ok ∧ ok') (fields ++ more) where
  counts := by
    rintro ⟨there, there'⟩ n s small
    rw [counted_append] at small ⊢
    have before := le_counted n (counted n s.used fields) more
    obtain ⟨o, answer, used⟩ := first.counts there n s (by omega)
    rw [← used] at small ⊢
    obtain ⟨o', answer', used'⟩ := second.counts there' n o small
    exact ⟨o', by simp only [answer]; exact answer', used'⟩
  whole := by
    rintro ⟨there, there'⟩ n s off wrapped room
    rw [size_append] at room ⊢
    obtain ⟨o, answer, used, written⟩ := first.whole there n s off wrapped (by omega)
    obtain ⟨o', answer', used', written'⟩ := second.whole there' n o (off + size fields) used (by omega)
    refine ⟨o', by simp only [answer]; exact answer', ?_, ?_⟩
    · rw [used', Nat.add_assoc]
    · rw [written', written, Nat.add_assoc]
  missing := by
    intro lacks
    by_cases there : ok
    · obtain ⟨room, fails⟩ := second.missing fun there' => lacks ⟨there, there'⟩
      refine ⟨room, fun n s enough bounded => ?_⟩
      cases answer : g n s with
      | error trap => exact ⟨trap, rfl⟩
      | ok o => exact fails n o enough (first.bounded n s o bounded answer)
    · obtain ⟨room, fails⟩ := first.missing there
      refine ⟨room, fun n s enough bounded => ?_⟩
      obtain ⟨trap, failed⟩ := fails n s enough bounded
      exact ⟨trap, by simp only [failed]; rfl⟩
  bounded := by
    intro n s o bounded done
    obtain ⟨mid, answer, rest⟩ := bind_eq_ok done
    exact second.bounded n mid o (first.bounded n s mid bounded answer) rest

theorem sizedStep_pure : SizedStep (fun _ s => pure s) True [] where
  counts := fun _ _ s _ => ⟨s, rfl, rfl⟩
  whole := fun _ _ s _ wrapped _ => ⟨s, rfl, wrapped, rfl⟩
  missing := fun lacks => absurd trivial lacks
  bounded := fun _ _ _ bounded same => by
    cases same
    exact bounded

theorem sizedStep_abort : SizedStep (fun _ _ => .error .abort) False [] where
  counts := False.elim
  whole := False.elim
  missing := fun _ => ⟨0, fun _ _ _ _ => ⟨.abort, rfl⟩⟩
  bounded := fun _ _ _ _ no => nomatch no

def fieldsIf (cond : Bool) (fields : List Field) : List Field := if cond then fields else []

theorem Sized.stepIf {f : Serialize} {ok : Prop} {fields : List Field} (sized : Sized f ok fields)
    (cond : Bool) :
    SizedStep (fun n s => s.callIf cond n f) (cond = true → ok) (fieldsIf cond fields) := by
  cases cond with
  | true =>
      have step := sized.step
      exact ⟨fun there => step.counts (there rfl), fun there => step.whole (there rfl),
        fun lacks => step.missing fun there => lacks fun _ => there, step.bounded⟩
  | false =>
      have step := sizedStep_pure
      exact ⟨fun _ => step.counts trivial, fun _ => step.whole trivial,
        fun lacks => absurd (fun no => nomatch no) lacks, step.bounded⟩

theorem SizedStep.body {g : Nat → Emit → Except Trap Emit} {ok : Prop} {fields : List Field}
    (step : SizedStep g ok fields) {f : Serialize} (body : ∀ n, f n = g n Emit.none) :
    Sized f ok fields where
  counts := by
    intro there n small
    rw [body]
    exact step.counts there n Emit.none small
  whole := by
    intro there n room
    rw [body]
    obtain ⟨o, answer, used, written⟩ := step.whole there n Emit.none 0 rfl (by omega)
    rw [Nat.zero_add] at used
    exact ⟨o, answer, used, written.trans (Nat.zero_add _)⟩
  missing := by
    intro lacks
    obtain ⟨room, fails⟩ := step.missing lacks
    refine ⟨room, fun n enough => ?_⟩
    rw [body]
    exact fails n Emit.none enough (by decide)

theorem Sized.congr {f : Serialize} {ok ok' : Prop} {fields : List Field} (sized : Sized f ok fields)
    (same : ok ↔ ok') : Sized f ok' fields := propext same ▸ sized

/-! ## Fields -/

theorem serializeUint32_sized (uint : UInt32) : Sized (serializeUint32 uint) True [.fixed 4] where
  counts := fun _ _ _ => ⟨_, rfl, rfl⟩
  whole := by
    intro _ n room
    refine ⟨_, rfl, rfl, ?_⟩
    have fits : 4 ≤ n := room
    simp only [Emit.written, if_pos fits, List.map_cons, List.map_nil, htonl_length]
    rfl
  missing := fun lacks => absurd trivial lacks

theorem serializeInt32_sized (int32 : Int32) : Sized (serializeInt32 int32) True [.fixed 4] :=
  serializeUint32_sized int32.toUInt32

theorem Sized.join {f : Serialize} {ok : Prop} {a b : Nat} (sized : Sized f ok [.fixed a, .fixed b]) :
    Sized f ok [.fixed (a + b)] := by
  have count : ∀ n, counted n 0 [.fixed (a + b)] = counted n 0 [.fixed a, .fixed b] := fun n => by
    simp only [counted, Field.counted]
    omega
  have whole : size [.fixed (a + b)] = size [.fixed a, .fixed b] := by
    simp only [size_cons, size_nil, Field.size, Nat.add_zero]
  refine ⟨fun there n => ?_, fun there n => ?_, sized.missing⟩
  · rw [count]
    exact sized.counts there n
  · rw [whole]
    exact sized.whole there n

theorem serializeUint64_sized (uint : UInt64) : Sized (serializeUint64 uint) True [.fixed 8] :=
  have halves := ((serializeUint32_sized _).step.seq (serializeUint32_sized _).step).body
    (f := serializeUint64 uint) fun _ => rfl
  (halves.congr (and_self_iff)).join

def strField (str : Option CStr) : Field := .str (str.elim 0 fun s => s.val.length)

theorem serializeStr_sized (str : Option CStr) :
    Sized (serializeStr str) (str.isSome = true) [strField str] := by
  cases str with
  | none =>
      refine ⟨?_, ?_, fun _ => ⟨0, fun _ _ => ⟨.wild, rfl⟩⟩⟩
      · intro no
        cases no
      · intro no
        cases no
  | some s =>
      have least : ∀ n, smin s.val.length n = min s.val.length n := fun n => by
        unfold smin
        split_ifs <;> omega
      refine ⟨?_, ?_, fun lacks => absurd rfl lacks⟩
      · intro _ n small
        refine ⟨_, rfl, ?_⟩
        simp only [strField, Option.elim_some, counted, Field.counted, Nat.sub_zero, Nat.zero_add]
          at small ⊢
        rw [least, sizeAdd_of_lt small]
      · intro _ n room
        have fits : s.val.length < n := room
        refine ⟨_, rfl, ?_, ?_⟩
        · simp only [least, Nat.min_eq_left (Nat.le_of_lt fits)]
          rfl
        · simp only [least, Nat.min_eq_left (Nat.le_of_lt fits), if_pos fits, Emit.written]
          simp [strField, size, Field.size]

theorem serializeRsrc_sized (rsrc : Rsrc) :
    Sized (serializeRsrc rsrc) rsrc.Filled [strField rsrc.mrOwner, strField rsrc.mrPath] :=
  ((serializeStr_sized _).step.seq (serializeStr_sized _).step).body
    (fun _ => by simp [serializeRsrc, serializeStruct])

def BytesThere (src : Option (List UInt8)) (n : Nat) : Prop := n ≤ (src.getD []).length

theorem memcpyFrom_holds {src : Option (List UInt8)} {n : Nat} :
    (BytesThere src n → memcpyFrom src n = .ok ((src.getD []).take n)) ∧
      (¬ BytesThere src n → memcpyFrom src n = .error .wild) := by
  unfold BytesThere memcpyFrom
  by_cases none : n = 0
  · simp [none]
  · rw [if_neg none]
    cases src with
    | none => exact ⟨fun le => absurd (Nat.le_zero.mp le) none, fun _ => rfl⟩
    | some bytes => exact ⟨fun le => if_pos le, fun lt => if_neg lt⟩

theorem serializeRaw_sized (src : Option (List UInt8)) (size : UInt64) :
    Sized (serializeRaw src size.toNat) (BytesThere src size.toNat) [.fixed size.toNat] := by
  have small := size.toNat_lt
  generalize size.toNat = k at small ⊢
  have count : ∀ n, counted n 0 [.fixed k] = k := fun n => Nat.zero_add k
  have whole : Layout.size [.fixed k] = k := Nat.add_zero k
  refine ⟨?_, ?_, ?_⟩
  · intro holds n _
    rw [count, serializeRaw, memcpyFrom_holds.1 holds]
    split_ifs <;> exact ⟨_, rfl, rfl⟩
  · intro holds n room
    rw [whole] at room ⊢
    rw [serializeRaw, if_pos room, memcpyFrom_holds.1 holds, Nat.mod_eq_of_lt small]
    refine ⟨_, rfl, rfl, ?_⟩
    by_cases none : k = 0
    · simp [Emit.written, none]
    · simp only [Emit.written, if_neg none, List.map_cons, List.map_nil, List.sum_cons,
        List.sum_nil, Nat.add_zero]
      exact List.length_take_of_le holds
  · intro lacks
    refine ⟨k, fun n room => ⟨.wild, ?_⟩⟩
    rw [serializeRaw, if_pos room, memcpyFrom_holds.2 lacks]
    rfl

/-! ## Requests -/

def Request.Encodable (req : Request) : Prop :=
  req.mreqRequester.isSome = true ∧ req.mreqRsrc.Filled ∧
    (reqHasTo req.mreqType = true → req.mreqTo.Filled) ∧
    (reqHasData req.mreqType = true → BytesThere req.mreqData req.mreqSize.toNat)

def Request.fields (req : Request) : List Field :=
  [.fixed 4] ++ [strField req.mreqRequester] ++
    [strField req.mreqRsrc.mrOwner, strField req.mreqRsrc.mrPath] ++
    fieldsIf (reqHasMode req.mreqType) [.fixed 4] ++
    fieldsIf (reqHasSize req.mreqType) [.fixed 8] ++
    fieldsIf (reqHasTo req.mreqType) [strField req.mreqTo.mrOwner, strField req.mreqTo.mrPath] ++
    fieldsIf (reqHasOff req.mreqType) [.fixed 8] ++
    fieldsIf (reqHasData req.mreqType) [.fixed req.mreqSize.toNat]

theorem serializeRequest_sized (req : Request) :
    Sized (serializeRequest req) req.Encodable req.fields := by
  have fixed := ((serializeUint32_sized req.mreqType).step.seq
    (serializeStr_sized req.mreqRequester).step).seq (serializeRsrc_sized req.mreqRsrc).step
  have mode := (serializeInt32_sized req.mreqMode).stepIf (reqHasMode req.mreqType)
  have size := (serializeUint64_sized (viaInt32 req.mreqSize)).stepIf (reqHasSize req.mreqType)
  have target := (serializeRsrc_sized req.mreqTo).stepIf (reqHasTo req.mreqType)
  have off := (serializeUint64_sized (viaInt32 req.mreqOff)).stepIf (reqHasOff req.mreqType)
  have data := (serializeRaw_sized req.mreqData req.mreqSize).stepIf (reqHasData req.mreqType)
  have whole := ((((fixed.seq mode).seq size).seq target).seq off).seq data
  refine Sized.congr (whole.body fun n => by simp only [serializeRequest, bind_assoc]) ?_
  unfold Request.Encodable
  tauto

/-! ## Responses -/

theorem serializeStat_sized (st : Stat) :
    Sized (serializeStat st) True [.fixed 4, .fixed 8, .fixed 8, .fixed 8] :=
  ((((serializeUint32_sized st.mstatMode).step.seq (serializeUint64_sized st.mstatSize).step).seq
    (serializeUint64_sized st.mstatBlocks).step).seq (serializeUint64_sized st.mstatBlksize).step).body
    (fun n => by simp only [serializeStat, bind_assoc]) |>.congr (by tauto)

theorem serializeData_sized (data : Data) :
    Sized (serializeData data) (BytesThere data.mdataBuf data.mdataNbytes.toNat)
      [.fixed 8, .fixed data.mdataNbytes.toNat] :=
  ((serializeUint64_sized _).step.seq (serializeRaw_sized _ _).step).body (fun _ => rfl)
    |>.congr (by tauto)

def Dirent.fields (ent : Dirent) : List Field := [strField ent.mdeName, .fixed 4]

theorem serializeDirent_sized (ent : Dirent) :
    Sized (serializeDirent ent) (ent.mdeName.isSome = true) ent.fields :=
  ((serializeStr_sized _).step.seq (serializeInt32_sized _).step).body (fun _ => rfl)
    |>.congr (by tauto)

theorem serializeDirents_sized (count : Nat) (ents : List Dirent) :
    SizedStep (fun n s => serializeDirents n count ents s)
      ((ents.take count).length = count ∧ ∀ ent ∈ ents.take count, ent.mdeName.isSome = true)
      ((ents.take count).flatMap Dirent.fields) := by
  induction count generalizing ents with
  | zero =>
      have step := sizedStep_pure
      exact ⟨fun _ => step.counts trivial, fun _ => step.whole trivial,
        fun lacks => absurd (by simp) lacks, step.bounded⟩
  | succ count ih =>
      cases ents with
      | nil =>
          refine ⟨fun there => absurd there.1 (by simp), fun there => absurd there.1 (by simp),
            fun _ => ⟨0, fun _ _ _ _ => ⟨.wild, rfl⟩⟩, fun _ _ _ _ no => nomatch no⟩
      | cons ent ents =>
          have both := (serializeDirent_sized ent).step.seq (ih ents)
          have same : (ent.mdeName.isSome = true ∧ (ents.take count).length = count ∧
              ∀ other ∈ ents.take count, other.mdeName.isSome = true) ↔
              (((ent :: ents).take (count + 1)).length = count + 1 ∧
                ∀ other ∈ (ent :: ents).take (count + 1), other.mdeName.isSome = true) := by
            rw [List.take_succ_cons, List.length_cons, List.forall_mem_cons, Nat.succ_inj]
            tauto
          rw [← propext same]
          exact both

def Dir.fields (dir : Dir) : List Field := .fixed 8 :: dir.entries.flatMap Dirent.fields

theorem serializeDir_sized (dir : Dir) : Sized (serializeDir dir) dir.Filled dir.fields :=
  ((serializeUint64_sized _).step.seq (serializeDirents_sized _ _)).body (fun _ => rfl)
    |>.congr (by unfold Dir.Filled Dir.entries; tauto)

def Response.Encodable (rsp : Response) : Prop :=
  rsp.mrspType ≤ mrspErrorType ∧
    (rsp.mrspType = mrspDataType → BytesThere rsp.mrspData.mdataBuf rsp.mrspData.mdataNbytes.toNat) ∧
    (rsp.mrspType = mrspDirType → rsp.mrspDir.Filled)

def Response.unionFields (rsp : Response) : List Field :=
  if rsp.mrspType = mrspDataType then [.fixed 8, .fixed rsp.mrspData.mdataNbytes.toNat]
  else if rsp.mrspType = mrspStatType then [.fixed 4, .fixed 8, .fixed 8, .fixed 8]
  else if rsp.mrspType = mrspDirType then rsp.mrspDir.fields
  else if rsp.mrspType = mrspErrorType then [.fixed 4]
  else []

def Response.fields (rsp : Response) : List Field := .fixed 4 :: rsp.unionFields

theorem serializeRsp_sized (rsp : Response) : Sized (serializeRsp rsp) rsp.Encodable rsp.fields := by
  have union : SizedStep (fun n s =>
      if rsp.mrspType = mrspOk then pure s
      else if rsp.mrspType = mrspDataType then s.call n (serializeData rsp.mrspData)
      else if rsp.mrspType = mrspStatType then s.call n (serializeStat rsp.mrspStat)
      else if rsp.mrspType = mrspDirType then s.call n (serializeDir rsp.mrspDir)
      else if rsp.mrspType = mrspErrorType then s.call n (serializeInt32 rsp.mrspError)
      else .error .abort) rsp.Encodable rsp.unionFields := by
    unfold Response.Encodable Response.unionFields
    by_cases known : rsp.mrspType ≤ mrspErrorType
    · have differ : ¬ mrspDataType = mrspDirType ∧ ¬ mrspStatType = mrspDirType := by decide
      rw [eq_true known, true_and]
      rcases rspType_cases known with is | is | is | is | is
      all_goals simp only [is, rspTypes_differ, differ, if_true, if_false, false_implies,
        true_implies, and_true, true_and]
      · exact sizedStep_pure
      · exact (serializeData_sized rsp.mrspData).step
      · exact (serializeStat_sized rsp.mrspStat).step
      · exact (serializeDir_sized rsp.mrspDir).step
      · exact (serializeInt32_sized rsp.mrspError).step
    · have other : ∀ type : UInt32, type ≤ mrspErrorType → ¬ rsp.mrspType = type :=
        fun type le same => known (same ▸ le)
      rw [eq_false known, false_and, if_neg (other _ (by decide)), if_neg (other _ (by decide)),
        if_neg (other _ (by decide)), if_neg (other _ (by decide))]
      have body : (fun (n : Nat) (s : Emit) =>
          if rsp.mrspType = mrspOk then pure s
          else if rsp.mrspType = mrspDataType then s.call n (serializeData rsp.mrspData)
          else if rsp.mrspType = mrspStatType then s.call n (serializeStat rsp.mrspStat)
          else if rsp.mrspType = mrspDirType then s.call n (serializeDir rsp.mrspDir)
          else if rsp.mrspType = mrspErrorType then s.call n (serializeInt32 rsp.mrspError)
          else .error .abort) = fun _ _ => .error .abort := by
        funext n s
        rw [if_neg (other _ (by decide)), if_neg (other _ (by decide)),
          if_neg (other _ (by decide)), if_neg (other _ (by decide)), if_neg (other _ (by decide))]
      rw [body]
      exact sizedStep_abort
  exact ((serializeInt32_sized _).step.seq union).body (fun _ => rfl) |>.congr (by tauto)

/-! ## Packets -/

def Packet.Encodable (pkt : Packet) : Prop :=
  (pkt.mpktType = mpktRequestType → pkt.mpktRequest.Encodable) ∧
    (pkt.mpktType = mpktResponseType → pkt.mpktResponse.Encodable) ∧
    (pkt.mpktType = mpktConnectType → pkt.mpktConnect.name.isSome = true)

def Packet.unionFields (pkt : Packet) : List Field :=
  if pkt.mpktType = mpktRequestType then pkt.mpktRequest.fields
  else if pkt.mpktType = mpktResponseType then pkt.mpktResponse.fields
  else if pkt.mpktType = mpktConnectType then [.fixed 4, strField pkt.mpktConnect.name]
  else []

def Packet.fields (pkt : Packet) : List Field := .fixed 4 :: .fixed 4 :: pkt.unionFields

theorem serializeConnect_sized (conn : Connect) :
    Sized (serializeConnect conn) (conn.name.isSome = true) [.fixed 4, strField conn.name] :=
  ((serializeUint32_sized _).step.seq (serializeStr_sized _).step).body (fun _ => rfl)
    |>.congr (by tauto)

theorem serializePkt_sized (pkt : Packet) : Sized (serializePkt pkt) pkt.Encodable pkt.fields := by
  have union : SizedStep (fun n s =>
      if pkt.mpktType = mpktRequestType then s.call n (serializeRequest pkt.mpktRequest)
      else if pkt.mpktType = mpktResponseType then s.call n (serializeRsp pkt.mpktResponse)
      else if pkt.mpktType = mpktConnectType then s.call n (serializeConnect pkt.mpktConnect)
      else pure s) pkt.Encodable pkt.unionFields := by
    unfold Packet.Encodable Packet.unionFields
    by_cases request : pkt.mpktType = mpktRequestType
    · have differ : ¬ mpktRequestType = mpktResponseType ∧ ¬ mpktRequestType = mpktConnectType := by
        decide
      simp only [request, differ, if_true, false_implies, true_implies, and_true]
      exact (serializeRequest_sized pkt.mpktRequest).step
    by_cases response : pkt.mpktType = mpktResponseType
    · have differ : ¬ mpktResponseType = mpktRequestType ∧ ¬ mpktResponseType = mpktConnectType := by
        decide
      simp only [response, differ, if_true, if_false, false_implies, true_implies, and_true, true_and]
      exact (serializeRsp_sized pkt.mpktResponse).step
    by_cases connect : pkt.mpktType = mpktConnectType
    · have differ : ¬ mpktConnectType = mpktRequestType ∧ ¬ mpktConnectType = mpktResponseType := by
        decide
      simp only [connect, differ, if_true, if_false, false_implies, true_implies, true_and]
      exact (serializeConnect_sized pkt.mpktConnect).step
    · simp only [request, response, connect, if_false, false_implies, and_true]
      exact sizedStep_pure
  have shared := (serializeUint32_sized pkt.mpktMagic).step.seq
    (serializeUint32_sized pkt.mpktType).step
  refine ((shared.seq union).body fun n => ?_).congr (by tauto)
  simp only [serializePkt, bind_assoc]

/-! ## The contract -/

/-- `len` is the number of bytes of the whole encoding: with room for so many, so
many are written. -/
def CompleteSize (pkt : Packet) (len : Nat) : Prop :=
  ∀ n, len ≤ n → ∃ s, serializePkt pkt n = .ok s ∧ s.written = len

/-- With `n` bytes of room the number returned is that of the whole encoding, and
`buffer_serialize` comes by with two calls. -/
structure SizeContract (pkt : Packet) (n : Nat) : Prop where
  size : ∃ len, CompleteSize pkt len ∧ ∃ s, serializePkt pkt n = .ok s ∧ s.used = len
  calls : (serializerCalls (serializePkt pkt) (2 ^ 64) n).length ≤ 2

theorem completeSize_iff (pkt : Packet) (len : Nat) :
    CompleteSize pkt len ↔ pkt.Encodable ∧ len = size pkt.fields := by
  have sized := serializePkt_sized pkt
  constructor
  · intro complete
    have encodable : pkt.Encodable := by
      by_contra lacks
      obtain ⟨room, fails⟩ := sized.missing lacks
      obtain ⟨s, answer, _⟩ := complete (max len room) (le_max_left _ _)
      obtain ⟨trap, failed⟩ := fails (max len room) (le_max_right _ _)
      rw [failed] at answer
      cases answer
    obtain ⟨s, answer, written⟩ := complete (max len (size pkt.fields)) (le_max_left _ _)
    obtain ⟨s', answer', _, written'⟩ := sized.whole encodable _ (le_max_right len _)
    rw [answer] at answer'
    cases answer'
    exact ⟨encodable, written.symm.trans written'⟩
  · rintro ⟨encodable, rfl⟩ n room
    obtain ⟨s, answer, _, written⟩ := sized.whole encodable n room
    exact ⟨s, answer, written⟩

theorem serializePkt_used_lt {pkt : Packet} {n : Nat} {s : Emit} (answer : serializePkt pkt n = .ok s) :
    s.used < 2 ^ 64 := by
  obtain ⟨magic, _, answer⟩ := bind_eq_ok answer
  obtain ⟨typed, called, answer⟩ := bind_eq_ok answer
  have bounded := (Emit.call_eq_ok called).2
  split_ifs at answer
  · exact (Emit.call_eq_ok answer).2
  · exact (Emit.call_eq_ok answer).2
  · exact (Emit.call_eq_ok answer).2
  · cases answer
    exact bounded

/-- A first call that returns the right number is followed by one that fits. -/
theorem serializerCalls_le_two {f : Serialize} {n : Nat} {s t : Emit} (first : f n = .ok s)
    (second : f s.used = .ok t) (fits : t.used ≤ s.used) (fuel : Nat) :
    (serializerCalls f fuel n).length ≤ 2 := by
  cases fuel with
  | zero => exact Nat.zero_le 2
  | succ fuel =>
      simp only [serializerCalls, first]
      split_ifs
      · cases fuel with
        | zero => exact Nat.le_succ 1
        | succ fuel =>
            simp only [serializerCalls, second, if_neg (Nat.not_lt_of_le fits)]
            exact Nat.le_refl 2
      · exact Nat.le_succ 1

/-- The contract is met exactly where all that the packet consists of is there,
its encoding has a size, and every character of its strings is within reach. -/
theorem sizeContract_iff (pkt : Packet) (n : Nat) :
    SizeContract pkt n ↔
      pkt.Encodable ∧ size pkt.fields < 2 ^ 64 ∧ stringsEnd 0 pkt.fields ≤ n := by
  have sized := serializePkt_sized pkt
  have bound := counted_le_size n 0 pkt.fields
  rw [Nat.zero_add] at bound
  constructor
  · rintro ⟨⟨len, complete, s, answer, used⟩, _⟩
    obtain ⟨encodable, rfl⟩ := (completeSize_iff pkt len).mp complete
    have small := serializePkt_used_lt answer
    obtain ⟨s', answer', counts⟩ := sized.counts encodable n (by omega)
    rw [answer] at answer'
    cases answer'
    refine ⟨encodable, by omega, (counted_eq_size_iff n 0 pkt.fields).mp ?_⟩
    rw [← counts, used, Nat.zero_add]
  · rintro ⟨encodable, small, reach⟩
    obtain ⟨s, answer, counts⟩ := sized.counts encodable n (by omega)
    have right := (counted_eq_size_iff n 0 pkt.fields).mpr reach
    rw [Nat.zero_add] at right
    refine ⟨⟨size pkt.fields, (completeSize_iff pkt _).mpr ⟨encodable, rfl⟩, s, answer,
      counts.trans right⟩, ?_⟩
    obtain ⟨t, again, used, _⟩ := sized.whole encodable s.used (by omega)
    refine serializerCalls_le_two answer again ?_ _
    rw [used, Nat.mod_eq_of_lt small]
    omega

/-- A CONNECT packet of a user with a name of two letters. -/
def shortConnect : Packet :=
  { mpktMagic := mpktMagicNumber, mpktType := mpktConnectType,
    mpktConnect := { name := some ⟨[109, 116], by decide⟩, port := 4321 } }

/-- With no room at all 13 bytes are asked for instead of 15, then 14, and only then
all of them. -/
theorem shortConnect_breaks :
    serializerCalls (serializePkt shortConnect) 5 0 = [0, 13, 14, 15] ∧
      ¬ SizeContract shortConnect 0 := by
  refine ⟨by decide, fun kept => ?_⟩
  obtain ⟨len, complete, s, answer, used⟩ := kept.size
  have whole : len = 15 := ((completeSize_iff shortConnect len).mp complete).2
  have asked : serializePkt shortConnect 0 = .ok ⟨13, []⟩ := by decide
  rw [answer] at asked
  cases asked
  rw [whole] at used
  exact absurd used (by decide)

end Middfs
