import Middfs.Decode.Fields

/-!
# Decoders with a payload or an array

Once the head of a message is read, the announced payload is either all there
and copied, or only its length is added to the byte count.  `settle` is that
last step; the sum is the one of `size_t`.
-/

set_option autoImplicit false

namespace Middfs

open Prefix

variable {σ α : Type}

/-- The answer of a decoder that read the head `o`, left with `rest`, when the
head announces `n` bytes of payload. -/
def settle (buf rest : List UInt8) (n : Nat) (o : σ) (put : List UInt8 → σ → σ) : Cursor σ :=
  if n ≤ rest.length then ⟨buf.length - rest.length + n, put (rest.take n) o, 0⟩
  else ⟨sizeAdd (buf.length - rest.length) n, o, 0⟩

theorem settle_of_le {buf rest : List UInt8} {n : Nat} {o : σ} {put : List UInt8 → σ → σ}
    (enough : n ≤ rest.length) :
    settle buf rest n o put = ⟨buf.length - rest.length + n, put (rest.take n) o, 0⟩ :=
  if_pos enough

theorem settle_of_lt {buf rest : List UInt8} {n : Nat} {o : σ} {put : List UInt8 → σ → σ}
    (short : rest.length < n) :
    settle buf rest n o put = ⟨sizeAdd (buf.length - rest.length) n, o, 0⟩ :=
  if_neg (Nat.not_le_of_lt short)

theorem settle_err (buf rest : List UInt8) (n : Nat) (o : σ) (put : List UInt8 → σ → σ) :
    (settle buf rest n o put).err = 0 := by
  unfold settle
  split <;> rfl

theorem settle_zero (buf rest : List UInt8) (o : σ) (put : List UInt8 → σ → σ)
    (same : put [] o = o) : settle buf rest 0 o put = ⟨buf.length - rest.length, o, 0⟩ := by
  simp [settle, same]

/-- A callee settled, and its answer is added to the cursor. -/
theorem settle_shift {set : α → σ → σ} {buf mid rest : List UInt8} {o : σ} {v : α} {n : Nat}
    {put : List UInt8 → α → α} {put' : List UInt8 → σ → σ} (bound : buf.length < 2 ^ 63)
    (split : ∃ used, buf = used ++ mid) (restLe : rest.length ≤ mid.length)
    (inside : ∀ bytes, set (put bytes v) o = put' bytes (set v o)) :
    (⟨sizeAdd (buf.length - mid.length) (settle mid rest n v put).used,
      set (settle mid rest n v put).obj o, (settle mid rest n v put).err⟩ : Cursor σ) =
      settle buf rest n (set v o) put' := by
  have midLe := mid_length_le split
  by_cases enough : n ≤ rest.length
  · rw [settle_of_le enough, settle_of_le enough, sizeAdd_of_lt (by simp only; omega), inside]
    congr 1
    simp only
    omega
  · rw [settle_of_lt (by omega), settle_of_lt (by omega)]
    simp only [sizeAdd, Nat.add_mod_mod]
    congr 2
    omega

/-- `used += f(...)` for a callee that settles. -/
theorem call_settle {f : Deserialize α} {get : σ → α} {set : α → σ → σ} {buf mid rest : List UInt8}
    {o : σ} {v : α} {n : Nat} {put : List UInt8 → α → α} {put' : List UInt8 → σ → σ}
    (bound : buf.length < 2 ^ 63) (split : ∃ used, buf = used ++ mid)
    (restLe : rest.length ≤ mid.length) (answer : f mid (get o) 0 = settle mid rest n v put)
    (inside : ∀ bytes, set (put bytes v) o = put' bytes (set v o)) :
    (⟨buf.length - mid.length, o, 0⟩ : Cursor σ).call buf f get set =
      settle buf rest n (set v o) put' := by
  rw [call_at f get set split, answer, settle_shift bound split restLe inside]

/-! ## Requests -/

theorem fillIf_keeps {β : Type} {K : Reader α} {get : σ → α} {set : α → σ → σ} {cond : Bool}
    {o o' : σ} {ts rest : List UInt8} (part : σ → β) (kept : ∀ v obj, part (set v obj) = part obj)
    (read : (fillIf cond K get set o).run ts = .done o' rest) : part o' = part o := by
  cases cond with
  | true =>
      obtain ⟨v, _, rfl⟩ := fill_eq_done.mp read
      exact kept v o
  | false =>
      cases read
      rfl

theorem readRequestFields_type {type : UInt32} {req o : Request} {ts rest : List UInt8}
    (read : (readRequestFields type req).run ts = .done o rest) : o.mreqType = req.mreqType := by
  obtain ⟨o3, mid3, read, offRead⟩ := bind_eq_done.mp read
  obtain ⟨o2, mid2, read, toRead⟩ := bind_eq_done.mp read
  obtain ⟨o1, mid1, modeRead, sizeRead⟩ := bind_eq_done.mp read
  calc o.mreqType = o3.mreqType := fillIf_keeps Request.mreqType (by intro v obj; rfl) offRead
    _ = o2.mreqType := fillIf_keeps Request.mreqType (by intro v obj; rfl) toRead
    _ = o1.mreqType := fillIf_keeps Request.mreqType (by intro v obj; rfl) sizeRead
    _ = req.mreqType := fillIf_keeps Request.mreqType (by intro v obj; rfl) modeRead

section Malloc
variable {malloc : Nat → Bool} (small : ∀ n, n < 2 ^ 63 → malloc n = true)
include small

theorem deserializeRequestData_settles {buf mid : List UInt8} {o : Request}
    (bound : buf.length < 2 ^ 63) (split : ∃ used, buf = used ++ mid)
    (has : reqHasData o.mreqType = true) :
    deserializeRequestData malloc buf ⟨buf.length - mid.length, o, 0⟩ =
      settle buf mid o.payloadLength o Request.withPayload := by
  have midLe := mid_length_le split
  have left : buf.length - (buf.length - mid.length) = mid.length := by omega
  simp only [deserializeRequestData, sizerem_eq_sub, left, drop_to_mid split, ge_iff_le,
    Request.payloadLength, has, if_true]
  by_cases enough : o.mreqSize.toNat ≤ mid.length
  · have copied : malloc o.mreqSize.toNat = true := small _ (by omega)
    rw [settle_of_le enough, if_pos enough, if_pos copied, sizeAdd_of_lt (by omega)]
    simp only [Request.withPayload, has, if_true]
  · rw [settle_of_lt (by omega), if_neg enough]

omit small in
theorem deserializeRequestFields_keeps (type : UInt32) (buf : List UInt8) (s : Cursor Request) :
    (deserializeRequestFields malloc type buf s).obj.mreqData = s.obj.mreqData := by
  simp only [deserializeRequestFields]
  split_ifs <;> rfl

theorem deserializeRequest_need {buf : List UInt8} {req : Request} (bound : buf.length < 2 ^ 63)
    (read : (readRequestHead req).run buf = .need) :
    Over buf 34 (deserializeRequest malloc buf req 0) ∧
      (deserializeRequest malloc buf req 0).obj.mreqData = req.mreqData := by
  have shared := deserializeRequestShared_tracks small
  have first : (⟨0, req, 0⟩ : Cursor Request) = ⟨buf.length - buf.length, req, 0⟩ := by simp
  simp only [deserializeRequest, ne_eq, not_true_eq_false, if_false]
  rcases Res.andThen_eq_need read with readShared | ⟨o, mid, readShared, readFields⟩
  · have past := shared.need buf buf req bound ⟨[], rfl⟩ readShared
    rw [first, if_pos past.beyond]
    exact ⟨past.mono (by omega), rfl⟩
  · have split := (readRequestShared req).suffix buf o mid readShared
    have fields := deserializeRequestFields_tracks small o.mreqType
    have past := fields.need buf mid o bound split readFields
    have sharedDone := shared.done buf buf req o mid bound ⟨[], rfl⟩ readShared
    have kept : o.mreqData = req.mreqData := by
      have same : (deserializeRequestShared malloc buf ⟨buf.length - buf.length, req, 0⟩).obj.mreqData
        = req.mreqData := rfl
      rwa [sharedDone] at same
    rw [first, sharedDone, if_neg (by simp), if_pos past.beyond]
    exact ⟨past.mono (by omega), by rw [deserializeRequestFields_keeps, kept]⟩

theorem deserializeRequest_done {buf rest : List UInt8} {req o : Request}
    (bound : buf.length < 2 ^ 63) (read : (readRequestHead req).run buf = .done o rest) :
    deserializeRequest malloc buf req 0 =
      settle buf rest o.payloadLength o Request.withPayload := by
  obtain ⟨shared, mid, readShared, readFields⟩ := bind_eq_done.mp read
  have splitMid := (readRequestShared req).suffix buf shared mid readShared
  have splitRest := split_trans splitMid
    ((readRequestFields shared.mreqType shared).suffix mid o rest readFields)
  have type : o.mreqType = shared.mreqType := readRequestFields_type readFields
  have first := (deserializeRequestShared_tracks small).done buf buf req shared mid bound
    ⟨[], rfl⟩ readShared
  have second := (deserializeRequestFields_tracks small shared.mreqType).done buf mid shared o
    rest bound splitMid readFields
  rw [Nat.sub_self] at first
  simp only [deserializeRequest, ne_eq, not_true_eq_false, if_false, first, second]
  rw [if_neg (by omega), if_neg (by omega)]
  by_cases has : reqHasData o.mreqType = true
  · simp only [← type, has, if_true, deserializeRequestData_settles small bound splitRest has,
      settle_err, not_true_eq_false, if_false]
    rw [← settle_err buf rest o.payloadLength o Request.withPayload]
  · have noLength : o.payloadLength = 0 := if_neg has
    simp only [← type, has, Bool.false_eq_true, if_false, not_true_eq_false, noLength]
    rw [settle_zero]
    exact if_neg has

/-! ## Data -/

omit small in
theorem deserializeData_need {buf : List UInt8} {data : Data} (bound : buf.length < 2 ^ 63)
    (read : (readDataHead data).run buf = .need) :
    Over buf 8 (deserializeData malloc buf data 0) ∧
      (deserializeData malloc buf data 0).obj.mdataBuf = data.mdataBuf := by
  have count := Tracks.call deserializeUint64_follows (by decide) Data.mdataNbytes
    (fun v data => { data with mdataNbytes := v })
  have past := count.need buf buf data bound ⟨[], rfl⟩ read
  rw [Nat.sub_self] at past
  have beyond := past.beyond
  simp only [deserializeData]
  rw [if_pos (Or.inl beyond)]
  exact ⟨past, rfl⟩

theorem deserializeData_done {buf rest : List UInt8} {data o : Data} (bound : buf.length < 2 ^ 63)
    (read : (readDataHead data).run buf = .done o rest) :
    deserializeData malloc buf data 0 =
      settle buf rest o.mdataNbytes.toNat o Data.withPayload := by
  have count := Tracks.call deserializeUint64_follows (by decide) Data.mdataNbytes
    (fun v data => { data with mdataNbytes := v })
  have first := count.done buf buf data o rest bound ⟨[], rfl⟩ read
  have split := (readDataHead data).suffix buf o rest read
  have restLe := mid_length_le split
  have left : buf.length - (buf.length - rest.length) = rest.length := by omega
  have zero : o.mdataNbytes = 0 ↔ o.mdataNbytes.toNat = 0 := by
    rw [← UInt64.toNat_inj]
    rfl
  rw [Nat.sub_self] at first
  simp only [deserializeData, first, ne_eq, not_true_eq_false, or_false, sizerem_eq_sub, left,
    drop_to_mid split, ge_iff_le, gt_iff_lt]
  rw [if_neg (by omega)]
  by_cases enough : o.mdataNbytes.toNat ≤ rest.length
  · rw [settle_of_le enough]
    by_cases positive : 0 < o.mdataNbytes.toNat
    · have some : ¬ o.mdataNbytes = 0 := by
        rw [zero]
        omega
      have copied : malloc o.mdataNbytes.toNat = true := small _ (by omega)
      rw [if_pos ⟨enough, positive⟩, if_pos copied, sizeAdd_of_lt (by omega), Data.withPayload,
        if_neg some]
    · have none : o.mdataNbytes = 0 := zero.mpr (by omega)
      rw [if_neg (fun both => positive both.2), sizeAdd_of_lt (by omega), Data.withPayload,
        if_pos none]
  · rw [settle_of_lt (by omega), if_neg (fun both => enough both.1)]

/-! ## Directories -/

omit small in
theorem readDirent_ignores (ent : Dirent) (ts : List UInt8) :
    (readDirent ent).run ts = (readDirent {}).run ts := by
  have name : ∀ strp, (readStr strp).run ts = (readStr none).run ts := fun _ => rfl
  simp only [readDirent, run_bind, run_fill, name ent.mdeName]
  cases (readStr none).run ts with
  | need => rfl
  | refuse why => rfl
  | done v mid =>
      have mode : ∀ int32, (readInt32 int32).run mid = (readInt32 0).run mid := fun _ => rfl
      simp only [Res.andThen_done, mode ent.mdeMode]

theorem deserializeDirents_done {buf : List UInt8} (bound : buf.length < 2 ^ 63) (n : Nat)
    {mid rest : List UInt8} {ents vs : List Dirent} (split : ∃ used, buf = used ++ mid)
    (room : n ≤ ents.length) (read : (times (readDirent {}) n).run mid = .done vs rest) :
    deserializeDirents malloc n buf ents (buf.length - mid.length) 0 =
      .ok ⟨buf.length - rest.length, vs ++ ents.drop n, 0⟩ := by
  induction n generalizing mid ents vs with
  | zero =>
      cases read
      rfl
  | succ n ih =>
      obtain ⟨v, last, head, tail⟩ := bind_eq_done.mp read
      obtain ⟨ws, final, tailRead, built⟩ := bind_eq_done.mp tail
      cases built
      cases ents with
      | nil => simp at room
      | cons ent ents =>
          have midLe := mid_length_le split
          have lastLe := (readDirent {}).rest_length_le head
          have splitLast := split_trans split ((readDirent {}).suffix mid v last head)
          have one := (deserializeDirent_follows small).done mid ent v last (by omega)
            (by rw [readDirent_ignores, head])
          have sum : sizeAdd (buf.length - mid.length) (mid.length - last.length) =
              buf.length - last.length := by
            rw [sizeAdd_of_lt (by omega)]
            omega
          simp only [deserializeDirents, drop_to_mid split, one, sum,
            ih splitLast (by simpa using room) tailRead, List.cons_append, List.drop_succ_cons]

omit small in
theorem deserializeDirents_length {n : Nat} {buf : List UInt8} {ents : List Dirent} {used : Nat}
    {err : Int} {s : Cursor (List Dirent)}
    (answer : deserializeDirents malloc n buf ents used err = .ok s) :
    s.obj.length = ents.length := by
  induction n generalizing ents used err s with
  | zero =>
      cases answer
      rfl
  | succ n ih =>
      cases ents with
      | nil => cases answer
      | cons ent ents =>
          simp only [deserializeDirents] at answer
          split at answer
          · cases answer
          · rename_i tail tailAnswer
            cases answer
            simp [ih tailAnswer]

theorem deserializeDirents_past {buf : List UInt8} (n : Nat) {ents : List Dirent} {used k : Nat}
    (room : n ≤ ents.length) (beyond : buf.length < used) (within : used ≤ buf.length + k)
    (fits : buf.length + k + 6 * n < 2 ^ 64) :
    ∃ s, deserializeDirents malloc n buf ents used 0 = .ok s ∧ Over buf (k + 6 * n) s := by
  induction n generalizing ents used k with
  | zero => exact ⟨_, rfl, rfl, beyond, within⟩
  | succ n ih =>
      cases ents with
      | nil => simp at room
      | cons ent ents =>
          have gone : buf.drop used = [] := List.drop_eq_nil_of_le (Nat.le_of_lt beyond)
          have follows := deserializeDirent_follows small
          obtain ⟨err, entBeyond, entWithin⟩ :=
            follows.need [] ent (by simp) (follows.hungry ent)
          simp only [List.length_nil, Nat.zero_add] at entBeyond entWithin
          have sum := sizeAdd_of_lt (a := used)
            (b := (deserializeDirent malloc [] ent 0).used) (by omega)
          obtain ⟨s, rest, past⟩ := @ih ents (used + (deserializeDirent malloc [] ent 0).used) (k + 6)
            (by simpa using room) (by omega) (by omega) (by omega)
          refine ⟨⟨s.used, (deserializeDirent malloc [] ent 0).obj :: s.obj, s.err⟩, ?_, past.err,
            past.beyond, ?_⟩
          · simp only [deserializeDirents, gone, err, sum, rest]
          · have := past.within
            simp only
            omega

theorem deserializeDirents_need {buf : List UInt8} (n : Nat) {mid : List UInt8}
    {ents : List Dirent} (split : ∃ used, buf = used ++ mid) (room : n ≤ ents.length)
    (bound : buf.length < 2 ^ 63) (fits : buf.length + 6 * n < 2 ^ 64)
    (read : (times (readDirent {}) n).run mid = .need) :
    ∃ s, deserializeDirents malloc n buf ents (buf.length - mid.length) 0 = .ok s ∧
      Over buf (6 * n) s := by
  induction n generalizing mid ents with
  | zero => cases read
  | succ n ih =>
      cases ents with
      | nil => simp at room
      | cons ent ents =>
          have midLe := mid_length_le split
          have follows := deserializeDirent_follows small
          rcases Res.andThen_eq_need read with head | ⟨v, last, head, tail⟩
          · obtain ⟨err, entBeyond, entWithin⟩ := follows.need mid ent (by omega)
              (by rw [readDirent_ignores, head])
            have sum := sizeAdd_of_lt (a := buf.length - mid.length)
              (b := (deserializeDirent malloc mid ent 0).used) (by omega)
            obtain ⟨s, rest, past⟩ := @deserializeDirents_past _ small buf n ents
              (buf.length - mid.length + (deserializeDirent malloc mid ent 0).used) 6 (by simpa using room) (by omega) (by omega) (by omega)
            refine ⟨⟨s.used, (deserializeDirent malloc mid ent 0).obj :: s.obj, s.err⟩, ?_,
              past.err, past.beyond, ?_⟩
            · simp only [deserializeDirents, drop_to_mid split, err, sum, rest]
            · have := past.within
              simp only
              omega
          · have lastLe := (readDirent {}).rest_length_le head
            have splitLast := split_trans split ((readDirent {}).suffix mid v last head)
            have one := follows.done mid ent v last (by omega)
              (by rw [readDirent_ignores, head])
            have sum : sizeAdd (buf.length - mid.length) (mid.length - last.length) =
                buf.length - last.length := by
              rw [sizeAdd_of_lt (by omega)]
              omega
            have tailNeed : (times (readDirent {}) n).run last = .need := by
              rcases Res.andThen_eq_need tail with tailNeed | ⟨ws, final, _, built⟩
              · exact tailNeed
              · cases built
            obtain ⟨s, rest, past⟩ := @ih _ ents splitLast (by simpa using room) (by omega) tailNeed
            refine ⟨⟨s.used, v :: s.obj, s.err⟩, ?_, past.err, past.beyond, ?_⟩
            · simp only [deserializeDirents, drop_to_mid split, one, sum, rest]
            · have := past.within
              simp only
              omega

end Malloc
end Middfs
