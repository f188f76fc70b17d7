import Middfs.Lib.Deserialize

/-!
# Failing allocations

An allocation that fails sets `*errp`, and from then on `*errp` stays set.  So
with less memory a decoder gives the same answer, or fails.
-/

set_option autoImplicit false

namespace Middfs

section Cursor
variable {σ α : Type}

def OrFailed (r r' : Cursor σ) : Prop := r = r' ∨ r.err ≠ 0

def OrFailedTry (r r' : Except Trap (Cursor σ)) : Prop :=
  r = r' ∨ ∃ s, r = .ok s ∧ s.err ≠ 0

/-- `f` is `f'` with less memory. -/
structure Poorer (f f' : Deserialize α) : Prop where
  less : ∀ buf a err, OrFailed (f buf a err) (f' buf a err)
  sticky : ∀ buf a err, err ≠ 0 → (f buf a err).err ≠ 0

structure PoorerStep (g g' : List UInt8 → Cursor σ → Cursor σ) : Prop where
  less : ∀ buf s, OrFailed (g buf s) (g' buf s)
  sticky : ∀ buf s, s.err ≠ 0 → (g buf s).err ≠ 0

theorem PoorerStep.after {g g' : List UInt8 → Cursor σ → Cursor σ} (step : PoorerStep g g')
    (buf : List UInt8) {s s' : Cursor σ} (before : OrFailed s s') :
    OrFailed (g buf s) (g' buf s') := by
  rcases before with rfl | failed
  · exact step.less buf s
  · exact Or.inr (step.sticky buf s failed)

theorem Poorer.call {f f' : Deserialize α} (poorer : Poorer f f') (get : σ → α)
    (set : α → σ → σ) :
    PoorerStep (fun buf s => s.call buf f get set) (fun buf s => s.call buf f' get set) where
  less := fun buf s => by
    rcases poorer.less (buf.drop s.used) (get s.obj) s.err with same | failed
    · exact Or.inl (by simp only [Cursor.call, same])
    · exact Or.inr failed
  sticky := fun _ _ failed => poorer.sticky _ _ _ failed

theorem PoorerStep.seq {g g' h h' : List UInt8 → Cursor σ → Cursor σ} (first : PoorerStep g g')
    (second : PoorerStep h h') :
    PoorerStep (fun buf s => h buf (g buf s)) (fun buf s => h' buf (g' buf s)) where
  less := fun buf s => second.after buf (first.less buf s)
  sticky := fun buf s failed => second.sticky buf _ (first.sticky buf s failed)

theorem PoorerStep.onlyIf {g g' : List UInt8 → Cursor σ → Cursor σ} (cond : Bool)
    (step : PoorerStep g g') :
    PoorerStep (fun buf s => if cond then g buf s else s)
      (fun buf s => if cond then g' buf s else s) := by
  cases cond with
  | true => exact step
  | false => exact ⟨fun _ _ => Or.inl rfl, fun _ _ failed => failed⟩

theorem PoorerStep.within {g g' : List UInt8 → Cursor σ → Cursor σ} (step : PoorerStep g g') :
    PoorerStep (fun buf s => if s.used > buf.length then s else g buf s)
      (fun buf s => if s.used > buf.length then s else g' buf s) where
  less := fun buf s => by
    split_ifs
    · exact Or.inl rfl
    · exact step.less buf s
  sticky := fun buf s failed => by
    split_ifs
    · exact failed
    · exact step.sticky buf s failed

theorem PoorerStep.pick {β : Type} {g g' : β → List UInt8 → Cursor σ → Cursor σ}
    (step : ∀ b, PoorerStep (g b) (g' b)) (pick : σ → β) :
    PoorerStep (fun buf s => g (pick s.obj) buf s) (fun buf s => g' (pick s.obj) buf s) where
  less := fun buf s => (step (pick s.obj)).less buf s
  sticky := fun buf s => (step (pick s.obj)).sticky buf s

theorem PoorerStep.body {g g' : List UInt8 → Cursor σ → Cursor σ} (step : PoorerStep g g') :
    Poorer (fun buf a err => g buf ⟨0, a, err⟩) (fun buf a err => g' buf ⟨0, a, err⟩) where
  less := fun buf a err => step.less buf ⟨0, a, err⟩
  sticky := fun buf a err failed => step.sticky buf ⟨0, a, err⟩ failed

theorem Poorer.same {f : Deserialize α} (sticky : ∀ buf a err, err ≠ 0 → (f buf a err).err ≠ 0) :
    Poorer f f where
  less := fun _ _ _ => Or.inl rfl
  sticky := sticky

end Cursor

theorem enomem_ne_zero : enomem ≠ 0 := by decide

theorem deserializeUint32_same : Poorer deserializeUint32 deserializeUint32 :=
  Poorer.same fun buf a err failed => by
    rw [deserializeUint32, if_pos failed]
    exact failed

theorem deserializeInt32_same : Poorer deserializeInt32 deserializeInt32 :=
  Poorer.same fun buf a err failed => deserializeUint32_same.sticky buf a.toUInt32 err failed

theorem deserializeUint64_same : Poorer deserializeUint64 deserializeUint64 :=
  Poorer.same fun buf uint err failed => by
    have first := deserializeUint32_same.call (fun halves : UInt32 × UInt32 => halves.1)
      (fun v halves => (v, halves.2))
    have second := deserializeUint32_same.call (fun halves : UInt32 × UInt32 => halves.2)
      (fun v halves => (halves.1, v))
    exact second.sticky buf _ (first.sticky buf ⟨0, (0, 0), err⟩ failed)

section Malloc
variable {malloc malloc' : Nat → Bool} (less : ∀ n, malloc n = true → malloc' n = true)
include less

theorem deserializeStr_poorer : Poorer (deserializeStr malloc) (deserializeStr malloc') where
  less := fun buf strp err => by
    unfold deserializeStr
    simp only
    by_cases granted : malloc (strnlen buf + 1) = true
    · rw [granted, less _ granted]
      exact Or.inl rfl
    · split_ifs
      all_goals first | exact Or.inl rfl | exact Or.inr enomem_ne_zero
  sticky := fun buf strp err failed => by
    rw [deserializeStr, if_pos failed]
    exact failed

theorem deserializeRsrc_poorer : Poorer (deserializeRsrc malloc) (deserializeRsrc malloc') where
  less := fun buf rsrc err => by
    unfold deserializeRsrc deserializeStruct
    split_ifs
    · exact Or.inl rfl
    · exact (((deserializeStr_poorer less).call Rsrc.mrOwner
        fun v rsrc => { rsrc with mrOwner := v }).seq ((deserializeStr_poorer less).call Rsrc.mrPath
        fun v rsrc => { rsrc with mrPath := v })).less buf ⟨0, rsrc, err⟩
  sticky := fun buf rsrc err failed => by
    rw [deserializeRsrc, deserializeStruct, if_pos failed]
    exact failed

theorem deserializeRequestShared_poorer :
    PoorerStep (deserializeRequestShared malloc) (deserializeRequestShared malloc') :=
  ((deserializeUint32_same.call Request.mreqType fun v req => { req with mreqType := v }).seq
    ((deserializeStr_poorer less).call Request.mreqRequester
      fun v req => { req with mreqRequester := v })).seq
    ((deserializeRsrc_poorer less).call Request.mreqRsrc fun v req => { req with mreqRsrc := v })

theorem deserializeRequestFields_poorer (type : UInt32) :
    PoorerStep (deserializeRequestFields malloc type) (deserializeRequestFields malloc' type) :=
  (((((deserializeInt32_same.call Request.mreqMode
      fun v req => { req with mreqMode := v }).onlyIf (reqHasMode type)).seq
    ((deserializeUint64_same.call Request.mreqSize
      fun v req => { req with mreqSize := v }).onlyIf (reqHasSize type))).seq
    (((deserializeRsrc_poorer less).call Request.mreqTo
      fun v req => { req with mreqTo := v }).onlyIf (reqHasTo type))).seq
    ((deserializeUint64_same.call Request.mreqOff
      fun v req => { req with mreqOff := v }).onlyIf (reqHasOff type)))

theorem deserializeRequestData_poorer :
    PoorerStep (deserializeRequestData malloc) (deserializeRequestData malloc') where
  less := fun buf s => by
    unfold deserializeRequestData
    simp only
    by_cases granted : malloc s.obj.mreqSize.toNat = true
    · rw [granted, less _ granted]
      exact Or.inl rfl
    · split_ifs
      all_goals first | exact Or.inl rfl | exact Or.inr Int.one_ne_zero
  sticky := fun buf s failed => by
    unfold deserializeRequestData
    simp only
    split_ifs
    all_goals first | exact failed | exact Int.one_ne_zero

theorem deserializeRequest_poorer :
    Poorer (deserializeRequest malloc) (deserializeRequest malloc') where
  less := fun buf req err => by
    have final : PoorerStep (fun (_ : List UInt8) (s : Cursor Request) =>
        (⟨if s.err ≠ 0 then 0 else s.used, s.obj, s.err⟩ : Cursor Request))
        (fun _ s => ⟨if s.err ≠ 0 then 0 else s.used, s.obj, s.err⟩) :=
      ⟨fun _ _ => Or.inl rfl, fun _ _ failed => failed⟩
    have fields := fun type => (deserializeRequestFields_poorer less type).seq
      (((deserializeRequestData_poorer less).onlyIf (reqHasData type)).seq final).within
    unfold deserializeRequest
    split_ifs
    · exact Or.inl rfl
    · exact ((deserializeRequestShared_poorer less).seq
        (PoorerStep.pick fields Request.mreqType).within).less buf ⟨0, req, err⟩
  sticky := fun buf req err failed => by
    rw [deserializeRequest, if_pos failed]
    exact failed

/-! ## Responses -/

theorem deserializeData_poorer : Poorer (deserializeData malloc) (deserializeData malloc') := by
  have copy : PoorerStep
      (fun buf (s : Cursor Data) =>
        if s.used > buf.length ∨ s.err ≠ 0 then s
        else if sizerem buf.length s.used ≥ s.obj.mdataNbytes.toNat ∧ s.obj.mdataNbytes.toNat > 0 then
          if malloc s.obj.mdataNbytes.toNat then
            ⟨sizeAdd s.used s.obj.mdataNbytes.toNat, { s.obj with
              mdataBuf := some ((buf.drop s.used).take s.obj.mdataNbytes.toNat) }, s.err⟩
          else ⟨0, { s.obj with mdataBuf := none }, 1⟩
        else ⟨sizeAdd s.used s.obj.mdataNbytes.toNat, s.obj, s.err⟩)
      (fun buf (s : Cursor Data) =>
        if s.used > buf.length ∨ s.err ≠ 0 then s
        else if sizerem buf.length s.used ≥ s.obj.mdataNbytes.toNat ∧ s.obj.mdataNbytes.toNat > 0 then
          if malloc' s.obj.mdataNbytes.toNat then
            ⟨sizeAdd s.used s.obj.mdataNbytes.toNat, { s.obj with
              mdataBuf := some ((buf.drop s.used).take s.obj.mdataNbytes.toNat) }, s.err⟩
          else ⟨0, { s.obj with mdataBuf := none }, 1⟩
        else ⟨sizeAdd s.used s.obj.mdataNbytes.toNat, s.obj, s.err⟩) := by
    refine ⟨fun buf s => ?_, fun buf s failed => ?_⟩
    · by_cases granted : malloc s.obj.mdataNbytes.toNat = true
      · rw [granted, less _ granted]
        exact Or.inl rfl
      · split_ifs
        all_goals first | exact Or.inl rfl | exact Or.inr Int.one_ne_zero
    · rw [if_pos (Or.inr failed)]
      exact failed
  exact ((deserializeUint64_same.call Data.mdataNbytes
    fun v data => { data with mdataNbytes := v }).seq copy).body

theorem deserializeDirent_poorer :
    Poorer (deserializeDirent malloc) (deserializeDirent malloc') :=
  (((deserializeStr_poorer less).call Dirent.mdeName
    fun v dirent => { dirent with mdeName := v }).seq (deserializeInt32_same.call Dirent.mdeMode
    fun v dirent => { dirent with mdeMode := v })).body

omit less in
theorem deserializeDirents_wild {left : Nat} {buf : List UInt8} {ents : List Dirent} {used : Nat}
    {err : Int} (short : ents.length < left) :
    deserializeDirents malloc left buf ents used err = .error .wild := by
  induction left generalizing ents used err with
  | zero => exact absurd short (Nat.not_lt_zero _)
  | succ left ih =>
      cases ents with
      | nil => rfl
      | cons ent ents =>
          rw [List.length_cons] at short
          simp only [deserializeDirents, ih (Nat.lt_of_succ_lt_succ short)]

omit less in
theorem deserializeDirents_sticky {left : Nat} {buf : List UInt8} {ents : List Dirent} {used : Nat}
    {err : Int} (room : left ≤ ents.length) (failed : err ≠ 0) :
    ∃ r, deserializeDirents malloc left buf ents used err = .ok r ∧ r.err ≠ 0 := by
  induction left generalizing ents used err with
  | zero => exact ⟨_, rfl, failed⟩
  | succ left ih =>
      cases ents with
      | nil => exact absurd room (Nat.not_succ_le_zero left)
      | cons ent ents =>
          rw [List.length_cons] at room
          have one := (@deserializeDirent_poorer malloc malloc fun _ granted => granted).sticky
            (buf.drop used) ent err failed
          obtain ⟨r, answer, bad⟩ := @ih ents
            (sizeAdd used (deserializeDirent malloc (buf.drop used) ent err).used) _
            (Nat.le_of_succ_le_succ room) one
          simp only [deserializeDirents, answer]
          exact ⟨_, rfl, bad⟩

theorem deserializeDirents_poorer {left : Nat} {buf : List UInt8} {ents : List Dirent} {used : Nat}
    {err : Int} :
    OrFailedTry (deserializeDirents malloc left buf ents used err)
      (deserializeDirents malloc' left buf ents used err) := by
  induction left generalizing ents used err with
  | zero => exact Or.inl rfl
  | succ left ih =>
      cases ents with
      | nil => exact Or.inl rfl
      | cons ent ents =>
          simp only [deserializeDirents]
          rcases (deserializeDirent_poorer less).less (buf.drop used) ent err with same | failed
          · rw [← same]
            rcases @ih ents (sizeAdd used (deserializeDirent malloc (buf.drop used) ent err).used)
              (deserializeDirent malloc (buf.drop used) ent err).err with
              tail | ⟨r, answer, bad⟩
            · rw [tail]
              exact Or.inl rfl
            · rw [answer]
              exact Or.inr ⟨_, rfl, bad⟩
          · by_cases room : left ≤ ents.length
            · obtain ⟨r, answer, bad⟩ := @deserializeDirents_sticky malloc _ buf _
                (sizeAdd used (deserializeDirent malloc (buf.drop used) ent err).used) _ room failed
              rw [answer]
              exact Or.inr ⟨_, rfl, bad⟩
            · have short := Nat.lt_of_not_le room
              rw [deserializeDirents_wild short, deserializeDirents_wild short]
              exact Or.inl rfl

theorem deserializeDir_poorer (buf : List UInt8) (dir : Dir) (err : Int) :
    OrFailedTry (deserializeDir malloc buf dir err) (deserializeDir malloc' buf dir err) := by
  unfold deserializeDir
  simp only
  generalize (⟨0, dir, err⟩ : Cursor Dir).call buf deserializeUint64 Dir.mdirCount
    (fun v dir => { dir with mdirCount := v }) = s
  split_ifs
  · exact Or.inl rfl
  cases held : direntArray malloc s.obj with
  | none => exact Or.inr ⟨_, rfl, Int.one_ne_zero⟩
  | some ents =>
      have held' : direntArray malloc' s.obj = some ents := by
        unfold direntArray at held ⊢
        cases old : s.obj.mdirEnts with
        | some kept => simpa [old] using held
        | none =>
            simp only [old] at held ⊢
            split at held
            · rename_i granted
              rw [if_pos (less _ granted)]
              exact held
            · cases held
      rw [held']
      simp only
      rcases @deserializeDirents_poorer _ _ less s.obj.mdirCount.toNat buf ents s.used s.err with same | ⟨r, answer, bad⟩
      · rw [same]
        exact Or.inl rfl
      · rw [answer]
        exact Or.inr ⟨_, rfl, bad⟩

omit less in
theorem tryCall_poorer {σ α : Type} {f f' : List UInt8 → α → Int → Except Trap (Cursor α)}
    (poorer : ∀ buf a err, OrFailedTry (f buf a err) (f' buf a err)) (s : Cursor σ)
    (buf : List UInt8) (get : σ → α) (set : α → σ → σ) :
    OrFailedTry (s.tryCall buf f get set) (s.tryCall buf f' get set) := by
  unfold Cursor.tryCall
  rcases poorer (buf.drop s.used) (get s.obj) s.err with same | ⟨r, answer, bad⟩
  · rw [same]
    exact Or.inl rfl
  · rw [answer]
    exact Or.inr ⟨_, rfl, bad⟩

omit less in
theorem OrFailed.ok {σ : Type} {r r' : Cursor σ} (alike : OrFailed r r') :
    OrFailedTry (.ok r) (.ok r') := by
  rcases alike with rfl | bad
  · exact Or.inl rfl
  · exact Or.inr ⟨r, rfl, bad⟩

theorem deserializeRsp_poorer (buf : List UInt8) (rsp : Response) (err : Int) :
    OrFailedTry (deserializeRsp malloc buf rsp err) (deserializeRsp malloc' buf rsp err) := by
  unfold deserializeRsp deserializeRspUnion
  simp only
  generalize (⟨0, rsp, err⟩ : Cursor Response).call buf deserializeInt32 Response.typeInt32
    Response.setTypeInt32 = s
  have data := (deserializeData_poorer less).call Response.mrspData
    fun v rsp => { rsp with mrspData := v }
  split_ifs
  · exact Or.inl rfl
  · exact Or.inl rfl
  · exact (data.less buf s).ok
  · exact Or.inl rfl
  · exact tryCall_poorer (deserializeDir_poorer less) s buf _ _
  · exact Or.inl rfl
  · exact Or.inl rfl

/-! ## Packets -/

theorem deserializeConnect_poorer :
    Poorer (deserializeConnect malloc) (deserializeConnect malloc') :=
  ((deserializeUint32_same.call Connect.port fun v conn => { conn with port := v }).seq
    ((deserializeStr_poorer less).call Connect.name fun v conn => { conn with name := v })).body

theorem deserializePktUnion_poorer (buf : List UInt8) (s : Cursor Packet) :
    OrFailedTry (deserializePktUnion malloc buf s) (deserializePktUnion malloc' buf s) := by
  have request := (deserializeRequest_poorer less).call Packet.mpktRequest
    fun v pkt => { pkt with mpktRequest := v }
  have connect := (deserializeConnect_poorer less).call Packet.mpktConnect
    fun v pkt => { pkt with mpktConnect := v }
  unfold deserializePktUnion
  split_ifs
  · exact (request.less buf s).ok
  · exact tryCall_poorer (deserializeRsp_poorer less) s buf _ _
  · exact (connect.less buf s).ok
  · exact Or.inl rfl

/-- Less memory makes a decoder fail, or makes no difference. -/
theorem deserializePkt_poorer (buf : List UInt8) (pkt : Packet) (err : Int) :
    OrFailedTry (deserializePkt malloc buf pkt err) (deserializePkt malloc' buf pkt err) := by
  unfold deserializePkt
  simp only
  split_ifs
  · exact Or.inl rfl
  · exact Or.inl rfl
  generalize ((⟨0, pkt, err⟩ : Cursor Packet).call buf deserializeUint32 Packet.mpktMagic
    (fun v pkt => { pkt with mpktMagic := v })).call buf deserializeUint32 Packet.mpktType
    (fun v pkt => { pkt with mpktType := v }) = s
  rcases deserializePktUnion_poorer less buf s with same | ⟨r, answer, bad⟩
  · rw [same]
    exact Or.inl rfl
  · rw [answer]
    refine Or.inr ⟨⟨0, r.obj, r.err⟩, ?_, bad⟩
    simp only [if_pos bad]

/-- What is decoded without a failure is decoded with more memory as well. -/
theorem deserializePkt_richer {buf : List UInt8} {pkt : Packet} {s : Cursor Packet}
    (answer : deserializePkt malloc buf pkt 0 = .ok s) (clean : s.err = 0) :
    deserializePkt malloc' buf pkt 0 = .ok s := by
  rcases deserializePkt_poorer less buf pkt 0 with same | ⟨r, failed, err⟩
  · rw [← same, answer]
  · rw [answer] at failed
    cases failed
    exact absurd clean err

end Malloc
end Middfs
