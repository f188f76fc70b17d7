import Middfs.Decode.Attempt

/-!
# What a packet struct held before

A decoder fills in an object that its caller may not have initialised.  The
count and the error flag do not depend on what was in it, except for one thing:
`deserialize_dir` allocates an array only if `mdir_ents` is NULL.
-/

set_option autoImplicit false

namespace Middfs

open Prefix

section Cursor
variable {σ α : Type}

def SameCount (r r' : Cursor σ) : Prop := r.used = r'.used ∧ r.err = r'.err

/-- The count and the error flag do not depend on the object. -/
def Blind (f : Deserialize α) : Prop := ∀ buf a b err, SameCount (f buf a err) (f buf b err)

def BlindStep (g : List UInt8 → Cursor σ → Cursor σ) : Prop :=
  ∀ buf s s', SameCount s s' → SameCount (g buf s) (g buf s')

theorem Blind.call {f : Deserialize α} (blind : Blind f) (get : σ → α) (set : α → σ → σ) :
    BlindStep fun buf s => s.call buf f get set := by
  rintro buf ⟨used, o, err⟩ ⟨_, o', _⟩ ⟨rfl, rfl⟩
  obtain ⟨count, flag⟩ := blind (buf.drop used) (get o) (get o') err
  exact ⟨congrArg (sizeAdd used) count, flag⟩

theorem BlindStep.seq {g h : List UInt8 → Cursor σ → Cursor σ} (first : BlindStep g)
    (second : BlindStep h) : BlindStep fun buf s => h buf (g buf s) :=
  fun buf s s' same => second buf _ _ (first buf s s' same)

theorem BlindStep.onlyIf {g : List UInt8 → Cursor σ → Cursor σ} (cond : Bool)
    (step : BlindStep g) : BlindStep fun buf s => if cond then g buf s else s := by
  cases cond with
  | true => exact step
  | false => exact fun _ _ _ same => same

theorem BlindStep.body {g : List UInt8 → Cursor σ → Cursor σ} (step : BlindStep g) :
    Blind fun buf a err => g buf ⟨0, a, err⟩ :=
  fun buf _ _ _ => step buf _ _ ⟨rfl, rfl⟩

end Cursor

theorem deserializeUint32_blind : Blind deserializeUint32 := by
  intro buf a b err
  unfold deserializeUint32
  split_ifs <;> exact ⟨rfl, rfl⟩

theorem deserializeInt32_blind : Blind deserializeInt32 :=
  fun buf a b err => deserializeUint32_blind buf a.toUInt32 b.toUInt32 err

theorem deserializeUint64_blind : Blind deserializeUint64 := fun _ _ _ _ => ⟨rfl, rfl⟩

theorem deserializeUint64_fresh {buf : List UInt8} {a b : UInt64} {err : Int}
    (within : (deserializeUint64 buf a err).used ≤ buf.length) :
    (deserializeUint64 buf a err).obj = (deserializeUint64 buf b err).obj := by
  unfold deserializeUint64 at within ⊢
  simp only at within ⊢
  rw [if_pos within, if_pos within]

theorem deserializeStat_blind : Blind deserializeStat :=
  ((((deserializeUint32_blind.call Stat.mstatMode fun v st => { st with mstatMode := v }).seq
    (deserializeUint64_blind.call Stat.mstatSize fun v st => { st with mstatSize := v })).seq
    (deserializeUint64_blind.call Stat.mstatBlocks fun v st => { st with mstatBlocks := v })).seq
    (deserializeUint64_blind.call Stat.mstatBlksize fun v st => { st with mstatBlksize := v })).body

section Malloc
variable (malloc : Nat → Bool)

theorem deserializeStr_blind : Blind (deserializeStr malloc) := by
  intro buf a b err
  unfold deserializeStr
  simp only
  split_ifs <;> exact ⟨rfl, rfl⟩

theorem deserializeRsrc_blind : Blind (deserializeRsrc malloc) := by
  intro buf a b err
  unfold deserializeRsrc deserializeStruct
  split_ifs
  · exact ⟨rfl, rfl⟩
  · exact (((deserializeStr_blind malloc).call Rsrc.mrOwner fun v rsrc =>
      { rsrc with mrOwner := v }).seq
      ((deserializeStr_blind malloc).call Rsrc.mrPath fun v rsrc => { rsrc with mrPath := v })).body
        buf a b err

theorem deserializeConnect_blind : Blind (deserializeConnect malloc) :=
  ((deserializeUint32_blind.call Connect.port fun v conn => { conn with port := v }).seq
    ((deserializeStr_blind malloc).call Connect.name fun v conn => { conn with name := v })).body

/-! ## Requests -/

theorem deserializeRequestShared_blind : BlindStep (deserializeRequestShared malloc) :=
  ((deserializeUint32_blind.call Request.mreqType fun v req => { req with mreqType := v }).seq
    ((deserializeStr_blind malloc).call Request.mreqRequester fun v req =>
      { req with mreqRequester := v })).seq
    ((deserializeRsrc_blind malloc).call Request.mreqRsrc fun v req => { req with mreqRsrc := v })

theorem deserializeRequestFields_blind (type : UInt32) :
    BlindStep (deserializeRequestFields malloc type) :=
  ((((deserializeInt32_blind.call Request.mreqMode fun v req =>
      { req with mreqMode := v }).onlyIf (reqHasMode type)).seq
    ((deserializeUint64_blind.call Request.mreqSize fun v req =>
      { req with mreqSize := v }).onlyIf (reqHasSize type))).seq
    (((deserializeRsrc_blind malloc).call Request.mreqTo fun v req =>
      { req with mreqTo := v }).onlyIf (reqHasTo type))).seq
    ((deserializeUint64_blind.call Request.mreqOff fun v req =>
      { req with mreqOff := v }).onlyIf (reqHasOff type))

theorem deserializeRequestShared_type (buf : List UInt8) (req : Request) :
    buf.length < (deserializeRequestShared malloc buf ⟨0, req, 0⟩).used ∨
      (deserializeRequestShared malloc buf ⟨0, req, 0⟩).obj.mreqType = ntohl buf := by
  by_cases enough : 4 ≤ buf.length
  · right
    simp only [deserializeRequestShared, Cursor.call, List.drop_zero, deserializeUint32, ne_eq,
      not_true_eq_false, if_false, if_pos enough]
  · left
    have gone : ∀ k, 4 ≤ k → buf.drop k = [] := fun k le => List.drop_eq_nil_of_le (by omega)
    have used : (deserializeRequestShared malloc buf ⟨0, req, 0⟩).used = 10 := by
      simp [deserializeRequestShared, Cursor.call, deserializeUint32, deserializeStr,
        deserializeRsrc, deserializeStruct, memb, gone, strnlen, sizeAdd]
    omega

theorem deserializeUint64_count (buf : List UInt8) (a : UInt64) (err : Int) :
    (deserializeUint64 buf a err).used = (if err ≠ 0 then 0 else 8) ∧
      (deserializeUint64 buf a err).err = err := by
  by_cases failed : err = 0 <;>
    simp [deserializeUint64, Cursor.call, deserializeUint32, failed, sizeAdd]

theorem deserializeRequestFields_size {type : UInt32} (has : reqHasData type = true)
    {buf : List UInt8} (bound : buf.length < 2 ^ 63) {s s' : Cursor Request}
    (same : SameCount s s') (start : s.used ≤ buf.length) :
    buf.length < (deserializeRequestFields malloc type buf s).used ∨
      (deserializeRequestFields malloc type buf s).obj.mreqSize =
        (deserializeRequestFields malloc type buf s').obj.mreqSize := by
  obtain ⟨used, o, err⟩ := s
  obtain ⟨used', o', err'⟩ := s'
  obtain ⟨rfl, rfl⟩ := same
  rw [reqHasData, beq_iff_eq] at has
  subst has
  have fields : ∀ o : Request, deserializeRequestFields malloc mreqWrite buf ⟨used, o, err⟩ =
      (((⟨used, o, err⟩ : Cursor Request).call buf deserializeUint64 Request.mreqSize
        fun v req => { req with mreqSize := v }).call buf deserializeUint64 Request.mreqOff
          fun v req => { req with mreqOff := v }) := fun _ => rfl
  rw [fields, fields]
  simp only [Cursor.call]
  by_cases within : (deserializeUint64 (buf.drop used) o.mreqSize err).used ≤ (buf.drop used).length
  · exact Or.inr (deserializeUint64_fresh within)
  · left
    have start' : used ≤ buf.length := start
    obtain ⟨count, flag⟩ := deserializeUint64_count (buf.drop used) o.mreqSize err
    rw [count, List.length_drop] at within
    rw [count, flag, (deserializeUint64_count _ _ _).1]
    split_ifs at within ⊢
    · omega
    · rw [sizeAdd_of_lt (a := used) (by omega), sizeAdd_of_lt (by omega)]
      omega

theorem deserializeRequestData_blind (buf : List UInt8) {s s' : Cursor Request}
    (same : SameCount s s') (size : s.obj.mreqSize = s'.obj.mreqSize) :
    SameCount (deserializeRequestData malloc buf s) (deserializeRequestData malloc buf s') := by
  obtain ⟨used, o, err⟩ := s
  obtain ⟨used', o', err'⟩ := s'
  obtain ⟨rfl, rfl⟩ := same
  unfold deserializeRequestData
  simp only at size ⊢
  rw [size]
  split_ifs <;> exact ⟨rfl, rfl⟩

theorem deserializeRequest_blind {buf : List UInt8} (bound : buf.length < 2 ^ 63) (a b : Request)
    (err : Int) :
    SameCount (deserializeRequest malloc buf a err) (deserializeRequest malloc buf b err) := by
  unfold deserializeRequest
  by_cases failed : err = 0
  · subst failed
    simp only [ne_eq, not_true_eq_false, if_false]
    have shared := deserializeRequestShared_blind malloc buf ⟨0, a, 0⟩ ⟨0, b, 0⟩ ⟨rfl, rfl⟩
    have types := deserializeRequestShared_type malloc buf
    rw [← shared.1]
    by_cases gone : (deserializeRequestShared malloc buf ⟨0, a, 0⟩).used > buf.length
    · rw [if_pos gone, if_pos gone]
      exact shared
    rw [if_neg gone, if_neg gone, (types a).resolve_left gone,
      (types b).resolve_left (by rw [← shared.1]; exact gone)]
    have fields := deserializeRequestFields_blind malloc (ntohl buf) buf _ _ shared
    rw [← fields.1]
    by_cases out : (deserializeRequestFields malloc (ntohl buf) buf
        (deserializeRequestShared malloc buf ⟨0, a, 0⟩)).used > buf.length
    · rw [if_pos out, if_pos out]
      exact fields
    rw [if_neg out, if_neg out]
    by_cases has : reqHasData (ntohl buf) = true
    · have size := (deserializeRequestFields_size malloc has bound shared
        (Nat.le_of_not_lt gone)).resolve_left out
      have data := deserializeRequestData_blind malloc buf fields size
      rw [if_pos has, if_pos has, ← data.1, ← data.2]
      exact ⟨rfl, rfl⟩
    · rw [if_neg has, if_neg has, ← fields.1, ← fields.2]
      exact ⟨rfl, rfl⟩
  · rw [if_pos failed, if_pos failed]
    exact ⟨rfl, rfl⟩

/-! ## Responses -/

theorem call_uint64_front {σ : Type} (get : σ → UInt64) (set : UInt64 → σ → σ) (buf : List UInt8)
    (o : σ) (err : Int) :
    (⟨0, o, err⟩ : Cursor σ).call buf deserializeUint64 get set =
      ⟨if err ≠ 0 then 0 else 8, set (deserializeUint64 buf (get o) err).obj o, err⟩ := by
  obtain ⟨used, flag⟩ := deserializeUint64_count buf (get o) err
  simp only [Cursor.call, List.drop_zero, used, flag]
  split_ifs <;> rfl

theorem deserializeData_blind : Blind (deserializeData malloc) := by
  intro buf a b err
  unfold deserializeData
  simp only [call_uint64_front]
  by_cases failed : err = 0
  · subst failed
    simp only [ne_eq, not_true_eq_false, if_false, or_false]
    by_cases short : 8 > buf.length
    · rw [if_pos short, if_pos short]
      exact ⟨rfl, rfl⟩
    · have value : (deserializeUint64 buf a.mdataNbytes 0).obj =
          (deserializeUint64 buf b.mdataNbytes 0).obj := by
        apply deserializeUint64_fresh
        rw [(deserializeUint64_count _ _ _).1]
        exact Nat.le_of_not_lt short
      rw [if_neg short, if_neg short, value]
      split_ifs <;> exact ⟨rfl, rfl⟩
  · simp only [ne_eq, failed, not_false_eq_true, or_true, if_true]
    exact ⟨rfl, rfl⟩

/-- The count and the error flag of an answer, or how the process dies. -/
def answerCount {σ : Type} (answer : Except Trap (Cursor σ)) : Except Trap (Nat × Int) :=
  answer.map fun s => (s.used, s.err)

theorem SameCount.answer {σ : Type} {s s' : Cursor σ} (same : SameCount s s') :
    answerCount (.ok s) = answerCount (.ok s') := by
  simp only [answerCount, Except.map, same.1, same.2]

theorem answerCount_eq {σ : Type} {r r' : Except Trap (Cursor σ)}
    (same : answerCount r = answerCount r') :
    (∃ trap, r = .error trap ∧ r' = .error trap) ∨
      ∃ s s', r = .ok s ∧ r' = .ok s' ∧ SameCount s s' := by
  cases r with
  | error trap =>
      cases r' with
      | error trap' =>
          cases same
          exact Or.inl ⟨trap, rfl, rfl⟩
      | ok s' => cases same
  | ok s =>
      cases r' with
      | error trap' => cases same
      | ok s' =>
          have both := Prod.mk.inj (Except.ok.inj same)
          exact Or.inr ⟨s, s', rfl, rfl, both⟩

theorem tryCall_blind {σ α : Type} {f : List UInt8 → α → Int → Except Trap (Cursor α)}
    {get : σ → α} {set : α → σ → σ} {buf : List UInt8} {s s' : Cursor σ} (same : SameCount s s')
    (blind : answerCount (f (buf.drop s.used) (get s.obj) s.err) =
      answerCount (f (buf.drop s.used) (get s'.obj) s.err)) :
    answerCount (s.tryCall buf f get set) = answerCount (s'.tryCall buf f get set) := by
  obtain ⟨used, o, err⟩ := s
  obtain ⟨used', o', err'⟩ := s'
  obtain ⟨rfl, rfl⟩ := same
  unfold Cursor.tryCall
  simp only at blind ⊢
  cases first : f (buf.drop used) (get o) err <;> cases second : f (buf.drop used) (get o') err <;>
    rw [first, second] at blind <;> simp_all [answerCount, Except.map]

/-- The array that an object has already matters only once the count was read. -/
theorem deserializeDir_blind (buf : List UInt8) {a b : Dir}
    (same : 8 ≤ buf.length → a.mdirEnts = b.mdirEnts) :
    answerCount (deserializeDir malloc buf a 0) = answerCount (deserializeDir malloc buf b 0) := by
  unfold deserializeDir
  simp only [call_uint64_front, ne_eq, not_true_eq_false, if_false, false_or]
  by_cases short : 8 > buf.length
  · rw [if_pos short, if_pos short]
    rfl
  · have value : (deserializeUint64 buf a.mdirCount 0).obj =
        (deserializeUint64 buf b.mdirCount 0).obj := by
      apply deserializeUint64_fresh
      rw [(deserializeUint64_count _ _ _).1]
      exact Nat.le_of_not_lt short
    rw [if_neg short, if_neg short, value, same (Nat.le_of_not_lt short)]

theorem deserializeRspUnion_blind {buf : List UInt8} {s s' : Cursor Response}
    (count : SameCount s s') (clean : s.err = 0) (type : s.obj.mrspType = s'.obj.mrspType)
    (same : s.obj.mrspType = mrspDirType → 8 ≤ (buf.drop s.used).length →
      s.obj.mrspDir.mdirEnts = s'.obj.mrspDir.mdirEnts) :
    answerCount (deserializeRspUnion malloc buf s) = answerCount (deserializeRspUnion malloc buf s') := by
  unfold deserializeRspUnion
  rw [← type]
  split_ifs with isOk isData isStat isDir isError
  · exact count.answer
  · exact ((deserializeData_blind malloc).call _ _ buf s s' count).answer
  · exact (deserializeStat_blind.call _ _ buf s s' count).answer
  · refine tryCall_blind count ?_
    rw [clean]
    exact deserializeDir_blind malloc _ (same isDir)
  · exact (deserializeInt32_blind.call _ _ buf s s' count).answer
  · rfl

theorem typeInt32_front (buf : List UInt8) (rsp : Response) :
    (⟨0, rsp, 0⟩ : Cursor Response).call buf deserializeInt32 Response.typeInt32
        Response.setTypeInt32 =
      ⟨4, if 4 ≤ buf.length then { rsp with mrspType := ntohl buf } else rsp, 0⟩ := by
  simp only [Cursor.call, List.drop_zero, deserializeInt32, deserializeUint32, ne_eq,
    not_true_eq_false, if_false]
  split_ifs <;> rfl

theorem deserializeRsp_blind {buf : List UInt8} {a b : Response}
    (same : 12 ≤ buf.length → ntohl buf = mrspDirType →
      a.mrspDir.mdirEnts = b.mrspDir.mdirEnts) :
    answerCount (deserializeRsp malloc buf a 0) = answerCount (deserializeRsp malloc buf b 0) := by
  unfold deserializeRsp
  simp only [typeInt32_front]
  by_cases short : 4 > buf.length
  · rw [if_pos short, if_pos short]
    rfl
  · rw [if_neg short, if_neg short, if_pos (by omega), if_pos (by omega)]
    refine deserializeRspUnion_blind malloc ⟨rfl, rfl⟩ rfl rfl fun isDir enough => ?_
    have enough' : 8 ≤ (buf.drop 4).length := enough
    rw [List.length_drop] at enough'
    exact same (by omega) isDir

/-! ## Packets -/

/-- The first 20 bytes are those of a DIR response, with its count. -/
def AnnouncesDir (buf : List UInt8) : Prop :=
  20 ≤ buf.length ∧ ntohl (buf.drop 4) = mpktResponseType ∧ ntohl (buf.drop 8) = mrspDirType

theorem pktShared_front {buf : List UInt8} (enough : 8 ≤ buf.length) (pkt : Packet) :
    ((⟨0, pkt, 0⟩ : Cursor Packet).call buf deserializeUint32 Packet.mpktMagic
        fun v pkt => { pkt with mpktMagic := v }).call buf deserializeUint32 Packet.mpktType
          (fun v pkt => { pkt with mpktType := v }) =
      ⟨8, { pkt with mpktMagic := ntohl buf, mpktType := ntohl (buf.drop 4) }, 0⟩ := by
  have first : 4 ≤ buf.length := by omega
  have second : 4 ≤ (buf.drop 4).length := by
    rw [List.length_drop]
    omega
  simp only [Cursor.call, List.drop_zero, deserializeUint32, ne_eq, not_true_eq_false, if_false,
    if_pos first]
  have four : sizeAdd 0 4 = 4 := rfl
  simp only [four, if_pos second]
  rfl

def pktEnd (s : Cursor Packet) : Cursor Packet := if s.err ≠ 0 then ⟨0, s.obj, s.err⟩ else s

theorem deserializePkt_eq {buf : List UInt8} (enough : 8 ≤ buf.length) (pkt : Packet) :
    deserializePkt malloc buf pkt 0 =
      (deserializePktUnion malloc buf
        ⟨8, { pkt with mpktMagic := ntohl buf, mpktType := ntohl (buf.drop 4) }, 0⟩).map pktEnd := by
  have within : ¬ (buf.length < 8 ∨ False) := fun short => short.elim (by omega) id
  unfold deserializePkt
  simp only [ne_eq, not_true_eq_false, if_false, pktShared_front enough]
  rw [if_neg within]
  generalize deserializePktUnion malloc buf _ = answer
  cases answer <;> rfl

theorem deserializePkt_short {buf : List UInt8} (short : buf.length < 8) (pkt : Packet) :
    deserializePkt malloc buf pkt 0 =
      .ok ⟨8, { pkt with mpktMagic := if 4 ≤ buf.length then ntohl buf else pkt.mpktMagic }, 0⟩ := by
  have second : ¬ 4 ≤ (buf.drop 4).length := by
    rw [List.length_drop]
    omega
  have four : sizeAdd 0 4 = 4 := rfl
  have eight : sizeAdd 4 4 = 8 := rfl
  unfold deserializePkt
  simp only [Cursor.call, List.drop_zero, deserializeUint32, ne_eq, not_true_eq_false, if_false, four,
    eight, if_neg second, if_pos (Or.inl short : buf.length < 8 ∨ False)]

theorem deserializePktUnion_blind {buf : List UInt8} (bound : buf.length < 2 ^ 63)
    {s s' : Cursor Packet} (count : SameCount s s') (clean : s.err = 0)
    (type : s.obj.mpktType = s'.obj.mpktType)
    (same : s.obj.mpktType = mpktResponseType → 12 ≤ (buf.drop s.used).length →
      ntohl (buf.drop s.used) = mrspDirType →
        s.obj.mpktResponse.mrspDir.mdirEnts = s'.obj.mpktResponse.mrspDir.mdirEnts) :
    answerCount (deserializePktUnion malloc buf s) =
      answerCount (deserializePktUnion malloc buf s') := by
  unfold deserializePktUnion
  rw [← type]
  split_ifs with isRequest isResponse isConnect
  · obtain ⟨used, o, err⟩ := s
    obtain ⟨used', o', err'⟩ := s'
    obtain ⟨rfl, rfl⟩ := count
    have shorter : (buf.drop used).length < 2 ^ 63 := by
      rw [List.length_drop]
      omega
    obtain ⟨more, flag⟩ := deserializeRequest_blind malloc shorter o.mpktRequest o'.mpktRequest err
    exact SameCount.answer ⟨congrArg (sizeAdd used) more, flag⟩
  · refine tryCall_blind count ?_
    rw [clean]
    exact deserializeRsp_blind malloc (same isResponse)
  · exact ((deserializeConnect_blind malloc).call _ _ buf s s' count).answer
  · exact count.answer

theorem answerCount_end {r r' : Except Trap (Cursor Packet)}
    (same : answerCount r = answerCount r') :
    answerCount (r.map pktEnd) = answerCount (r'.map pktEnd) := by
  have ends : ∀ answer : Except Trap (Cursor Packet), answerCount (answer.map pktEnd) =
      (answerCount answer).map fun count => if count.2 ≠ 0 then (0, count.2) else count := by
    intro answer
    cases answer with
    | error trap => rfl
    | ok s =>
        simp only [answerCount, Except.map, pktEnd]
        split_ifs <;> rfl
  rw [ends, ends, same]

/-- The count, the error flag and how the process dies depend on the bytes and on
the array that is there for the entries of a DIR response, and on nothing else. -/
theorem deserializePkt_blind {buf : List UInt8} (bound : buf.length < 2 ^ 63) {a b : Packet}
    (same : AnnouncesDir buf → a.mpktResponse.mrspDir.mdirEnts = b.mpktResponse.mrspDir.mdirEnts) :
    answerCount (deserializePkt malloc buf a 0) = answerCount (deserializePkt malloc buf b 0) := by
  by_cases enough : 8 ≤ buf.length
  · rw [deserializePkt_eq malloc enough, deserializePkt_eq malloc enough]
    apply answerCount_end
    refine deserializePktUnion_blind malloc bound ⟨rfl, rfl⟩ rfl rfl fun isResponse there isDir => ?_
    have there' : 12 ≤ (buf.drop 8).length := there
    rw [List.length_drop] at there'
    exact same ⟨by omega, isResponse, isDir⟩
  · rw [deserializePkt_short malloc (Nat.lt_of_not_le enough),
      deserializePkt_short malloc (Nat.lt_of_not_le enough)]
    rfl

/-! ## The array that was there -/

def Response.withEnts (ents : Option (List Dirent)) (rsp : Response) : Response :=
  { rsp with mrspDir := { rsp.mrspDir with mdirEnts := ents } }

def Packet.withEnts (ents : Option (List Dirent)) (pkt : Packet) : Packet :=
  { pkt with mpktResponse := pkt.mpktResponse.withEnts ents }

def Cursor.onObj {σ : Type} (f : σ → σ) (s : Cursor σ) : Cursor σ := ⟨s.used, f s.obj, s.err⟩

theorem deserializeDir_short {buf : List UInt8} (short : buf.length < 8) (dir : Dir) :
    deserializeDir malloc buf dir 0 =
      .ok ⟨8, { dir with mdirCount := (deserializeUint64 buf dir.mdirCount 0).obj }, 0⟩ := by
  unfold deserializeDir
  simp only [call_uint64_front, ne_eq, not_true_eq_false, if_false, false_or]
  rw [if_pos short]

theorem deserializeRsp_withEnts {buf : List UInt8}
    (calm : ¬ (12 ≤ buf.length ∧ ntohl buf = mrspDirType)) (ents : Option (List Dirent))
    (rsp : Response) :
    deserializeRsp malloc buf (rsp.withEnts ents) 0 =
      (deserializeRsp malloc buf rsp 0).map (Cursor.onObj (Response.withEnts ents)) := by
  unfold deserializeRsp
  simp only [typeInt32_front]
  by_cases short : 4 > buf.length
  · rw [if_pos short, if_pos short, if_neg (by omega), if_neg (by omega)]
    rfl
  · rw [if_neg short, if_neg short, if_pos (by omega), if_pos (by omega)]
    unfold deserializeRspUnion
    simp only
    split_ifs with isOk isData isStat isDir isError
    · rfl
    · rfl
    · rfl
    · have few : (buf.drop 4).length < 8 := by
        rw [List.length_drop]
        by_contra many
        exact calm ⟨by omega, isDir⟩
      simp only [Cursor.tryCall, deserializeDir_short malloc few]
      rfl
    · rfl
    · rfl

theorem deserializePkt_withEnts {buf : List UInt8} (calm : ¬ AnnouncesDir buf)
    (ents : Option (List Dirent)) (pkt : Packet) :
    deserializePkt malloc buf (pkt.withEnts ents) 0 =
      (deserializePkt malloc buf pkt 0).map (Cursor.onObj (Packet.withEnts ents)) := by
  by_cases enough : 8 ≤ buf.length
  · rw [deserializePkt_eq malloc enough, deserializePkt_eq malloc enough]
    have union : deserializePktUnion malloc buf
          ⟨8, { pkt.withEnts ents with
            mpktMagic := ntohl buf, mpktType := ntohl (buf.drop 4) }, 0⟩ =
        (deserializePktUnion malloc buf
          ⟨8, { pkt with mpktMagic := ntohl buf, mpktType := ntohl (buf.drop 4) }, 0⟩).map
            (Cursor.onObj (Packet.withEnts ents)) := by
      unfold deserializePktUnion
      simp only
      split_ifs with isRequest isResponse isConnect
      · rfl
      · have notDir : ¬ (12 ≤ (buf.drop 8).length ∧ ntohl (buf.drop 8) = mrspDirType) := by
          rintro ⟨there, isDir⟩
          rw [List.length_drop] at there
          exact calm ⟨by omega, isResponse, isDir⟩
        have rsp := deserializeRsp_withEnts malloc notDir ents pkt.mpktResponse
        simp only [Cursor.tryCall, Packet.withEnts, rsp]
        cases deserializeRsp malloc (buf.drop 8) pkt.mpktResponse 0 <;> rfl
      · rfl
      · rfl
    rw [union]
    generalize deserializePktUnion malloc buf _ = answer
    cases answer with
    | error trap => rfl
    | ok s =>
        simp only [Except.map, pktEnd, Cursor.onObj]
        split_ifs <;> rfl
  · rw [deserializePkt_short malloc (Nat.lt_of_not_le enough),
      deserializePkt_short malloc (Nat.lt_of_not_le enough)]
    rfl

end Malloc
end Middfs
