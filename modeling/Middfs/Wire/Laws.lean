import Middfs.Wire

/-!
# Laws of the wire format

Reading undoes printing, and whatever a reader accepts is the print of what it
returns.  `Codec` says so of a value, `Fills` of the fields a reader sets in an
object that may hold anything before.
-/

set_option autoImplicit false

namespace Middfs

open Prefix

variable {σ α τ : Type}

structure Codec (K : Reader α) (print : α → List UInt8) (ok : α → Prop) : Prop where
  back : ∀ a v rest, ok v → (K a).run (print v ++ rest) = .done v rest
  sound : ∀ a ts v rest, (K a).run ts = .done v rest → ts = print v ++ rest ∧ ok v

/-- `keep a v` is the object `a` with the fields that `K` reads taken from `v`. -/
structure Fills (K : Reader σ) (print : σ → List UInt8) (ok : σ → Prop) (keep : σ → σ → σ) :
    Prop where
  back : ∀ a v rest, ok v → (K a).run (print v ++ rest) = .done (keep a v) rest
  sound : ∀ a ts v rest, (K a).run ts = .done v rest →
    ts = print v ++ rest ∧ ok v ∧ v = keep a v

/-! ## Closure -/

theorem Codec.fill {K : Reader α} {print : α → List UInt8} {ok : α → Prop}
    (codec : Codec K print ok) (get : σ → α) (set : α → σ → σ)
    (getSet : ∀ v o, get (set v o) = v) :
    Fills (fill K get set) (fun o => print (get o)) (fun o => ok (get o))
      (fun a v => set (get v) a) where
  back := by
    intro a v rest filled
    have read := codec.back (get a) (get v) rest filled
    simp only [Middfs.fill, run_bind, read, Res.andThen_done, run_pure]
  sound := by
    intro a ts o rest read
    obtain ⟨v, mid, first, last⟩ := bind_eq_done.mp read
    cases last
    obtain ⟨split, filled⟩ := codec.sound (get a) ts v rest first
    rw [getSet]
    exact ⟨split, filled, rfl⟩

theorem Codec.fillIf {K : Reader α} {print : α → List UInt8} {ok : α → Prop}
    (codec : Codec K print ok) (cond : Bool) (get : σ → α) (set : α → σ → σ)
    (getSet : ∀ v o, get (set v o) = v) (setGet : ∀ o, set (get o) o = o) :
    Fills (fillIf cond K get set) (fun o => onlyIf cond (print (get o)))
      (fun o => cond = true → ok (get o))
      (fun a v => set (if cond then get v else get a) a) := by
  cases cond with
  | true =>
      have fills := codec.fill get set getSet
      constructor
      · intro a v rest filled
        exact fills.back a v rest (filled rfl)
      · intro a ts v rest read
        obtain ⟨split, filled, kept⟩ := fills.sound a ts v rest read
        exact ⟨split, fun _ => filled, kept⟩
  | false =>
      constructor
      · intro a v rest _
        simp only [Bool.false_eq_true, if_false, setGet]
        rfl
      · intro a ts v rest read
        cases read
        simp only [Bool.false_eq_true, if_false, setGet, false_implies]
        exact ⟨rfl, trivial, trivial⟩

/-- One reader after the other, where the fields of the second may depend on a
tag read by the first. -/
theorem Fills.seqTag {K : Reader σ} {L : τ → Reader σ} {p : σ → List UInt8}
    {q : τ → σ → List UInt8} {ok : σ → Prop} {ok' : τ → σ → Prop} {u : σ → σ → σ}
    {u' : τ → σ → σ → σ} (first : Fills K p ok u) (second : ∀ t, Fills (L t) (q t) (ok' t) (u' t))
    (tag : σ → τ) (tagKept : ∀ t a v, tag (u' t a v) = tag a) (tagRead : ∀ a v, tag (u a v) = tag v)
    (printKept : ∀ t a v, p (u' t a v) = p a) (okKept : ∀ t a v, ok (u' t a v) ↔ ok a)
    (keepKept : ∀ t a b v, u a (u' t b v) = u a b) :
    Fills (fun o => K o >>= fun o => L (tag o) o) (fun v => p v ++ q (tag v) v)
      (fun v => ok v ∧ ok' (tag v) v) (fun a v => u' (tag v) (u a v) v) where
  back := by
    intro a v rest filled
    have readFirst := first.back a v (q (tag v) v ++ rest) filled.1
    have readSecond := (second (tag v)).back (u a v) v rest filled.2
    rw [List.append_assoc, run_bind, readFirst, Res.andThen_done, tagRead, readSecond]
  sound := by
    intro a ts o rest read
    obtain ⟨o', mid, readFirst, readSecond⟩ := bind_eq_done.mp read
    obtain ⟨splitFirst, okFirst, keptFirst⟩ := first.sound a ts o' mid readFirst
    obtain ⟨splitSecond, okSecond, keptSecond⟩ := (second (tag o')).sound o' mid o rest readSecond
    have sameTag : tag o = tag o' := by rw [keptSecond, tagKept]
    have samePrint : p o = p o' := by rw [keptSecond, printKept]
    have sameKeep : u a o = o' := by rw [keptSecond, keepKept, ← keptFirst]
    refine ⟨?_, ⟨?_, ?_⟩, ?_⟩
    · rw [splitFirst, splitSecond, samePrint, sameTag, List.append_assoc]
    · rw [keptSecond, okKept]
      exact okFirst
    · rw [sameTag]
      exact okSecond
    · rw [sameKeep, sameTag]
      exact keptSecond

theorem Fills.seq {K L : Reader σ} {p q : σ → List UInt8} {ok ok' : σ → Prop} {u u' : σ → σ → σ}
    (first : Fills K p ok u) (second : Fills L q ok' u') (printKept : ∀ a v, p (u' a v) = p a)
    (okKept : ∀ a v, ok (u' a v) ↔ ok a) (keepKept : ∀ a b v, u a (u' b v) = u a b) :
    Fills (fun o => K o >>= L) (fun v => p v ++ q v) (fun v => ok v ∧ ok' v)
      (fun a v => u' (u a v) v) :=
  first.seqTag (fun _ : Unit => second) (fun _ => ()) (fun _ _ _ => rfl) (fun _ _ => rfl)
    (fun _ => printKept) (fun _ => okKept) (fun _ => keepKept)

/-- A reader that sets every field. -/
theorem Fills.codec {K : Reader α} {print : α → List UInt8} {ok : α → Prop} {keep : α → α → α}
    (fills : Fills K print ok keep) (every : ∀ a v, keep a v = v) : Codec K print ok where
  back := by
    intro a v rest filled
    rw [fills.back a v rest filled, every]
  sound := by
    intro a ts v rest read
    obtain ⟨split, filled, _⟩ := fills.sound a ts v rest read
    exact ⟨split, filled⟩

theorem Codec.congr {K : Reader α} {print print' : α → List UInt8} {ok ok' : α → Prop}
    (codec : Codec K print ok) (samePrint : ∀ v, print v = print' v)
    (sameOk : ∀ v, ok v ↔ ok' v) : Codec K print' ok' where
  back := by
    intro a v rest filled
    rw [← samePrint]
    exact codec.back a v rest ((sameOk v).mpr filled)
  sound := by
    intro a ts v rest read
    obtain ⟨split, filled⟩ := codec.sound a ts v rest read
    exact ⟨by rw [split, samePrint], (sameOk v).mp filled⟩

/-! ## Numbers and strings -/

theorem uint32_codec : Codec readUint32 htonl (fun _ => True) where
  back := by
    intro a v rest _
    have four : (htonl v).length = 4 := BigEndian.toBytes_length 4 v.toNat
    have bound : v.toNat < 256 ^ 4 := v.toNat_lt
    have whole : (htonl v).take 4 = htonl v := List.take_of_length_le (by omega)
    have read : (take 4 : Parser UInt8 Refusal _).run (htonl v ++ rest) = .done (htonl v) rest :=
      take_eq_done.mpr ⟨rfl, four⟩
    simp only [readUint32, run_bind, read, Res.andThen_done, run_pure, ntohl, whole]
    rw [htonl, BigEndian.ofBytes_toBytes_of_lt bound, UInt32.ofNat_toNat]
  sound := by
    intro a ts v rest read
    obtain ⟨bytes, mid, taken, made⟩ := bind_eq_done.mp read
    cases made
    obtain ⟨split, four⟩ := take_eq_done.mp taken
    have bound : BigEndian.ofBytes bytes < 2 ^ 32 := by
      have below := BigEndian.ofBytes_lt bytes
      rw [four] at below
      exact below
    have whole : bytes.take 4 = bytes := List.take_of_length_le (by omega)
    refine ⟨?_, trivial⟩
    rw [split, htonl, ntohl, whole, UInt32.toNat_ofNat_of_lt' bound, ← four,
      BigEndian.toBytes_ofBytes]

theorem int32_codec : Codec readInt32 htonlInt (fun _ => True) where
  back := by
    intro a v rest _
    have read := uint32_codec.back 0 v.toUInt32 rest trivial
    rw [readInt32, htonlInt, run_bind, read]
    rfl
  sound := by
    intro a ts v rest read
    obtain ⟨w, mid, first, made⟩ := bind_eq_done.mp read
    cases made
    obtain ⟨split, _⟩ := uint32_codec.sound 0 ts w rest first
    exact ⟨split, trivial⟩

theorem high_toNat (v : UInt64) : (v >>> 32).toUInt32.toNat = v.toNat / 2 ^ 32 := by
  have bound := v.toNat_lt
  have shift : (32 : UInt64).toNat % 64 = 32 := rfl
  simp only [UInt64.toNat_toUInt32, UInt64.toNat_shiftRight, shift, Nat.shiftRight_eq_div_pow]
  exact Nat.mod_eq_of_lt (by omega)

theorem low_toNat (v : UInt64) : (v &&& 0xffffffff).toUInt32.toNat = v.toNat % 2 ^ 32 := by
  have mask : (0xffffffff : UInt64).toNat = 2 ^ 32 - 1 := rfl
  simp only [UInt64.toNat_toUInt32, UInt64.toNat_and, mask, Nat.and_two_pow_sub_one_eq_mod,
    Nat.mod_mod]

theorem uint64_codec : Codec readUint64 htonll (fun _ => True) where
  back := by
    intro a v rest _
    have high := uint32_codec.back 0 (v >>> 32).toUInt32
      (htonl (v &&& 0xffffffff).toUInt32 ++ rest) trivial
    have low := uint32_codec.back 0 (v &&& 0xffffffff).toUInt32 rest trivial
    have sum : UInt64.ofNat
        ((v >>> 32).toUInt32.toNat * 2 ^ 32 + (v &&& 0xffffffff).toUInt32.toNat) = v := by
      rw [high_toNat, low_toNat, Nat.mul_comm, Nat.div_add_mod, UInt64.ofNat_toNat]
    simp only [readUint64, htonll, List.append_assoc, run_bind, high, low, Res.andThen_done,
      run_pure, sum]
  sound := by
    intro a ts v rest read
    obtain ⟨high, mid, readHigh, tail⟩ := bind_eq_done.mp read
    obtain ⟨low, last, readLow, made⟩ := bind_eq_done.mp tail
    cases made
    obtain ⟨splitHigh, _⟩ := uint32_codec.sound 0 ts high mid readHigh
    obtain ⟨splitLow, _⟩ := uint32_codec.sound 0 mid low rest readLow
    have highBound := high.toNat_lt
    have lowBound := low.toNat_lt
    have whole : (UInt64.ofNat (high.toNat * 2 ^ 32 + low.toNat)).toNat =
        high.toNat * 2 ^ 32 + low.toNat := by
      rw [UInt64.toNat_ofNat']
      omega
    have highBack :
        (UInt64.ofNat (high.toNat * 2 ^ 32 + low.toNat) >>> 32).toUInt32 = high := by
      rw [← UInt32.toNat_inj, high_toNat, whole]
      omega
    have lowBack :
        (UInt64.ofNat (high.toNat * 2 ^ 32 + low.toNat) &&& 0xffffffff).toUInt32 = low := by
      rw [← UInt32.toNat_inj, low_toNat, whole]
      omega
    exact ⟨by rw [splitHigh, splitLow, htonll, highBack, lowBack, List.append_assoc], trivial⟩

theorem str_codec : Codec readStr strWire (fun s => s.isSome) where
  back := by
    intro a v rest filled
    obtain ⟨s, rfl⟩ := Option.isSome_iff_exists.mp filled
    have read : (line 0 : Parser UInt8 Refusal _).run (s.val ++ 0 :: rest) = .done s rest :=
      run_line_append 0 s rest
    simp only [readStr, strWire, List.append_assoc, List.singleton_append, run_bind, read,
      Res.andThen_done, run_pure]
  sound := by
    intro a ts v rest read
    obtain ⟨s, mid, first, made⟩ := bind_eq_done.mp read
    cases made
    refine ⟨?_, rfl⟩
    rw [line_eq_done.mp first, strWire, List.append_assoc, List.singleton_append]

theorem rsrc_codec : Codec readRsrc Rsrc.wire Rsrc.Filled :=
  ((str_codec.fill Rsrc.mrOwner _ (fun _ _ => rfl)).seq
    (str_codec.fill Rsrc.mrPath _ (fun _ _ => rfl))
    (fun _ _ => rfl) (fun _ _ => Iff.rfl) (fun _ _ _ => rfl)).codec (fun _ _ => rfl)

theorem dirent_codec : Codec readDirent Dirent.wire (fun ent => ent.mdeName.isSome) :=
  ((str_codec.fill Dirent.mdeName _ (fun _ _ => rfl)).seq
    (int32_codec.fill Dirent.mdeMode _ (fun _ _ => rfl))
    (fun _ _ => rfl) (fun _ _ => Iff.rfl) (fun _ _ _ => rfl)).codec (fun _ _ => rfl)
    |>.congr (fun _ => rfl) (fun _ => and_iff_left trivial)

theorem connect_codec : Codec readConnect Connect.wire (fun conn => conn.name.isSome) :=
  ((uint32_codec.fill Connect.port _ (fun _ _ => rfl)).seq
    (str_codec.fill Connect.name _ (fun _ _ => rfl))
    (fun _ _ => rfl) (fun _ _ => Iff.rfl) (fun _ _ _ => rfl)).codec (fun _ _ => rfl)
    |>.congr (fun _ => rfl) (fun _ => and_iff_right trivial)

theorem stat_codec : Codec readStat Stat.wire (fun _ => True) :=
  ((((uint32_codec.fill Stat.mstatMode _ (fun _ _ => rfl)).seq
    (uint64_codec.fill Stat.mstatSize _ (fun _ _ => rfl))
    (fun _ _ => rfl) (fun _ _ => Iff.rfl) (fun _ _ _ => rfl)).seq
    (uint64_codec.fill Stat.mstatBlocks _ (fun _ _ => rfl))
    (fun _ _ => rfl) (fun _ _ => Iff.rfl) (fun _ _ _ => rfl)).seq
    (uint64_codec.fill Stat.mstatBlksize _ (fun _ _ => rfl))
    (fun _ _ => rfl) (fun _ _ => Iff.rfl) (fun _ _ _ => rfl)).codec (fun _ _ => rfl)
    |>.congr (fun _ => rfl) (fun _ => by simp)

/-! ## Requests -/

def Request.bare (req : Request) : Request := { req.live with mreqData := none }

def Request.headFilled (req : Request) : Prop :=
  req.mreqRequester.isSome ∧ req.mreqRsrc.Filled ∧
    (reqHasTo req.mreqType = true → req.mreqTo.Filled)

def Request.keepShared (a v : Request) : Request :=
  { a with mreqType := v.mreqType, mreqRequester := v.mreqRequester, mreqRsrc := v.mreqRsrc }

def Request.keepFields (type : UInt32) (a v : Request) : Request :=
  { a with
    mreqMode := if reqHasMode type then v.mreqMode else a.mreqMode
    mreqSize := if reqHasSize type then v.mreqSize else a.mreqSize
    mreqTo := if reqHasTo type then v.mreqTo else a.mreqTo
    mreqOff := if reqHasOff type then v.mreqOff else a.mreqOff }

theorem requestShared_fills :
    Fills readRequestShared
      (fun req => htonl req.mreqType ++ strWire req.mreqRequester ++ req.mreqRsrc.wire)
      (fun req => (True ∧ req.mreqRequester.isSome) ∧ req.mreqRsrc.Filled) Request.keepShared :=
  ((uint32_codec.fill Request.mreqType _ (fun _ _ => rfl)).seq
    (str_codec.fill Request.mreqRequester _ (fun _ _ => rfl))
    (fun _ _ => rfl) (fun _ _ => Iff.rfl) (fun _ _ _ => rfl)).seq
    (rsrc_codec.fill Request.mreqRsrc _ (fun _ _ => rfl))
    (fun _ _ => rfl) (fun _ _ => Iff.rfl) (fun _ _ _ => rfl)

theorem requestFields_fills (type : UInt32) :
    Fills (readRequestFields type)
      (fun req => onlyIf (reqHasMode type) (htonlInt req.mreqMode) ++
        onlyIf (reqHasSize type) (htonll req.mreqSize) ++
        onlyIf (reqHasTo type) req.mreqTo.wire ++ onlyIf (reqHasOff type) (htonll req.mreqOff))
      (fun req => (((reqHasMode type = true → True) ∧ (reqHasSize type = true → True)) ∧
        (reqHasTo type = true → req.mreqTo.Filled)) ∧ (reqHasOff type = true → True))
      (Request.keepFields type) :=
  (((int32_codec.fillIf _ Request.mreqMode _ (fun _ _ => rfl) (fun _ => rfl)).seq
    (uint64_codec.fillIf _ Request.mreqSize _ (fun _ _ => rfl) (fun _ => rfl))
    (fun _ _ => rfl) (fun _ _ => Iff.rfl) (fun _ _ _ => rfl)).seq
    (rsrc_codec.fillIf _ Request.mreqTo _ (fun _ _ => rfl) (fun _ => rfl))
    (fun _ _ => rfl) (fun _ _ => Iff.rfl) (fun _ _ _ => rfl)).seq
    (uint64_codec.fillIf _ Request.mreqOff _ (fun _ _ => rfl) (fun _ => rfl))
    (fun _ _ => rfl) (fun _ _ => Iff.rfl) (fun _ _ _ => rfl)

/-- The object `a` with the fields of the request `v` that are on the wire. -/
def Request.keep (a v : Request) : Request := (a.keepShared v).keepFields v.mreqType v

theorem requestHead_fills :
    Fills readRequestHead Request.wireHead Request.headFilled Request.keep := by
  have fills := requestShared_fills.seqTag requestFields_fills Request.mreqType
    (fun _ _ _ => rfl) (fun _ _ => rfl) (fun _ _ _ => rfl) (fun _ _ _ => Iff.rfl)
    (fun _ _ _ _ => rfl)
  constructor
  · intro a v rest filled
    have read := fills.back a v rest (by simpa [Request.headFilled, and_assoc] using filled)
    simp only [List.append_assoc] at read
    simp only [Request.wireHead, List.append_assoc]
    exact read
  · intro a ts v rest read
    obtain ⟨split, filled, kept⟩ := fills.sound a ts v rest read
    refine ⟨?_, by simpa [Request.headFilled, and_assoc] using filled, kept⟩
    simpa only [Request.wireHead, List.append_assoc] using split

theorem if_same_cond {c : Prop} [Decidable c] (x y z : α) :
    (if c then (if c then x else y) else z) = if c then x else z := by
  split <;> rfl

theorem Request.keep_bare (a v : Request) : (a.keep v).bare = v.bare := by
  simp only [Request.bare, Request.live, Request.mk.injEq]
  exact ⟨rfl, rfl, rfl, if_same_cond _ _ _, if_same_cond _ _ _, if_same_cond _ _ _,
    if_same_cond _ _ _, trivial⟩

/-! ## Responses -/

theorem entries_of_append {count : UInt64} {vs more : List Dirent}
    (whole : vs.length = count.toNat) :
    (⟨count, some (vs ++ more)⟩ : Dir).entries = vs := by
  simp only [Dir.entries, Option.getD_some, ← whole, List.take_left]

/-- An object whose array has room for `count` entries, or gets a new one. -/
def Dir.Grants (malloc : Nat → Bool) (a : Dir) (count : UInt64) (arr : List Dirent) : Prop :=
  direntArray malloc { a with mdirCount := count } = some arr

theorem readDir_back {malloc : Nat → Bool} {a v : Dir} {arr : List Dirent} (filled : v.Filled)
    (granted : a.Grants malloc v.mdirCount arr) (rest : List UInt8) :
    (readDir malloc a).run (v.wire ++ rest) =
      .done ⟨v.mdirCount, some (v.entries ++ arr.drop v.mdirCount.toNat)⟩ rest := by
  have count := (uint64_codec.fill Dir.mdirCount (fun v dir => { dir with mdirCount := v }) (fun _ _ => rfl)).back a v
      (v.entries.flatMap Dirent.wire ++ rest) trivial
  have ents := run_times_flatMap (readDirent {}) Dirent.wire v.entries
    (fun ent found rest => dirent_codec.back {} ent rest (filled.2 ent found)) rest
  rw [filled.1] at ents
  simp only [readDir, Dir.wire, List.append_assoc, run_bind, count, Res.andThen_done]
  rw [show direntArray malloc _ = some arr from granted]
  simp only [run_bind, ents, Res.andThen_done, run_pure]

theorem readDir_sound {malloc : Nat → Bool} {a o : Dir} {ts rest : List UInt8}
    (read : (readDir malloc a).run ts = .done o rest) :
    ts = o.wire ++ rest ∧ o.Filled ∧ ∃ arr, a.Grants malloc o.mdirCount arr ∧
      o.mdirEnts = some (o.entries ++ arr.drop o.mdirCount.toNat) := by
  obtain ⟨counted, mid, readCount, tail⟩ := bind_eq_done.mp read
  obtain ⟨split, _, kept⟩ := (uint64_codec.fill Dir.mdirCount (fun v dir => { dir with mdirCount := v }) (fun _ _ => rfl)).sound a ts counted mid
      readCount
  cases held : direntArray malloc counted with
  | none => simp [held] at tail
  | some arr =>
      simp only [held] at tail
      obtain ⟨vs, last, readEnts, made⟩ := bind_eq_done.mp tail
      cases made
      have whole := times_length (readDirent {}) _ readEnts
      obtain ⟨splitEnts, named⟩ := times_split (readDirent {}) Dirent.wire
        (fun ent => ent.mdeName.isSome) (fun ts v rest => dirent_codec.sound {} ts v rest) _ readEnts
      have entries := @entries_of_append _ _ (arr.drop counted.mdirCount.toNat) whole
      refine ⟨?_, ⟨?_, ?_⟩, arr, ?_, ?_⟩
      · rw [split, splitEnts, Dir.wire, entries, List.append_assoc]
      · rw [entries]
        exact whole
      · rw [entries]
        exact named
      · rw [Dir.Grants, ← held, kept]
      · rw [entries]

def Response.bare (rsp : Response) : Response :=
  { rsp with mrspData := { rsp.mrspData with mdataBuf := none } }.live

structure Response.HeadFilled (rsp : Response) : Prop where
  known : rsp.mrspType ≤ mrspErrorType
  dir : rsp.mrspType = mrspDirType → rsp.mrspDir.Filled

def Response.Grants (malloc : Nat → Bool) (a v : Response) : Prop :=
  v.mrspType = mrspDirType → ∃ arr, a.mrspDir.Grants malloc v.mrspDir.mdirCount arr

theorem rspType_fills :
    Fills (fill readInt32 Response.typeInt32 Response.setTypeInt32)
      (fun rsp => htonl rsp.mrspType) (fun _ => True)
      (fun a v => { a with mrspType := v.mrspType }) :=
  int32_codec.fill Response.typeInt32 Response.setTypeInt32 (fun _ _ => rfl)

theorem rspType_cases {type : UInt32} (known : type ≤ mrspErrorType) :
    type = mrspOk ∨ type = mrspDataType ∨ type = mrspStatType ∨ type = mrspDirType ∨
      type = mrspErrorType := by
  have bound : type.toNat ≤ 4 := known
  simp only [← UInt32.toNat_inj]
  have values : mrspOk.toNat = 0 ∧ mrspDataType.toNat = 1 ∧ mrspStatType.toNat = 2 ∧
      mrspDirType.toNat = 3 ∧ mrspErrorType.toNat = 4 := ⟨rfl, rfl, rfl, rfl, rfl⟩
  omega

theorem Response.bare_congr {w v : Response} (type : w.mrspType = v.mrspType)
    (data : v.mrspType = mrspDataType → w.mrspData.mdataNbytes = v.mrspData.mdataNbytes)
    (stat : v.mrspType = mrspStatType → w.mrspStat = v.mrspStat)
    (dir : v.mrspType = mrspDirType →
      w.mrspDir.mdirCount = v.mrspDir.mdirCount ∧ w.mrspDir.entries = v.mrspDir.entries)
    (error : v.mrspType = mrspErrorType → w.mrspError = v.mrspError) : w.bare = v.bare := by
  simp only [Response.bare, Response.live, type, Option.map_none]
  split
  · rename_i isData
    rw [data isData]
  split
  · rename_i isStat
    rw [stat isStat]
  split
  · rename_i isDir
    have same : ({ w with mrspData := { w.mrspData with mdataBuf := none } } : Response).mrspDir =
      w.mrspDir := rfl
    rw [(dir isDir).1, (dir isDir).2]
  split
  · rename_i isError
    rw [error isError]
  · rfl

theorem rspTypes_differ :
    (mrspOk = mrspDataType ↔ False) ∧ (mrspOk = mrspStatType ↔ False) ∧
      (mrspOk = mrspDirType ↔ False) ∧ (mrspOk = mrspErrorType ↔ False) ∧
      (mrspDataType = mrspOk ↔ False) ∧ (mrspStatType = mrspOk ↔ False) ∧
      (mrspDirType = mrspOk ↔ False) ∧ (mrspErrorType = mrspOk ↔ False) ∧
      (mrspStatType = mrspDataType ↔ False) ∧ (mrspDirType = mrspDataType ↔ False) ∧
      (mrspErrorType = mrspDataType ↔ False) ∧ (mrspDirType = mrspStatType ↔ False) ∧
      (mrspErrorType = mrspStatType ↔ False) ∧ (mrspErrorType = mrspDirType ↔ False) := by
  decide

theorem readRspUnion_back {malloc : Nat → Bool} {a v : Response} (filled : v.HeadFilled)
    (granted : a.Grants malloc v) (same : a.mrspType = v.mrspType) (rest : List UInt8) :
    ∃ w, (readRspUnion malloc a).run (v.wireUnion ++ rest) = .done w rest ∧ w.bare = v.bare := by
  unfold readRspUnion Response.wireUnion
  rcases rspType_cases filled.known with type | type | type | type | type
  all_goals simp only [same, type, rspTypes_differ, if_true, if_false]
  · refine ⟨a, rfl, Response.bare_congr same ?_ ?_ ?_ ?_⟩ <;>
      exact fun other => absurd (type.symm.trans other) (by decide)
  · have read := uint64_codec.back a.mrspData.mdataNbytes v.mrspData.mdataNbytes rest trivial
    refine ⟨{ a with mrspData := { a.mrspData with mdataNbytes := v.mrspData.mdataNbytes } }, ?_,
      Response.bare_congr same (fun _ => rfl) ?_ ?_ ?_⟩
    · exact fill_eq_done.mpr ⟨_, fill_eq_done.mpr ⟨_, read, rfl⟩, rfl⟩
    all_goals exact fun other => absurd (type.symm.trans other) (by decide)
  · have read := stat_codec.back a.mrspStat v.mrspStat rest trivial
    refine ⟨{ a with mrspStat := v.mrspStat }, ?_,
      Response.bare_congr same ?_ (fun _ => rfl) ?_ ?_⟩
    · exact fill_eq_done.mpr ⟨_, read, rfl⟩
    all_goals exact fun other => absurd (type.symm.trans other) (by decide)
  · obtain ⟨arr, held⟩ := granted type
    have counted := filled.dir type
    have read := readDir_back counted held rest
    refine ⟨{ a with mrspDir := (⟨v.mrspDir.mdirCount,
        some (v.mrspDir.entries ++ arr.drop v.mrspDir.mdirCount.toNat)⟩ : Dir) }, ?_,
      Response.bare_congr same ?_ ?_ (fun _ => ⟨rfl, entries_of_append counted.1⟩) ?_⟩
    · exact fill_eq_done.mpr ⟨_, read, rfl⟩
    all_goals exact fun other => absurd (type.symm.trans other) (by decide)
  · have read := int32_codec.back a.mrspError v.mrspError rest trivial
    refine ⟨{ a with mrspError := v.mrspError }, ?_,
      Response.bare_congr same ?_ ?_ ?_ (fun _ => rfl)⟩
    · exact fill_eq_done.mpr ⟨_, read, rfl⟩
    all_goals exact fun other => absurd (type.symm.trans other) (by decide)

theorem readRspUnion_sound {malloc : Nat → Bool} {a o : Response} {ts rest : List UInt8}
    (read : (readRspUnion malloc a).run ts = .done o rest) :
    ts = o.wireUnion ++ rest ∧ o.HeadFilled ∧ o.mrspType = a.mrspType ∧
      (o.mrspType = mrspDirType → ∃ arr, a.mrspDir.Grants malloc o.mrspDir.mdirCount arr ∧
        o.mrspDir.mdirEnts =
          some (o.mrspDir.entries ++ arr.drop o.mrspDir.mdirCount.toNat)) := by
  unfold readRspUnion at read
  split at read
  · rename_i type
    cases read
    refine ⟨?_, ⟨?_, ?_⟩, rfl, ?_⟩
    · rw [Response.wireUnion, if_pos type, List.nil_append]
    · rw [type]
      decide
    · exact fun other => absurd (type.symm.trans other) (by decide)
    · exact fun other => absurd (type.symm.trans other) (by decide)
  rename_i notOk
  split at read
  · rename_i type
    obtain ⟨data, head, rfl⟩ := fill_eq_done.mp read
    obtain ⟨count, countRead, rfl⟩ := fill_eq_done.mp head
    obtain ⟨split, _⟩ := uint64_codec.sound _ _ _ _ countRead
    refine ⟨?_, ⟨?_, ?_⟩, rfl, ?_⟩
    · simp only [Response.wireUnion]
      rw [if_neg notOk, if_pos type, split]
    · simp only [type]
      decide
    · exact fun other => absurd (type.symm.trans other) (by decide)
    · exact fun other => absurd (type.symm.trans other) (by decide)
  rename_i notData
  split at read
  · rename_i type
    obtain ⟨st, head, rfl⟩ := fill_eq_done.mp read
    obtain ⟨split, _⟩ := stat_codec.sound _ _ _ _ head
    refine ⟨?_, ⟨?_, ?_⟩, rfl, ?_⟩
    · simp only [Response.wireUnion]
      rw [if_neg notOk, if_neg notData, if_pos type, split]
    · simp only [type]
      decide
    · exact fun other => absurd (type.symm.trans other) (by decide)
    · exact fun other => absurd (type.symm.trans other) (by decide)
  rename_i notStat
  split at read
  · rename_i type
    obtain ⟨dir, head, rfl⟩ := fill_eq_done.mp read
    obtain ⟨split, filled, arr, held, ents⟩ := readDir_sound head
    refine ⟨?_, ⟨?_, fun _ => filled⟩, rfl, fun _ => ⟨arr, held, ents⟩⟩
    · simp only [Response.wireUnion]
      rw [if_neg notOk, if_neg notData, if_neg notStat, if_pos type, split]
    · simp only [type]
      decide
  rename_i notDir
  split at read
  · rename_i type
    obtain ⟨error, head, rfl⟩ := fill_eq_done.mp read
    obtain ⟨split, _⟩ := int32_codec.sound _ _ _ _ head
    refine ⟨?_, ⟨?_, fun other => absurd other notDir⟩, rfl, fun other => absurd other notDir⟩
    · simp only [Response.wireUnion]
      rw [if_neg notOk, if_neg notData, if_neg notStat, if_neg notDir, split]
    · simp only [type]
      decide
  · cases read

end Middfs
