import Middfs.Sizing

/-!
# Encoding at the end of a buffer

`buffer_serialize` calls the encoder with what room there is, and again with as
much as it asked for, until it is enough.  Every call that does not fit asks for
more than it was given, so that this ends, and what a call wrote that did not fit
is not part of the contents.
-/

set_option autoImplicit false

namespace Middfs

open Layout

/-! ## Staying within the buffer -/

/-- Nothing is written at or beyond the end of the buffer. -/
def Within (n : Nat) (s : Emit) : Prop :=
  ∀ write ∈ s.writes, write.2 ≠ [] ∧ write.1 + write.2.length ≤ n

def KeepsWithin (f : Serialize) : Prop := ∀ n s, f n = .ok s → Within n s

def StepWithin (g : Nat → Emit → Except Trap Emit) : Prop :=
  ∀ n s o, Within n s → g n s = .ok o → Within n o

theorem within_none (n : Nat) : Within n Emit.none := fun _ member => nomatch member

theorem KeepsWithin.step {f : Serialize} (stays : KeepsWithin f) :
    StepWithin fun n s => s.call n f := by
  intro n s o before called
  unfold Emit.call at called
  obtain ⟨r, answer, made⟩ := bind_eq_ok called
  cases made
  have after := stays _ _ answer
  rw [sizerem_eq_sub] at after
  intro write member
  rcases List.mem_append.mp member with earlier | later
  · exact before write earlier
  · obtain ⟨inner, found, rfl⟩ := List.mem_map.mp later
    obtain ⟨nonempty, fits⟩ := after inner found
    have positive := List.length_pos_iff.mpr nonempty
    refine ⟨nonempty, ?_⟩
    simp only
    omega

theorem StepWithin.seq {g h : Nat → Emit → Except Trap Emit} (first : StepWithin g)
    (second : StepWithin h) : StepWithin fun n s => g n s >>= h n := by
  intro n s o before done
  obtain ⟨mid, answer, rest⟩ := bind_eq_ok done
  exact second n mid o (first n s mid before answer) rest

theorem stepWithin_pure : StepWithin fun _ s => pure s := by
  intro n s o before same
  cases same
  exact before

theorem stepWithin_error (trap : Trap) : StepWithin fun _ _ => .error trap := by
  intro n s o _ no
  cases no

theorem KeepsWithin.stepIf {f : Serialize} (stays : KeepsWithin f) (cond : Bool) :
    StepWithin fun n s => s.callIf cond n f := by
  cases cond with
  | true => exact stays.step
  | false => exact stepWithin_pure

theorem StepWithin.body {g : Nat → Emit → Except Trap Emit} (step : StepWithin g) {f : Serialize}
    (body : ∀ n, f n = g n Emit.none) : KeepsWithin f := by
  intro n s answer
  rw [body] at answer
  exact step n Emit.none s (within_none n) answer

theorem serializeUint32_within (uint : UInt32) : KeepsWithin (serializeUint32 uint) := by
  intro n s answer
  cases answer
  intro write member
  by_cases fits : 4 ≤ n
  · simp only [if_pos fits, List.mem_singleton] at member
    subst member
    have four : (htonl uint).length = 4 := htonl_length uint
    have positive : 0 < (htonl uint).length := by omega
    refine ⟨List.ne_nil_of_length_pos positive, ?_⟩
    show 0 + (htonl uint).length ≤ n
    omega
  · simp [if_neg fits] at member

theorem serializeUint64_within (uint : UInt64) : KeepsWithin (serializeUint64 uint) :=
  ((serializeUint32_within _).step.seq (serializeUint32_within _).step).body fun _ => rfl

theorem serializeStr_within (str : Option CStr) : KeepsWithin (serializeStr str) := by
  intro n s answer
  cases str with
  | none => cases answer
  | some str =>
      cases answer
      intro write member
      simp only at member
      split_ifs at member with fits
      · rw [List.mem_singleton] at member
        subst member
        refine ⟨by simp, ?_⟩
        unfold smin at fits
        simp only [List.length_append, List.length_singleton]
        split_ifs at fits <;> omega
      · cases member

theorem serializeRsrc_within (rsrc : Rsrc) : KeepsWithin (serializeRsrc rsrc) :=
  ((serializeStr_within rsrc.mrOwner).step.seq (serializeStr_within rsrc.mrPath).step).body
    (fun _ => by simp [serializeRsrc, serializeStruct])

theorem memcpyFrom_length {src : Option (List UInt8)} {k : Nat} {bytes : List UInt8}
    (copied : memcpyFrom src k = .ok bytes) : bytes.length = k := by
  by_cases holds : BytesThere src k
  · rw [memcpyFrom_holds.1 holds] at copied
    cases copied
    exact List.length_take_of_le holds
  · rw [memcpyFrom_holds.2 holds] at copied
    cases copied

theorem serializeRaw_within (src : Option (List UInt8)) (k : Nat) :
    KeepsWithin (serializeRaw src k) := by
  intro n s answer
  unfold serializeRaw at answer
  by_cases fits : n ≥ k
  · rw [if_pos fits] at answer
    obtain ⟨bytes, copied, made⟩ := bind_eq_ok answer
    have length := memcpyFrom_length copied
    cases made
    intro write member
    simp only at member
    split_ifs at member with none
    · cases member
    · rw [List.mem_singleton] at member
      subst member
      have positive : 0 < bytes.length := by omega
      refine ⟨List.ne_nil_of_length_pos positive, ?_⟩
      show 0 + bytes.length ≤ n
      omega
  · rw [if_neg fits] at answer
    cases answer
    exact fun _ member => nomatch member

theorem serializeRequest_within (req : Request) : KeepsWithin (serializeRequest req) := by
  have fixed := ((serializeUint32_within req.mreqType).step.seq
    (serializeStr_within req.mreqRequester).step).seq (serializeRsrc_within req.mreqRsrc).step
  have mode := (serializeUint32_within req.mreqMode.toUInt32).stepIf (reqHasMode req.mreqType)
  have size := (serializeUint64_within (viaInt32 req.mreqSize)).stepIf (reqHasSize req.mreqType)
  have target := (serializeRsrc_within req.mreqTo).stepIf (reqHasTo req.mreqType)
  have off := (serializeUint64_within (viaInt32 req.mreqOff)).stepIf (reqHasOff req.mreqType)
  have data := (serializeRaw_within req.mreqData req.mreqSize.toNat).stepIf (reqHasData req.mreqType)
  have whole := ((((fixed.seq mode).seq size).seq target).seq off).seq data
  exact whole.body fun n => by simp only [serializeRequest, serializeInt32, bind_assoc]

theorem serializeStat_within (st : Stat) : KeepsWithin (serializeStat st) :=
  ((((serializeUint32_within st.mstatMode).step.seq (serializeUint64_within st.mstatSize).step).seq
    (serializeUint64_within st.mstatBlocks).step).seq
    (serializeUint64_within st.mstatBlksize).step).body
    (fun n => by simp only [serializeStat, bind_assoc])

theorem serializeDirent_within (ent : Dirent) : KeepsWithin (serializeDirent ent) :=
  ((serializeStr_within _).step.seq (serializeUint32_within _).step).body fun _ => rfl

theorem serializeDirents_within (count : Nat) (ents : List Dirent) :
    StepWithin fun n s => serializeDirents n count ents s := by
  induction count generalizing ents with
  | zero => exact stepWithin_pure
  | succ count ih =>
      cases ents with
      | nil => exact stepWithin_error .wild
      | cons ent ents => exact (serializeDirent_within ent).step.seq (ih ents)

theorem serializeDir_within (dir : Dir) : KeepsWithin (serializeDir dir) :=
  ((serializeUint64_within _).step.seq (serializeDirents_within _ _)).body fun _ => rfl

theorem serializeData_within (data : Data) : KeepsWithin (serializeData data) :=
  ((serializeUint64_within _).step.seq (serializeRaw_within _ _).step).body fun _ => rfl

theorem serializeRsp_within (rsp : Response) : KeepsWithin (serializeRsp rsp) := by
  intro n s answer
  obtain ⟨typed, called, answer⟩ := bind_eq_ok answer
  have before := (serializeUint32_within _).step n _ _ (within_none n) called
  split_ifs at answer
  · cases answer
    exact before
  · exact (serializeData_within _).step n _ _ before answer
  · exact (serializeStat_within _).step n _ _ before answer
  · exact (serializeDir_within _).step n _ _ before answer
  · exact (serializeUint32_within _).step n _ _ before answer

theorem serializeConnect_within (conn : Connect) : KeepsWithin (serializeConnect conn) :=
  ((serializeUint32_within _).step.seq (serializeStr_within _).step).body fun _ => rfl

theorem serializePkt_within (pkt : Packet) : KeepsWithin (serializePkt pkt) := by
  intro n s answer
  obtain ⟨magic, calledMagic, answer⟩ := bind_eq_ok answer
  obtain ⟨typed, calledType, answer⟩ := bind_eq_ok answer
  have first := (serializeUint32_within _).step n _ _ (within_none n) calledMagic
  have before := (serializeUint32_within _).step n _ _ first calledType
  split_ifs at answer
  · exact (serializeRequest_within _).step n _ _ before answer
  · exact (serializeRsp_within _).step n _ _ before answer
  · exact (serializeConnect_within _).step n _ _ before answer
  · cases answer
    exact before

/-- Writes within the memory go through. -/
theorem storeAll_within {mem : List UInt8} {s : Emit} (within : Within mem.length s) :
    ∃ stored, storeAll mem s.writes = some stored ∧ stored.length = mem.length := by
  obtain ⟨used, writes⟩ := s
  unfold Within at within
  induction writes generalizing mem with
  | nil => exact ⟨mem, rfl, rfl⟩
  | cons write writes ih =>
      have fits := (within write List.mem_cons_self).2
      have one : store mem write =
          some (mem.take write.1 ++ write.2 ++ mem.drop (write.1 + write.2.length)) := if_pos fits
      have length : (mem.take write.1 ++ write.2 ++ mem.drop (write.1 + write.2.length)).length =
          mem.length := by
        simp only [List.length_append, List.length_take, List.length_drop]
        omega
      obtain ⟨stored, rest, same⟩ := @ih (mem.take write.1 ++ write.2 ++
        mem.drop (write.1 + write.2.length)) fun other member => by
          rw [length]
          exact within other (List.mem_cons_of_mem _ member)
      have whole : storeAll mem (write :: writes) =
          (store mem write).bind fun mem => storeAll mem writes := rfl
      exact ⟨stored, by rw [whole, one, Option.bind_some, rest], same.trans length⟩

/-! ## The loop -/

/-- A function that asks for more than it is given by no more than a bound, and
stays within what it is given. -/
structure Modest (f : Serialize) : Prop where
  within : KeepsWithin f
  answers : ∀ n, n < 2 ^ 63 → ∃ s, f n = .ok s ∧ s.used ≤ n + 2 ^ 63

def Granted (realloc : Nat → Bool) (newsize : Nat) : Prop :=
  realloc newsize = true ∧ newsize < 2 ^ 63

theorem bufferResize_granted {realloc : Nat → Bool} {buf : Buffer} {newsize : Nat} :
    Granted realloc newsize ↔ ∃ buf', bufferResize realloc buf newsize = some buf' := by
  unfold bufferResize Granted
  split_ifs with granted
  · exact iff_of_true granted ⟨_, rfl⟩
  · refine iff_of_false granted ?_
    rintro ⟨buf', resized⟩
    cases resized

section Loop
variable {realloc : Nat → Bool} {f : Serialize}

theorem serializerCalls_front (f : Serialize) {fuel : Nat} (positive : 0 < fuel) (rem : Nat) :
    ∃ later, serializerCalls f fuel rem = rem :: later := by
  cases fuel with
  | zero => exact absurd positive (Nat.lt_irrefl 0)
  | succ fuel =>
      unfold serializerCalls
      cases f rem with
      | error trap => exact ⟨[], rfl⟩
      | ok s =>
          simp only
          split_ifs
          · exact ⟨_, rfl⟩
          · exact ⟨[], rfl⟩

/-- What the loop comes to: a reallocation for one of the later calls fails, and
nothing is kept of what was written, or all of them go through, and the last call
fits. -/
theorem bufferSerializeLoop_cases (modest : Modest f) {fuel : Nat} {buf : Buffer}
    (enough : 2 ^ 63 < buf.rem + fuel) :
    (∃ buf', bufferSerializeLoop realloc f fuel buf buf.rem = .ok (buf', none) ∧ Kept buf buf' ∧
        ∃ n ∈ (serializerCalls f fuel buf.rem).tail, ¬ Granted realloc (buf.used + n)) ∨
      ∃ grown s stored, f grown.rem = .ok s ∧ s.used ≤ grown.rem ∧ Kept buf grown ∧
        storeAll (Cell.vals (grown.mem.drop grown.ptr)) s.writes = some stored ∧
        bufferSerializeLoop realloc f fuel buf buf.rem =
          .ok (grown.put (cells stored), some s.used) ∧
        ∀ n ∈ (serializerCalls f fuel buf.rem).tail, Granted realloc (buf.used + n) := by
  induction fuel generalizing buf with
  | zero =>
      have small := buf.small
      unfold Buffer.rem at enough
      omega
  | succ fuel ih =>
      have small := buf.small
      have inside := buf.inside
      have bound : buf.rem < 2 ^ 63 := by
        unfold Buffer.rem
        omega
      obtain ⟨s, answer, most⟩ := modest.answers buf.rem bound
      have memLength : (Cell.vals (buf.mem.drop buf.ptr)).length = buf.rem := by
        rw [Cell.vals_length, List.length_drop, Buffer.rem]
      obtain ⟨stored, done, length⟩ := @storeAll_within (Cell.vals (buf.mem.drop buf.ptr)) s
        (by rw [memLength]; exact modest.within _ _ answer)
      obtain ⟨keptPut, remPut⟩ := buf.put_contents (cells stored)
      have usedPut : (buf.put (cells stored)).used = buf.used := keptPut.ptr
      unfold bufferSerializeLoop serializerCalls
      simp only [answer, done]
      by_cases fits : s.used > buf.rem
      · rw [if_pos fits, if_pos fits]
        have sum : sizeAdd buf.used s.used = buf.used + s.used := by
          apply sizeAdd_of_lt
          unfold Buffer.used Buffer.rem at *
          omega
        rw [usedPut, sum]
        obtain ⟨later, calls⟩ := serializerCalls_front f (by omega : 0 < fuel) s.used
        cases resized : bufferResize realloc (buf.put (cells stored)) (buf.used + s.used) with
        | none =>
            refine Or.inl ⟨_, rfl, keptPut, s.used, ?_, ?_⟩
            · rw [List.tail_cons, calls]
              exact List.mem_cons_self
            · intro granted
              obtain ⟨buf', other⟩ := bufferResize_granted.mp granted
              rw [resized] at other
              cases other
        | some grown =>
            have granted := bufferResize_granted.mpr ⟨grown, resized⟩
            obtain ⟨kept, rem⟩ := bufferResize_kept resized (by rw [usedPut]; omega)
            have remGrown : grown.rem = s.used := by
              rw [rem, usedPut]
              omega
            have all := (keptPut.trans kept)
            have usedGrown : grown.used = buf.used := all.ptr
            have again := @ih grown (by omega)
            rw [remGrown, usedGrown] at again
            simp only [List.tail_cons, calls] at again ⊢
            rcases again with ⟨buf', failed, keptLater, n, member, refused⟩ |
              ⟨last, t, bytes, final, whole, keptLater, written, ended, allGranted⟩
            · exact Or.inl ⟨buf', failed, all.trans keptLater, n, List.mem_cons_of_mem _ member,
                refused⟩
            · refine Or.inr ⟨last, t, bytes, final, whole, all.trans keptLater, written, ended, ?_⟩
              intro n member
              rcases List.mem_cons.mp member with rfl | member
              · exact granted
              · exact allGranted n member
      · rw [if_neg fits, if_neg fits]
        exact Or.inr ⟨buf, s, stored, answer, Nat.le_of_not_lt fits, Kept.refl buf, done, rfl,
          fun n member => absurd member List.not_mem_nil⟩

/-- More iterations than these are never made. -/
theorem bufferSerializeLoop_fuel (modest : Modest f) {fuel : Nat} {buf : Buffer}
    (enough : 2 ^ 63 < buf.rem + fuel) (more : Nat) :
    bufferSerializeLoop realloc f (fuel + more) buf buf.rem =
      bufferSerializeLoop realloc f fuel buf buf.rem := by
  induction fuel generalizing buf with
  | zero =>
      have small := buf.small
      unfold Buffer.rem at enough
      omega
  | succ fuel ih =>
      have small := buf.small
      have inside := buf.inside
      have bound : buf.rem < 2 ^ 63 := by
        unfold Buffer.rem
        omega
      obtain ⟨s, answer, most⟩ := modest.answers buf.rem bound
      rw [Nat.succ_add]
      unfold bufferSerializeLoop
      simp only [answer]
      cases storeAll (Cell.vals (buf.mem.drop buf.ptr)) s.writes with
      | none => rfl
      | some stored =>
          simp only
          obtain ⟨keptPut, remPut⟩ := buf.put_contents (cells stored)
          have usedPut : (buf.put (cells stored)).used = buf.used := keptPut.ptr
          by_cases fits : s.used > buf.rem
          · have sum : sizeAdd buf.used s.used = buf.used + s.used := by
              apply sizeAdd_of_lt
              unfold Buffer.used Buffer.rem at *
              omega
            rw [if_pos fits, if_pos fits, usedPut, sum]
            cases resized : bufferResize realloc (buf.put (cells stored)) (buf.used + s.used) with
            | none => rfl
            | some grown =>
                obtain ⟨_, rem⟩ := bufferResize_kept resized (by rw [usedPut]; omega)
                have remGrown : grown.rem = s.used := by
                  rw [rem, usedPut]
                  omega
                have again := @ih grown (by omega)
                rw [remGrown] at again
                exact again
          · rw [if_neg fits, if_neg fits]

end Loop

/-! ## The length of an encoding -/

theorem Packet.WellFormed.encodable {pkt : Packet} (wf : pkt.WellFormed) : pkt.Encodable := by
  refine ⟨fun request => ?_, fun response => ?_, wf.connect⟩
  · obtain ⟨requester, rsrc, target, data⟩ := wf.request request
    refine ⟨requester, rsrc, target, fun has => ?_⟩
    obtain ⟨bytes, held, length⟩ := data has
    rw [BytesThere, held, Option.getD_some, length]
  · obtain ⟨known, data, dir⟩ := wf.response response
    refine ⟨known, fun isData => ?_, dir⟩
    by_cases none : pkt.mpktResponse.mrspData.mdataNbytes = 0
    · rw [BytesThere, none]
      exact Nat.zero_le _
    · obtain ⟨bytes, held, length⟩ := data isData none
      rw [BytesThere, held, Option.getD_some, length]

theorem strField_size {str : Option CStr} (filled : str.isSome = true) :
    (strField str).size = strSize str := by
  obtain ⟨s, rfl⟩ := Option.isSome_iff_exists.mp filled
  rfl

theorem size_fieldsIf (cond : Bool) (fields : List Field) :
    size (fieldsIf cond fields) = if cond then size fields else 0 := by
  cases cond <;> rfl

theorem Rsrc.size_fields {rsrc : Rsrc} (filled : rsrc.Filled) :
    size [strField rsrc.mrOwner, strField rsrc.mrPath] = rsrc.fieldsSize := by
  simp only [size_cons, size_nil, strField_size filled.1, strField_size filled.2, Rsrc.fieldsSize,
    Nat.add_zero]

theorem Request.size_fields {req : Request} (encodable : req.Encodable) :
    size req.fields = req.fieldsSize := by
  obtain ⟨requester, rsrc, target, _⟩ := encodable
  have toSize : (if reqHasTo req.mreqType = true then
      size [strField req.mreqTo.mrOwner, strField req.mreqTo.mrPath] else 0) =
      if reqHasTo req.mreqType = true then req.mreqTo.fieldsSize else 0 := by
    split_ifs with has
    · exact Rsrc.size_fields (target has)
    · rfl
  simp only [Request.fields, Request.fieldsSize, size_append, size_fieldsIf, toSize,
    Rsrc.size_fields rsrc]
  simp only [size_cons, size_nil, strField_size requester, Field.size_fixed, Nat.add_zero]

theorem Dir.size_fields {dir : Dir} (filled : dir.Filled) :
    size dir.fields = 8 + (dir.entries.map fun ent => strSize ent.mdeName + 4).sum := by
  have each : ∀ ents : List Dirent, (∀ ent ∈ ents, ent.mdeName.isSome = true) →
      size (ents.flatMap Dirent.fields) = (ents.map fun ent => strSize ent.mdeName + 4).sum := by
    intro ents named
    induction ents with
    | nil => rfl
    | cons ent ents ih =>
        rw [List.forall_mem_cons] at named
        rw [List.flatMap_cons, size_append, ih named.2, List.map_cons, List.sum_cons]
        simp only [Dirent.fields, size_cons, size_nil, strField_size named.1, Field.size_fixed,
          Nat.add_zero]
  rw [Dir.fields, size_cons, each dir.entries filled.2]
  rfl

theorem Response.size_fields {rsp : Response} (encodable : rsp.Encodable) :
    size rsp.fields = rsp.fieldsSize := by
  obtain ⟨known, _, dir⟩ := encodable
  have differ : ¬ mrspDataType = mrspDirType ∧ ¬ mrspStatType = mrspDirType := by decide
  unfold Response.fields Response.unionFields Response.fieldsSize
  rcases rspType_cases known with is | is | is | is | is
  all_goals simp only [is, rspTypes_differ, differ, if_true, if_false, size_cons, size_nil,
    Field.size_fixed, Nat.add_zero]
  rw [Dir.size_fields (dir is)]

theorem Packet.size_fields {pkt : Packet} (encodable : pkt.Encodable) :
    size pkt.fields = pkt.fieldsSize := by
  obtain ⟨request, response, connect⟩ := encodable
  unfold Packet.fields Packet.unionFields Packet.fieldsSize
  rw [size_cons, size_cons, Field.size_fixed, ← Nat.add_assoc]
  split_ifs with isRequest isResponse isConnect
  · rw [Request.size_fields (request isRequest)]
  · rw [Response.size_fields (response isResponse)]
  · simp only [size_cons, size_nil, strField_size (connect isConnect), Field.size_fixed, Nat.add_zero]
  · rfl

theorem Packet.WellFormed.size_fields {pkt : Packet} (wf : pkt.WellFormed) :
    size pkt.fields = pkt.image.length := by
  rw [Packet.size_fields wf.encodable, pkt.wire_length_image, wf.wire_length]

/-! ## Appending -/

/-- What is counted of a packet however short the buffer: the numbers, the payload
and a byte for every string. -/
def Packet.bulk (pkt : Packet) : Nat := least pkt.fields

def serializeCalls (pkt : Packet) (buf : Buffer) : List Nat :=
  serializerCalls (serializePkt pkt) (2 ^ 64) buf.rem

/-- `buffer_serialize` comes to an end, and no call of the encoder writes at or
beyond what it was given.  If the reallocations go through, the encoding is
appended and its length returned; if one does not, nothing is appended. -/
structure Appends (realloc : Nat → Bool) (pkt : Packet) (buf : Buffer) : Prop where
  within : ∀ n s, serializePkt pkt n = .ok s → ∀ write ∈ s.writes, write.1 + write.2.length ≤ n
  ends : ∀ more, bufferSerializeLoop realloc (serializePkt pkt) (2 ^ 64 + more) buf buf.rem =
    bufferSerializeLoop realloc (serializePkt pkt) (2 ^ 64) buf buf.rem
  granted : (∀ n ∈ (serializeCalls pkt buf).tail, Granted realloc (buf.used + n)) →
    ∃ bytes buf', Encodes pkt bytes ∧
      bufferSerialize realloc (serializePkt pkt) buf = .ok (buf', some bytes.length) ∧
      buf'.contents = buf.contents ++ cells bytes
  refused : (∃ n ∈ (serializeCalls pkt buf).tail, ¬ Granted realloc (buf.used + n)) →
    ∃ buf', bufferSerialize realloc (serializePkt pkt) buf = .ok (buf', none) ∧
      buf'.contents = buf.contents

theorem serializePkt_modest {pkt : Packet} (wf : pkt.WellFormed) (bulk : pkt.bulk ≤ 2 ^ 63) :
    Modest (serializePkt pkt) where
  within := serializePkt_within pkt
  answers := by
    intro n small
    have bound := counted_le_least n 0 pkt.fields
    unfold Packet.bulk at bulk
    rw [Nat.zero_max] at bound
    obtain ⟨s, answer, used⟩ := (serializePkt_sized pkt).counts wf.encodable n (by omega)
    exact ⟨s, answer, by omega⟩

theorem serializePkt_fits {pkt : Packet} (wf : pkt.WellFormed) (bulk : pkt.bulk ≤ 2 ^ 63) {n : Nat}
    {s : Emit} (small : n < 2 ^ 63) (answer : serializePkt pkt n = .ok s) (fits : s.used ≤ n) :
    s.used = pkt.image.length := by
  have bound := counted_le_least n 0 pkt.fields
  unfold Packet.bulk at bulk
  rw [Nat.zero_max] at bound
  obtain ⟨s', answer', used⟩ := (serializePkt_sized pkt).counts wf.encodable n (by omega)
  rw [answer] at answer'
  cases answer'
  have right := counted_eq_of_le (le_trans (Nat.le_of_eq used.symm) fits)
  rw [used, right, Nat.zero_add, wf.size_fields]

/-- What `buffer_serialize` comes to: a reallocation for one of the later calls
fails and nothing is appended, or all of them go through and the encoding is. -/
theorem bufferSerialize_cases {pkt : Packet} (wf : pkt.WellFormed) (bulk : pkt.bulk ≤ 2 ^ 63)
    (realloc : Nat → Bool) (buf : Buffer) :
    (∃ buf', bufferSerialize realloc (serializePkt pkt) buf = .ok (buf', none) ∧
        buf'.contents = buf.contents ∧
        ∃ n ∈ (serializeCalls pkt buf).tail, ¬ Granted realloc (buf.used + n)) ∨
      ∃ buf', bufferSerialize realloc (serializePkt pkt) buf = .ok (buf', some pkt.image.length) ∧
        buf'.contents = buf.contents ++ cells pkt.image ∧ pkt.image.length < 2 ^ 63 ∧
        ∀ n ∈ (serializeCalls pkt buf).tail, Granted realloc (buf.used + n) := by
  have modest := serializePkt_modest wf bulk
  have enough : 2 ^ 63 < buf.rem + 2 ^ 64 := by omega
  rcases bufferSerializeLoop_cases modest enough with ⟨buf', failed, kept, refused⟩ |
    ⟨grown, s, stored, answer, fits, kept, written, ended, granted⟩
  · exact Or.inl ⟨buf', by rw [bufferSerialize, failed], kept.contents, refused⟩
  · have small : grown.rem < 2 ^ 63 := Nat.lt_of_le_of_lt (Nat.sub_le _ _) grown.small
    have used := serializePkt_fits wf bulk small answer fits
    have encodes := serializePkt_encodes wf (by omega)
    have memLength : (Cell.vals (grown.mem.drop grown.ptr)).length = grown.rem := by
      rw [Cell.vals_length, List.length_drop, Buffer.rem]
    obtain ⟨s', answer', used', written'⟩ := encodes (Cell.vals (grown.mem.drop grown.ptr))
      (by omega)
    rw [memLength, answer] at answer'
    cases answer'
    rw [written] at written'
    have bytes := Option.some.inj written'
    have long : pkt.image.length ≤ (cells stored).length := by
      rw [bytes, cells, List.length_map, List.length_append]
      exact Nat.le_add_right _ _
    have room : pkt.image.length ≤ grown.rem := by omega
    obtain ⟨buf', advanced, contents, _⟩ := @bufferAdvance_put grown _ _ long room
    have front : (cells stored).take pkt.image.length = cells pkt.image := by
      rw [bytes, cells, ← List.map_take, List.take_left, cells]
    refine Or.inr ⟨buf', ?_, ?_, by omega, granted⟩
    · rw [bufferSerialize, ended]
      simp only [used, advanced]
    · rw [contents, front, kept.contents]

/-- Every well-formed packet is appended to any buffer. -/
theorem bufferSerialize_appends {pkt : Packet} (wf : pkt.WellFormed) (bulk : pkt.bulk ≤ 2 ^ 63)
    (realloc : Nat → Bool) (buf : Buffer) : Appends realloc pkt buf := by
  have modest := serializePkt_modest wf bulk
  refine ⟨fun n s answer write member => (serializePkt_within pkt n s answer write member).2,
    bufferSerializeLoop_fuel modest (by omega), ?_, ?_⟩
  · intro granted
    rcases bufferSerialize_cases wf bulk realloc buf with ⟨_, _, _, n, member, refused⟩ |
      ⟨buf', answer, contents, small, _⟩
    · exact absurd (granted n member) refused
    · exact ⟨pkt.image, buf', serializePkt_encodes wf (by omega), answer, contents⟩
  · rintro ⟨n, member, refused⟩
    rcases bufferSerialize_cases wf bulk realloc buf with ⟨buf', failed, kept, _⟩ |
      ⟨_, _, _, _, granted⟩
    · exact ⟨buf', failed, kept⟩
    · exact absurd (granted n member) refused

theorem shortConnect_wellFormed : shortConnect.WellFormed where
  request := fun request => absurd request (by decide)
  response := fun response => absurd response (by decide)
  connect := fun _ => rfl

def startedBuffer : Buffer where
  mem := List.replicate 5 { val := 7 } ++ List.replicate 3 { val := 0 }
  ptr := 5
  inside := by decide
  small := by decide

/-- The packet that takes several calls, behind bytes that are there already, and with a
`realloc` that gives no more than 100 bytes. -/
theorem shortConnect_appends : Appends (fun n => decide (n ≤ 100)) shortConnect startedBuffer :=
  bufferSerialize_appends shortConnect_wellFormed (by decide) _ _

end Middfs
