import Middfs.Wire.Laws
import Middfs.Lib.Serialize

/-!
# What the encoder puts into a buffer

`Emits f bytes`: with room for `bytes`, `f` writes exactly them, back to back
from the start of the buffer, and returns their number; with less room it
writes a prefix that fits and returns a number that is too large for the room.
`serializePkt_emits` says so of whole packets.
-/

set_option autoImplicit false

namespace Middfs

/-- Writes that follow each other without a gap, from `off` on. -/
inductive Contig : Nat → List (Nat × List UInt8) → List UInt8 → Prop
  | nil (off : Nat) : Contig off [] []
  | cons {off : Nat} {bytes rest : List UInt8} {ws : List (Nat × List UInt8)} :
      bytes ≠ [] → Contig (off + bytes.length) ws rest →
        Contig off ((off, bytes) :: ws) (bytes ++ rest)

structure Emitted (n : Nat) (s : Emit) (bytes written : List UInt8) : Prop where
  contig : Contig 0 s.writes written
  front : written <+: bytes
  room : written.length ≤ n
  fits : bytes.length ≤ n → s.used = bytes.length ∧ written = bytes
  short : n < bytes.length → n < s.used ∧ s.used ≤ bytes.length

def Emits (f : Serialize) (bytes : List UInt8) : Prop :=
  bytes.length < 2 ^ 64 → ∀ n, ∃ s written, f n = .ok s ∧ Emitted n s bytes written

/-! ## Sequencing -/

theorem Contig.shift {off : Nat} {ws : List (Nat × List UInt8)} {bytes : List UInt8} (k : Nat)
    (contig : Contig off ws bytes) :
    Contig (k + off) (ws.map fun w => (k + w.1, w.2)) bytes := by
  induction contig with
  | nil off => exact .nil _
  | cons nonempty _ ih =>
      rw [← Nat.add_assoc] at ih
      exact .cons nonempty ih

theorem Contig.append {off : Nat} {ws vs : List (Nat × List UInt8)} {bytes rest : List UInt8}
    (first : Contig off ws bytes) (second : Contig (off + bytes.length) vs rest) :
    Contig off (ws ++ vs) (bytes ++ rest) := by
  induction first with
  | nil off => simpa using second
  | cons nonempty _ ih =>
      rw [List.length_append, ← Nat.add_assoc] at second
      rw [List.append_assoc]
      exact .cons nonempty (ih second)

theorem Contig.eq_nil {off : Nat} {ws : List (Nat × List UInt8)} (contig : Contig off ws []) :
    ws = [] := by
  generalize made : ([] : List UInt8) = bytes at contig
  cases contig with
  | nil => rfl
  | cons nonempty _ =>
      obtain ⟨rfl, _⟩ := List.append_eq_nil_iff.mp made.symm
      exact absurd rfl nonempty

theorem emitted_none (n : Nat) : Emitted n Emit.none [] [] where
  contig := .nil 0
  front := List.prefix_rfl
  room := Nat.zero_le n
  fits := fun _ => ⟨rfl, rfl⟩
  short := fun impossible => absurd impossible (Nat.not_lt_zero n)

theorem Emitted.call {n : Nat} {s : Emit} {bytes written more : List UInt8} {f : Serialize}
    (emitted : Emitted n s bytes written) (emits : Emits f more)
    (small : (bytes ++ more).length < 2 ^ 64) :
    ∃ o written', s.call n f = .ok o ∧ Emitted n o (bytes ++ more) written' := by
  rw [List.length_append] at small
  obtain ⟨r, tail, answer, emittedTail⟩ := emits (by omega) (n - s.used)
  have called : s.call n f =
      .ok ⟨sizeAdd s.used r.used, s.writes ++ r.writes.map fun w => (s.used + w.1, w.2)⟩ := by
    simp only [Emit.call, sizerem_eq_sub, answer]
    rfl
  have roomTail := emittedTail.room
  by_cases enough : bytes.length ≤ n
  · obtain ⟨used, rfl⟩ := emitted.fits enough
    rw [used] at emittedTail called
    have contigTail := emittedTail.contig.shift written.length
    refine ⟨_, written ++ tail, called, ?_, ?_, ?_, ?_, ?_⟩
    · exact emitted.contig.append (by simpa using contigTail)
    · exact (List.prefix_append_right_inj written).mpr emittedTail.front
    · rw [List.length_append]
      omega
    · intro whole
      rw [List.length_append] at whole
      obtain ⟨usedTail, same⟩ := emittedTail.fits (by omega)
      rw [List.length_append, same]
      exact ⟨by simp only [usedTail, sizeAdd_of_lt small], rfl⟩
    · intro short
      rw [List.length_append] at short ⊢
      obtain ⟨above, below⟩ := emittedTail.short (by omega)
      have sum := sizeAdd_of_lt (a := written.length) (b := r.used) (by omega)
      simp only [sum]
      omega
  · obtain ⟨above, below⟩ := emitted.short (by omega)
    have nothing : tail = [] := List.length_eq_zero_iff.mp (by omega)
    subst nothing
    have silent := emittedTail.contig.eq_nil
    have usedTail : r.used ≤ more.length := by
      by_cases empty : more.length = 0
      · have := (emittedTail.fits (by omega)).1
        omega
      · exact (emittedTail.short (by omega)).2
    have sum := sizeAdd_of_lt (a := s.used) (b := r.used) (by omega)
    refine ⟨_, written, called, ?_, ?_, emitted.room, ?_, ?_⟩
    · simpa [silent] using emitted.contig
    · exact emitted.front.trans (List.prefix_append bytes more)
    · intro whole
      rw [List.length_append] at whole
      omega
    · intro _
      rw [List.length_append]
      simp only [sum]
      omega

def Continues (g : Nat → Emit → Except Trap Emit) (more : List UInt8) : Prop :=
  ∀ n s bytes written, Emitted n s bytes written → (bytes ++ more).length < 2 ^ 64 →
    ∃ o written', g n s = .ok o ∧ Emitted n o (bytes ++ more) written'

theorem Emits.continues {f : Serialize} {more : List UInt8} (emits : Emits f more) :
    Continues (fun n s => s.call n f) more := fun _ _ _ _ emitted small =>
  emitted.call emits small

theorem Continues.seq {g h : Nat → Emit → Except Trap Emit} {more last : List UInt8}
    (first : Continues g more) (second : Continues h last) :
    Continues (fun n s => g n s >>= h n) (more ++ last) := by
  intro n s bytes written emitted small
  rw [← List.append_assoc] at small ⊢
  have part : (bytes ++ more).length < 2 ^ 64 := by
    rw [List.length_append] at small
    omega
  obtain ⟨o, written', answer, emitted'⟩ := first n s bytes written emitted part
  obtain ⟨o', last', answer', emitted''⟩ := second n o _ written' emitted' small
  exact ⟨o', last', by simp only [answer]; exact answer', emitted''⟩

theorem continues_callIf {f : Serialize} {more : List UInt8} (cond : Bool)
    (emits : cond = true → Emits f more) :
    Continues (fun n s => s.callIf cond n f) (onlyIf cond more) := by
  cases cond with
  | true => exact (emits rfl).continues
  | false =>
      intro n s bytes written emitted _
      refine ⟨s, written, rfl, ?_⟩
      simpa [onlyIf] using emitted

theorem Continues.emits {g : Nat → Emit → Except Trap Emit} {bytes : List UInt8}
    (continues : Continues g bytes) {f : Serialize} (body : ∀ n, f n = g n Emit.none) :
    Emits f bytes := by
  intro small n
  rw [body]
  exact continues n Emit.none [] [] (emitted_none n) small

/-! ## Fields -/

theorem emitted_write (n used : Nat) {bytes : List UInt8} (nonempty : bytes ≠ [])
    (fits : bytes.length ≤ n → used = bytes.length)
    (short : n < bytes.length → n < used ∧ used ≤ bytes.length) :
    ∃ written, Emitted n ⟨used, if bytes.length ≤ n then [(0, bytes)] else []⟩ bytes written := by
  by_cases enough : bytes.length ≤ n
  · refine ⟨bytes, ?_, List.prefix_rfl, enough, fun _ => ⟨fits enough, rfl⟩, short⟩
    rw [if_pos enough]
    simpa using Contig.cons nonempty (Contig.nil _)
  · refine ⟨[], ?_, List.nil_prefix, Nat.zero_le n, fun whole => absurd whole enough, short⟩
    rw [if_neg enough]
    exact .nil 0

theorem serializeUint32_emits (uint : UInt32) : Emits (serializeUint32 uint) (htonl uint) := by
  intro _ n
  have four : (htonl uint).length = 4 := BigEndian.toBytes_length 4 uint.toNat
  have nonempty : htonl uint ≠ [] := fun empty => by simp [empty] at four
  obtain ⟨written, emitted⟩ := emitted_write n 4 nonempty (fun _ => four.symm)
    (fun short => by omega)
  rw [four] at emitted
  exact ⟨_, written, rfl, emitted⟩

theorem serializeInt32_emits (int32 : Int32) : Emits (serializeInt32 int32) (htonlInt int32) :=
  serializeUint32_emits int32.toUInt32

theorem serializeUint64_emits (uint : UInt64) : Emits (serializeUint64 uint) (htonll uint) :=
  ((serializeUint32_emits _).continues.seq (serializeUint32_emits _).continues).emits
    (fun _ => rfl)

theorem serializeStr_emits {str : Option CStr} (filled : str.isSome) :
    Emits (serializeStr str) (strWire str) := by
  obtain ⟨s, rfl⟩ := Option.isSome_iff_exists.mp filled
  intro small n
  have length : (strWire (some s)).length = s.val.length + 1 := by simp [strWire]
  rw [length] at small
  have least : smin s.val.length n = min s.val.length n := by
    unfold smin
    split <;> omega
  have sum : sizeAdd (smin s.val.length n) 1 = min s.val.length n + 1 := by
    rw [least, sizeAdd_of_lt (by omega)]
  obtain ⟨written, emitted⟩ := emitted_write n (sizeAdd (smin s.val.length n) 1)
    (show strWire (some s) ≠ [] by simp [strWire]) (fun whole => by rw [sum]; omega) (fun short => by rw [sum]; omega)
  have same : (smin s.val.length n < n) ↔ (strWire (some s)).length ≤ n := by
    rw [least, length]
    omega
  refine ⟨_, written, ?_, emitted⟩
  simp only [serializeStr, same]
  rfl

theorem serializeRsrc_emits {rsrc : Rsrc} (filled : rsrc.Filled) :
    Emits (serializeRsrc rsrc) rsrc.wire :=
  ((serializeStr_emits filled.1).continues.seq (serializeStr_emits filled.2).continues).emits
    (fun _ => by simp [serializeRsrc, serializeStruct])

theorem serializeRaw_emits {src : Option (List UInt8)} {k : Nat}
    (enough : k ≤ (src.getD []).length) : Emits (serializeRaw src k) ((src.getD []).take k) := by
  intro small n
  have length : ((src.getD []).take k).length = k := List.length_take_of_le enough
  by_cases none : k = 0
  · subst none
    exact ⟨⟨0, []⟩, [], by simp [serializeRaw, memcpyFrom], emitted_none n⟩
  · have nonempty : (src.getD []).take k ≠ [] := fun empty => by
      rw [empty] at length
      exact none length.symm
    obtain ⟨written, emitted⟩ := emitted_write n k nonempty
      (fun _ => length.symm) (fun short => by omega)
    have copied : memcpyFrom src k = .ok ((src.getD []).take k) := by
      cases src with
      | none => simp at enough; exact absurd enough none
      | some bytes => simp only [memcpyFrom, if_neg none]; exact if_pos enough
    refine ⟨_, written, ?_, emitted⟩
    simp only [serializeRaw, length, copied, if_neg none, ge_iff_le]
    split <;> rfl

/-! ## Requests -/

/-- The request as the encoder sends it: `(int32_t)` stands before the size and
the offset. -/
def Request.asSent (req : Request) : Request :=
  { req with mreqSize := viaInt32 req.mreqSize, mreqOff := viaInt32 req.mreqOff }

/-- The bytes of an encoded request.  The payload has the length that was given. -/
def Request.image (req : Request) : List UInt8 := req.asSent.wireHead ++ req.payload

theorem serializeRequest_emits {req : Request} (wf : req.WellFormed) :
    Emits (serializeRequest req) req.image := by
  have payload : onlyIf (reqHasData req.mreqType)
      ((req.mreqData.getD []).take req.mreqSize.toNat) = req.payload := by
    unfold Request.payload
    by_cases has : reqHasData req.mreqType = true
    · obtain ⟨bytes, held, whole⟩ := wf.data has
      rw [has, if_pos rfl, held, Option.getD_some, ← whole, List.take_length]
      rfl
    · rw [if_neg has, onlyIf, if_neg has]
  have fixed := ((serializeUint32_emits req.mreqType).continues.seq
    (serializeStr_emits wf.requester).continues).seq (serializeRsrc_emits wf.rsrc).continues
  have mode := continues_callIf (reqHasMode req.mreqType)
    (fun _ => serializeInt32_emits req.mreqMode)
  have size := continues_callIf (reqHasSize req.mreqType)
    (fun _ => serializeUint64_emits (viaInt32 req.mreqSize))
  have target := continues_callIf (reqHasTo req.mreqType)
    (fun has => serializeRsrc_emits (wf.target has))
  have off := continues_callIf (reqHasOff req.mreqType)
    (fun _ => serializeUint64_emits (viaInt32 req.mreqOff))
  have data := continues_callIf (reqHasData req.mreqType) fun has => by
    obtain ⟨bytes, held, whole⟩ := wf.data has
    exact @serializeRaw_emits req.mreqData req.mreqSize.toNat
      (by rw [held, Option.getD_some, whole])
  rw [payload] at data
  have whole := ((((fixed.seq mode).seq size).seq target).seq off).seq data
  exact whole.emits (fun n => by simp only [serializeRequest, bind_assoc])

/-! ## Responses -/

theorem serializeStat_emits (st : Stat) : Emits (serializeStat st) st.wire :=
  ((((serializeUint32_emits _).continues.seq (serializeUint64_emits _).continues).seq
    (serializeUint64_emits _).continues).seq (serializeUint64_emits _).continues).emits
    (fun n => by simp only [serializeStat, bind_assoc])

theorem serializeConnect_emits {conn : Connect} (filled : conn.name.isSome) :
    Emits (serializeConnect conn) conn.wire :=
  ((serializeUint32_emits _).continues.seq (serializeStr_emits filled).continues).emits
    (fun _ => rfl)

theorem serializeDirent_emits {ent : Dirent} (filled : ent.mdeName.isSome) :
    Emits (serializeDirent ent) ent.wire :=
  ((serializeStr_emits filled).continues.seq (serializeInt32_emits _).continues).emits
    (fun _ => rfl)

theorem serializeDirents_continues {count : Nat} {ents : List Dirent}
    (room : (ents.take count).length = count)
    (filled : ∀ ent ∈ ents.take count, ent.mdeName.isSome) :
    Continues (fun n s => serializeDirents n count ents s)
      ((ents.take count).flatMap Dirent.wire) := by
  induction count generalizing ents with
  | zero =>
      intro n s bytes written emitted _
      exact ⟨s, written, rfl, by simpa using emitted⟩
  | succ count ih =>
      cases ents with
      | nil => simp at room
      | cons ent ents =>
          have head := serializeDirent_emits (filled ent (List.mem_cons_self ..))
          have tail := @ih ents (by simpa using room)
            (fun other found => filled other (List.mem_cons_of_mem _ found))
          exact head.continues.seq tail

theorem serializeDir_emits {dir : Dir} (filled : dir.Filled) : Emits (serializeDir dir) dir.wire :=
  ((serializeUint64_emits _).continues.seq (serializeDirents_continues filled.1 filled.2)).emits
    (fun _ => rfl)

theorem serializeData_emits {data : Data} (enough : data.mdataNbytes ≠ 0 →
    ∃ bytes, data.mdataBuf = some bytes ∧ bytes.length = data.mdataNbytes.toNat) :
    Emits (serializeData data) (htonll data.mdataNbytes ++ data.payload) := by
  have long : data.mdataNbytes.toNat ≤ (data.mdataBuf.getD []).length := by
    by_cases zero : data.mdataNbytes = 0
    · simp [zero]
    · obtain ⟨bytes, held, whole⟩ := enough zero
      rw [held, Option.getD_some, whole]
  exact ((serializeUint64_emits _).continues.seq (serializeRaw_emits long).continues).emits
    (fun _ => rfl)

theorem continues_pure : Continues (fun _ s => pure s) [] := by
  intro n s bytes written emitted _
  exact ⟨s, written, rfl, by simpa using emitted⟩

theorem serializeRsp_emits {rsp : Response} (wf : rsp.WellFormed) :
    Emits (serializeRsp rsp) (rsp.wireHead ++ rsp.payload) := by
  have type : Continues (fun n s => s.call n (serializeInt32 (Int32.ofUInt32 rsp.mrspType)))
      (htonl rsp.mrspType) := (serializeInt32_emits _).continues
  rw [Response.wireHead, List.append_assoc]
  refine (type.seq (h := fun n s =>
    if rsp.mrspType = mrspOk then pure s
    else if rsp.mrspType = mrspDataType then s.call n (serializeData rsp.mrspData)
    else if rsp.mrspType = mrspStatType then s.call n (serializeStat rsp.mrspStat)
    else if rsp.mrspType = mrspDirType then s.call n (serializeDir rsp.mrspDir)
    else if rsp.mrspType = mrspErrorType then s.call n (serializeInt32 rsp.mrspError)
    else .error .abort) ?_).emits (fun _ => rfl)
  unfold Response.wireUnion Response.payload
  rcases rspType_cases wf.known with is | is | is | is | is
  all_goals simp only [is, rspTypes_differ, if_true, if_false, List.append_nil]
  · exact continues_pure
  · exact (serializeData_emits (wf.data is)).continues
  · exact (serializeStat_emits rsp.mrspStat).continues
  · exact (serializeDir_emits (wf.dir is)).continues
  · exact (serializeInt32_emits rsp.mrspError).continues

/-! ## Packets -/

def Packet.asSent (pkt : Packet) : Packet :=
  if pkt.mpktType = mpktRequestType then { pkt with mpktRequest := pkt.mpktRequest.asSent } else pkt

/-- The bytes of an encoded packet. -/
def Packet.image (pkt : Packet) : List UInt8 := pkt.asSent.wireHead ++ pkt.payload

theorem Packet.image_eq_wire {pkt : Packet} (notRequest : pkt.mpktType ≠ mpktRequestType) :
    pkt.image = pkt.wire := by
  rw [Packet.image, Packet.asSent, if_neg notRequest, Packet.wire]

theorem serializePkt_emits {pkt : Packet} (wf : pkt.WellFormed) :
    Emits (serializePkt pkt) pkt.image := by
  have shared := (serializeUint32_emits pkt.mpktMagic).continues.seq
    (serializeUint32_emits pkt.mpktType).continues
  have split : pkt.image = htonl pkt.mpktMagic ++ htonl pkt.mpktType ++
      (pkt.asSent.wireUnion ++ pkt.payload) := by
    unfold Packet.image Packet.wireHead Packet.asSent
    split_ifs <;> rw [List.append_assoc]
  rw [split]
  refine (shared.seq (h := fun n s =>
    if pkt.mpktType = mpktRequestType then s.call n (serializeRequest pkt.mpktRequest)
    else if pkt.mpktType = mpktResponseType then s.call n (serializeRsp pkt.mpktResponse)
    else if pkt.mpktType = mpktConnectType then s.call n (serializeConnect pkt.mpktConnect)
    else pure s) ?_).emits (fun n => by simp only [serializePkt, bind_assoc])
  unfold Packet.asSent Packet.wireUnion Packet.payload
  by_cases request : pkt.mpktType = mpktRequestType
  · simp only [if_pos request]
    exact (serializeRequest_emits (wf.request request)).continues
  by_cases response : pkt.mpktType = mpktResponseType
  · simp only [if_neg request, if_pos response]
    exact (serializeRsp_emits (wf.response response)).continues
  by_cases connect : pkt.mpktType = mpktConnectType
  · simp only [if_neg request, if_neg response, if_pos connect, List.append_nil]
    exact (serializeConnect_emits (wf.connect connect)).continues
  · simp only [if_neg request, if_neg response, if_neg connect, List.append_nil]
    exact continues_pure

/-! ## The bytes in memory -/

theorem Contig.storeAll {off : Nat} {ws : List (Nat × List UInt8)} {bytes : List UInt8}
    (contig : Contig off ws bytes) {mem : List UInt8} (room : off + bytes.length ≤ mem.length) :
    storeAll mem ws = some (mem.take off ++ bytes ++ mem.drop (off + bytes.length)) := by
  induction contig generalizing mem with
  | nil off => simp [Middfs.storeAll]
  | @cons off bytes rest ws _ _ ih =>
      rw [List.length_append] at room
      have offLe : off ≤ mem.length := by omega
      have front : (mem.take off).length = off := List.length_take_of_le offLe
      have length : (mem.take off ++ bytes ++ mem.drop (off + bytes.length)).length =
          mem.length := by
        simp only [List.length_append, front, List.length_drop]
        omega
      have both : (mem.take off ++ bytes).length = off + bytes.length := by
        rw [List.length_append, front]
      have one : store mem (off, bytes) =
          some (mem.take off ++ bytes ++ mem.drop (off + bytes.length)) :=
        if_pos (by simp only; omega)
      have tail := @ih (mem.take off ++ bytes ++ mem.drop (off + bytes.length)) (by omega)
      have rest_drop : (mem.take off ++ bytes ++ mem.drop (off + bytes.length)).drop
          (off + bytes.length + rest.length) =
          mem.drop (off + (bytes ++ rest).length) := by
        rw [← both, List.drop_append, List.drop_of_length_le (by omega), List.nil_append,
          List.drop_drop, both, List.length_append]
        congr 1
        omega
      rw [rest_drop, List.take_left' both] at tail
      have whole : Middfs.storeAll mem ((off, bytes) :: ws) =
          (store mem (off, bytes)).bind fun mem => Middfs.storeAll mem ws := rfl
      rw [whole, one, Option.bind_some, tail]
      simp only [List.append_assoc]

end Middfs
