import Middfs.Buffers
import Middfs.Client.Pkt
import Middfs.Uninitialised

/-!
# Receiving a whole response or failing

`packet_recv` and `packet_xchg` are to give 0 for a whole response and a negative
value otherwise.  They do as long as the stream does not fail before a packet is
whole, what comes is not misread, and no entries come for a struct that was not
initialised.
-/

set_option autoImplicit false

namespace Middfs

/-- What the calls to `buffer_read` give, until one of them fails or finds the
end of the stream. -/
def readResults (realloc : Nat → Bool) (fd : Int) :
    Buffer → List ReadResult → List (Option (List UInt8))
  | _, [] => []
  | buf, result :: reads =>
      match bufferRead realloc fd result buf with
      | .error _ => []
      | .ok (_, none) => [none]
      | .ok (buf, some bytes) =>
          if bytes = [] then [some []] else some bytes :: readResults realloc fd buf reads

def gathered (results : List (Option (List UInt8))) : List UInt8 :=
  (results.filterMap id).flatten

/-- The value returned is negative, or it is 0 and the packet is the whole response at the
front of what was received; or there is nothing to return yet. -/
def AllOrError (bytes : List UInt8) : Except Trap (Option (Int × Packet)) → Prop
  | .error _ => False
  | .ok none => True
  | .ok (some (retv, pkt)) =>
      retv < 0 ∨ retv = 0 ∧
        ∃ (w : Packet) (rest : List UInt8), w.WellFormed ∧ w.mpktType = mpktResponseType ∧
          bytes = w.wire ++ rest ∧ pkt.live = w.live

/-- Both functions keep their promise, whatever memory there is, whatever the struct held
if it was not zeroed, and whatever becomes of the request. -/
structure ReceivesAllOrError (realloc : Nat → Bool) (fd : Int) (reads : List ReadResult)
    (zeroed : Bool) : Prop where
  recv : ∀ malloc inPkt, (∀ n, malloc n = true → n < 2 ^ 63) → (zeroed = true → inPkt.Ready []) →
    AllOrError (gathered (readResults realloc fd bufferInit reads))
      (packetRecv malloc realloc fd reads inPkt)
  xchg : ∀ malloc inPkt server outPkt, (∀ n, malloc n = true → n < 2 ^ 63) →
    (zeroed = true → inPkt.Ready []) → server.configured = true →
    (∀ other, server.connected = .ok other → other = fd) →
    (∀ trap, packetSend realloc server.writes outPkt ≠ .error trap) →
    AllOrError (gathered (readResults realloc fd bufferInit reads))
      (packetXchg malloc realloc server reads outPkt inPkt)

/-- A directory that has entries: they go wherever `mdir_ents` points. -/
def ListsEntries (bytes : List UInt8) : Prop :=
  AnnouncesDir bytes ∧ (deserializeUint64 (bytes.drop 12) 0 0).obj ≠ 0

/-- What was received so far is not misread, whatever the struct held if it was not zeroed. -/
structure Receivable (zeroed : Bool) (bytes : List UInt8) : Prop extends Legible bytes where
  placed : zeroed = true ∨ ¬ ListsEntries bytes

/-- No read fails before what was received is whole or a directory for which there is no
memory, and all that was received until then is not misread. -/
def Delivers (zeroed : Bool) (bytes : List UInt8) : List (Option (List UInt8)) → Prop
  | [] => Receivable zeroed bytes
  | result :: results =>
      Receivable zeroed bytes ∧
        (Whole bytes ∨ TooBig memory bytes ∨
          match result with
          | none => False
          | some more => more ≠ [] ∧ Delivers zeroed (bytes ++ more) results)

theorem outcome_of_waiting {buf : List UInt8} (bound : buf.length < 2 ^ 63)
    (waiting : outcome memory buf = .waiting) :
    ¬ Whole buf ∧ ¬ Rejected buf ∧ ¬ Overlong buf := by
  refine ⟨?_, fun rejected => ?_, fun long => ?_⟩
  · rintro ⟨w, rest, wf, rfl⟩
    rcases outcome_whole wf bound with complete | error
    · rw [waiting] at complete
      cases complete
    · rw [waiting] at error
      cases error
  · rw [outcome_rejected rejected] at waiting
    cases waiting
  · obtain ⟨used, pkt, complete⟩ := long.complete bound
    rw [waiting] at complete
    cases complete

/-! ## One turn of the loop -/

/-- What `buffer_deserialize` comes to, on a packet that can be decoded into
again. -/
theorem bufferDeserialize_cases {malloc : Nat → Bool} (large : ∀ n, malloc n = true → n < 2 ^ 63)
    {buf : Buffer} {pkt : Packet} (ready : pkt.Ready buf.bytes) :
    (bufferDeserialize malloc buf pkt = .error .abort ∧ BadType buf.bytes) ∨
      (∃ pkt', bufferDeserialize malloc buf pkt = .ok (-1, buf, pkt')) ∨
      (∃ pkt' used, bufferDeserialize malloc buf pkt = .ok (0, bufferShift buf used, pkt') ∧
        outcome memory buf.bytes = .complete used pkt'.live) ∨
      ∃ pkt', bufferDeserialize malloc buf pkt = .ok (1, buf, pkt') ∧
        outcome memory buf.bytes = .waiting ∧ ∀ more, pkt'.Ready (buf.bytes ++ more) := by
  have bound : buf.bytes.length < 2 ^ 63 := by
    rw [buf.bytes_length]
    exact buf.used_lt
  unfold bufferDeserialize
  rcases attempt_cases large bound ready with ⟨aborted, bad⟩ | ⟨s, answer, failed⟩ |
    ⟨s, answer, clean, _, _, agrees, again⟩
  · exact Or.inl ⟨by rw [aborted], bad⟩
  · exact Or.inr (Or.inl ⟨s.obj, by simp only [answer, ne_eq, failed, not_false_eq_true, if_true]⟩)
  · simp only [answer, clean, ne_eq, not_true_eq_false, if_false]
    simp only [verdict, clean, ne_eq, not_true_eq_false, if_false, buf.bytes_length] at agrees
    by_cases whole : s.used ≤ buf.used
    · rw [if_pos whole] at agrees
      exact Or.inr (Or.inr (Or.inl ⟨s.obj, s.used, by rw [if_pos whole], agrees.symm⟩))
    · rw [if_neg whole] at agrees
      exact Or.inr (Or.inr (Or.inr ⟨s.obj, by rw [if_neg whole], agrees.symm, again agrees.symm⟩))

theorem Delivers.front {zeroed : Bool} {bytes : List UInt8} {results : List (Option (List UInt8))}
    (delivers : Delivers zeroed bytes results) : Receivable zeroed bytes := by
  cases results with
  | nil => exact delivers
  | cons result results => exact delivers.1

/-! ## A struct that was not initialised -/

/-- A directory without entries needs no array. -/
theorem deserializePkt_noEntries (malloc : Nat → Bool) {buf : List UInt8} (announces : AnnouncesDir buf)
    (empty : ¬ ListsEntries buf) (pkt : Packet) :
    ∃ s, deserializePkt malloc buf pkt 0 = .ok s ∧
      (malloc 0 = false ∧ s.err ≠ 0 ∨ s.err = 0 ∧ s.used = 20 ∧
        s.obj.live =
          { zeroPacket with
            mpktMagic := ntohl buf
            mpktType := mpktResponseType
            mpktResponse := { mrspType := mrspDirType, mrspDir := { mdirEnts := some [] } } }) := by
  obtain ⟨long, response, dir⟩ := id announces
  have none_ : (deserializeUint64 (buf.drop 12) 0 0).obj = 0 := by
    by_contra some_
    exact empty ⟨announces, some_⟩
  have four : 4 ≤ (buf.drop 8).length := by
    rw [List.length_drop]
    omega
  have eight : ¬ 8 > (buf.drop (8 + 4)).length := by
    rw [List.length_drop]
    omega
  have count : (deserializeUint64 (buf.drop (8 + 4)) pkt.mpktResponse.mrspDir.mdirCount 0).obj = 0 := by
    rw [← none_]
    apply deserializeUint64_fresh
    rw [(deserializeUint64_count _ _ _).1]
    exact Nat.le_of_not_lt eight
  rw [deserializePkt_eq malloc (by omega)]
  simp only [deserializePktUnion, response, if_true, Cursor.tryCall, deserializeRsp, typeInt32_front,
    if_pos four, if_neg (Nat.not_lt_of_le four), deserializeRspUnion, dir, rspTypes_differ, if_false,
    List.drop_drop]
  unfold deserializeDir
  simp only [call_uint64_front, ne_eq, not_true_eq_false, if_false, false_or]
  rw [if_neg eight]
  cases held : direntArray malloc
      { pkt.mpktResponse.mrspDir with
        mdirCount := (deserializeUint64 (buf.drop (8 + 4)) pkt.mpktResponse.mrspDir.mdirCount 0).obj } with
  | none =>
      refine ⟨_, rfl, Or.inl ⟨?_, fun zero : (1 : Int) = 0 => absurd zero (by decide)⟩⟩
      rw [count] at held
      cases granted : malloc 0 with
      | false => rfl
      | true =>
          have array : malloc ((0 : UInt64).toNat * sizeofDirent) = true := granted
          unfold direntArray at held
          split at held
          · cases held
          · simp only [array, if_true] at held
            cases held
  | some ents =>
      rw [count]
      refine ⟨_, rfl, Or.inr ⟨rfl, rfl, ?_⟩⟩
      rfl

/-- What an attempt comes to on any struct. -/
theorem attempt_anywhere {malloc : Nat → Bool} (large : ∀ n, malloc n = true → n < 2 ^ 63)
    {buf : List UInt8} (bound : buf.length < 2 ^ 63) (short : ¬ Overlong buf) (known : ¬ BadType buf)
    (empty : ¬ ListsEntries buf) (pkt : Packet) :
    ∃ s, deserializePkt malloc buf pkt 0 = .ok s ∧
      (s.err ≠ 0 ∨ s.err = 0 ∧ verdict buf s = outcome memory buf) := by
  by_cases announces : AnnouncesDir buf
  · obtain ⟨s, answer, failed | ⟨clean, used, live⟩⟩ := deserializePkt_noEntries malloc announces empty pkt
    · exact ⟨s, answer, Or.inl failed.2⟩
    · obtain ⟨z, zero, agrees, _⟩ := decode_outcome memory_small memory_large bound
        (zeroPacket_ready buf) known
      refine ⟨s, answer, Or.inr ⟨clean, ?_⟩⟩
      obtain ⟨z', zero', failed | ⟨clean', used', live'⟩⟩ :=
        deserializePkt_noEntries memory announces empty zeroPacket
      · exact absurd failed.1 (by decide)
      · rw [zero] at zero'
        cases zero'
        rw [← agrees, verdict, verdict, used, used', live, live', clean, clean']
  · rcases answerCount_eq (deserializePkt_blind malloc bound (a := pkt) (b := zeroPacket)
      fun dir => absurd dir announces) with ⟨trap, _, died⟩ | ⟨s, z, mine, zero, count, flag⟩
    · rcases attempt_cases large bound (zeroPacket_ready buf) with ⟨_, bad⟩ | ⟨z, zero, _⟩ | ⟨z, zero, _⟩
      · exact absurd bad known
      · rw [died] at zero
        cases zero
      · rw [died] at zero
        cases zero
    refine ⟨s, mine, ?_⟩
    by_cases clean : s.err = 0
    · right
      refine ⟨clean, ?_⟩
      by_cases within : s.used ≤ buf.length
      · rw [complete_fresh bound announces short large mine clean within, verdict,
          if_neg (not_not.mpr clean), if_pos within]
      · rcases attempt_cases large bound (zeroPacket_ready buf) with ⟨_, bad⟩ | ⟨z', zero', failed⟩ |
          ⟨z', zero', _, _, _, agrees, _⟩
        · exact absurd bad known
        · rw [zero] at zero'
          cases zero'
          exact absurd (flag ▸ clean) failed
        · rw [zero] at zero'
          cases zero'
          rw [← agrees, verdict, verdict, if_neg (not_not.mpr clean), if_neg within,
            if_neg (not_not.mpr (flag ▸ clean)), if_neg (count ▸ within)]
    · exact Or.inl clean

theorem gathered_cons (bytes : List UInt8) (results : List (Option (List UInt8))) :
    gathered (some bytes :: results) = bytes ++ gathered results := rfl

theorem bufferRead_bytes {realloc : Nat → Bool} {fd : Int} {result : ReadResult} {buf buf' : Buffer}
    {bytes : List UInt8} (read : bufferRead realloc fd result buf = .ok (buf', some bytes)) :
    buf'.bytes = buf.bytes ++ bytes := by
  rcases @bufferRead_cases realloc fd result buf with ⟨_, failed, _⟩ |
    ⟨grown, all, n, _, _, answer, contents, _⟩
  · rw [failed] at read
    cases read
  · rw [answer] at read
    cases read
    rw [Buffer.bytes, contents, vals_append, vals_readFrom, Buffer.bytes]

section Loop
variable {realloc : Nat → Bool} {fd : Int}

/-- What follows an attempt that waits: the next read. -/
theorem packetRecvLoop_waits {malloc : Nat → Bool} {reads : List ReadResult} {buf : Buffer}
    {inPkt pkt : Packet} (waits : bufferDeserialize malloc buf inPkt = .ok (1, buf, pkt)) :
    packetRecvLoop malloc realloc fd reads buf inPkt =
      match reads with
      | [] => .ok none
      | result :: reads =>
          match bufferRead realloc fd result buf with
          | .error trap => .error trap
          | .ok (_, none) => .ok (some (1, pkt))
          | .ok (buf, some bytes) =>
              if bytes = [] then .ok (some (1, pkt))
              else packetRecvLoop malloc realloc fd reads buf pkt := by
  rw [packetRecvLoop, waits]
  cases reads with
  | nil => rfl
  | cons result reads => rfl

theorem packetRecvLoop_stops {malloc : Nat → Bool} {reads : List ReadResult} {buf buf' : Buffer}
    {inPkt pkt : Packet} {retv : Int} (final : retv ≤ 0)
    (stops : bufferDeserialize malloc buf inPkt = .ok (retv, buf', pkt)) :
    packetRecvLoop malloc realloc fd reads buf inPkt = .ok (some (retv, pkt)) := by
  rw [packetRecvLoop]
  simp only [stops, gt_iff_lt, not_lt.mpr final, if_false]

/-- An attempt fails, or completes the packet, or waits, whatever the struct held if it was
not zeroed. -/
theorem bufferDeserialize_receivable {malloc : Nat → Bool} (large : ∀ n, malloc n = true → n < 2 ^ 63)
    {zeroed : Bool} {buf : Buffer} {pkt : Packet} (ready : zeroed = true → pkt.Ready buf.bytes)
    (receivable : Receivable zeroed buf.bytes) :
    (∃ pkt', bufferDeserialize malloc buf pkt = .ok (-1, buf, pkt')) ∨
      (∃ pkt' used, bufferDeserialize malloc buf pkt = .ok (0, bufferShift buf used, pkt') ∧
        outcome memory buf.bytes = .complete used pkt'.live) ∨
      ∃ pkt', bufferDeserialize malloc buf pkt = .ok (1, buf, pkt') ∧
        outcome memory buf.bytes = .waiting ∧ (zeroed = true → ∀ more, pkt'.Ready (buf.bytes ++ more)) := by
  have bound : buf.bytes.length < 2 ^ 63 := by
    rw [buf.bytes_length]
    exact buf.used_lt
  cases zeroed with
  | true =>
    rcases bufferDeserialize_cases large (ready rfl) with ⟨_, bad⟩ | failed | done |
      ⟨pkt', waits, waiting, again⟩
    · exact absurd bad receivable.known
    · exact Or.inl failed
    · exact Or.inr (Or.inl done)
    · exact Or.inr (Or.inr ⟨pkt', waits, waiting, fun _ => again⟩)
  | false =>
    have empty : ¬ ListsEntries buf.bytes := receivable.placed.resolve_left (by decide)
    obtain ⟨s, answer, failed | ⟨clean, agrees⟩⟩ :=
      attempt_anywhere large bound receivable.short receivable.known empty pkt
    · exact Or.inl ⟨s.obj, by simp only [bufferDeserialize, answer, ne_eq, failed, not_false_eq_true, if_true]⟩
    simp only [bufferDeserialize, answer, clean, ne_eq, not_true_eq_false, if_false]
    simp only [verdict, clean, ne_eq, not_true_eq_false, if_false, buf.bytes_length] at agrees
    by_cases whole : s.used ≤ buf.used
    · rw [if_pos whole] at agrees
      exact Or.inr (Or.inl ⟨s.obj, s.used, by rw [if_pos whole], agrees.symm⟩)
    · rw [if_neg whole] at agrees
      exact Or.inr (Or.inr ⟨s.obj, by rw [if_neg whole], agrees.symm, fun zero => by cases zero⟩)

/-- A turn of the loop is as promised, or it goes on to read. -/
theorem packetRecvLoop_turn {malloc : Nat → Bool} (large : ∀ n, malloc n = true → n < 2 ^ 63)
    {zeroed : Bool} (reads : List ReadResult) {buf : Buffer} {inPkt : Packet}
    (ready : zeroed = true → inPkt.Ready buf.bytes) (receivable : Receivable zeroed buf.bytes) :
    (∀ more, AllOrError (buf.bytes ++ more) (packetRecvLoop malloc realloc fd reads buf inPkt)) ∨
      ∃ pkt', bufferDeserialize malloc buf inPkt = .ok (1, buf, pkt') ∧
        outcome memory buf.bytes = .waiting ∧ (zeroed = true → ∀ more, pkt'.Ready (buf.bytes ++ more)) := by
  have bound : buf.bytes.length < 2 ^ 63 := by
    rw [buf.bytes_length]
    exact buf.used_lt
  rcases bufferDeserialize_receivable large ready receivable with ⟨pkt', failed⟩ |
    ⟨pkt', used, done, complete⟩ | waits
  · rw [packetRecvLoop_stops (by decide) failed]
    exact Or.inl fun _ => Or.inl (by decide)
  · rw [packetRecvLoop_stops (by decide) done]
    obtain ⟨w, rest, wf, response, split, live⟩ := receivable.complete bound complete
    exact Or.inl fun more =>
      Or.inr ⟨rfl, w, rest ++ more, wf, response, by rw [split, List.append_assoc], live⟩
  · exact Or.inr waits

theorem packetRecvLoop_delivers {malloc : Nat → Bool} (large : ∀ n, malloc n = true → n < 2 ^ 63)
    {zeroed : Bool} {reads : List ReadResult} {buf : Buffer} {inPkt : Packet}
    (ready : zeroed = true → inPkt.Ready buf.bytes)
    (delivers : Delivers zeroed buf.bytes (readResults realloc fd buf reads)) :
    AllOrError (buf.bytes ++ gathered (readResults realloc fd buf reads))
      (packetRecvLoop malloc realloc fd reads buf inPkt) := by
  induction reads generalizing buf inPkt with
  | nil =>
      rcases packetRecvLoop_turn large [] ready delivers.front with promised | ⟨pkt', waits, _, _⟩
      · exact promised _
      · rw [packetRecvLoop_waits waits]
        trivial
  | cons result reads ih =>
      rcases packetRecvLoop_turn large (result :: reads) ready delivers.front with promised |
        ⟨pkt', waits, waiting, again⟩
      · exact promised _
      have bound : buf.bytes.length < 2 ^ 63 := by
        rw [buf.bytes_length]
        exact buf.used_lt
      obtain ⟨notWhole, notRejected, _⟩ := outcome_of_waiting bound waiting
      rw [packetRecvLoop_waits waits]
      unfold readResults at delivers ⊢
      rcases @bufferRead_cases realloc fd result buf with ⟨_, failed, _⟩ |
        ⟨grown, all, n, _, _, answer, _, _⟩
      · simp only [failed] at delivers
        rcases delivers.2 with whole | tooBig | impossible
        · exact absurd whole notWhole
        · exact absurd (Or.inr tooBig) notRejected
        · exact impossible.elim
      · have grownBytes := bufferRead_bytes answer
        simp only [answer] at delivers ⊢
        by_cases ended : all.take n = []
        · rw [if_pos ended] at delivers
          rcases delivers.2 with whole | tooBig | ⟨more, _⟩
          · exact absurd whole notWhole
          · exact absurd (Or.inr tooBig) notRejected
          · exact absurd rfl more
        · rw [if_neg ended] at delivers ⊢
          rcases delivers.2 with whole | tooBig | ⟨_, next⟩
          · exact absurd whole notWhole
          · exact absurd (Or.inr tooBig) notRejected
          · rw [← grownBytes] at next
            have later := ih (fun zero => grownBytes ▸ again zero (all.take n)) next
            rw [if_neg ended, gathered_cons, ← List.append_assoc, ← grownBytes]
            exact later

/-- All that is received stands in the buffer at once. -/
theorem gathered_bound (reads : List ReadResult) (buf : Buffer) :
    (buf.bytes ++ gathered (readResults realloc fd buf reads)).length < 2 ^ 63 := by
  have bound : buf.bytes.length < 2 ^ 63 := by
    rw [buf.bytes_length]
    exact buf.used_lt
  induction reads generalizing buf with
  | nil => simpa [readResults, gathered] using bound
  | cons result reads ih =>
      unfold readResults
      rcases @bufferRead_cases realloc fd result buf with ⟨_, failed, _⟩ |
        ⟨grown, all, n, _, _, answer, _, _⟩
      · simpa [failed, gathered] using bound
      · have grownBytes := bufferRead_bytes answer
        simp only [answer]
        split_ifs with ended
        · simpa [gathered] using bound
        · rw [gathered_cons, ← List.append_assoc, ← grownBytes]
          exact ih grown (by rw [grown.bytes_length]; exact grown.used_lt)

theorem rejected_of_failed {buf : Buffer} {inPkt pkt : Packet} {buf' : Buffer}
    (ready : inPkt.Ready buf.bytes)
    (failed : bufferDeserialize memory buf inPkt = .ok (-1, buf', pkt)) : Rejected buf.bytes := by
  have bound : buf.bytes.length < 2 ^ 63 := by
    rw [buf.bytes_length]
    exact buf.used_lt
  by_cases bad : BadType buf.bytes
  · exact Or.inl bad
  obtain ⟨s, answer, agrees, _⟩ := decode_outcome memory_small memory_large bound ready bad
  simp only [bufferDeserialize, answer] at failed
  split_ifs at failed with error
  · rw [verdict, if_pos error] at agrees
    exact rejected_of_error agrees.symm
  · cases failed
  · cases failed

theorem late_breaks (bytes : List UInt8) (pkt : Packet) : ¬ AllOrError bytes (.ok (some (1, pkt))) := by
  rintro (negative | ⟨zero, _⟩)
  · exact absurd negative (by decide)
  · exact absurd zero (by decide)

theorem BadType.traps {malloc : Nat → Bool} (small : ∀ n, n < 2 ^ 63 → malloc n = true)
    {reads : List ReadResult} {buf : Buffer} (bad : BadType buf.bytes) (inPkt : Packet) :
    packetRecvLoop malloc realloc fd reads buf inPkt = .error .abort := by
  have bound : buf.bytes.length < 2 ^ 63 := by
    rw [buf.bytes_length]
    exact buf.used_lt
  have died : deserializePkt malloc buf.bytes inPkt 0 = .error .abort :=
    @deserializePkt_refuse _ small _ inPkt _ bound (readHead_badType.mpr bad)
  rw [packetRecvLoop, bufferDeserialize, died]

/-- Where the promise is kept with all the memory there can be, nothing was misread. -/
theorem promised_receivable {reads : List ReadResult} {buf : Buffer} {inPkt : Packet}
    (ready : inPkt.Ready buf.bytes)
    (promised : AllOrError (buf.bytes ++ gathered (readResults realloc fd buf reads))
      (packetRecvLoop memory realloc fd reads buf inPkt)) : Receivable true buf.bytes := by
  have bound : buf.bytes.length < 2 ^ 63 := by
    rw [buf.bytes_length]
    exact buf.used_lt
  have known : ¬ BadType buf.bytes := by
    intro bad
    rw [bad.traps memory_small] at promised
    exact promised
  have response : ∀ used live, outcome memory buf.bytes = .complete used live →
      ∃ (w : Packet) (rest : List UInt8), w.WellFormed ∧ w.mpktType = mpktResponseType ∧
        buf.bytes ++ gathered (readResults realloc fd buf reads) = w.wire ++ rest := by
    intro used live complete
    rcases bufferDeserialize_cases memory_large ready with ⟨_, bad⟩ | ⟨pkt', failed⟩ |
      ⟨pkt', _, done, _⟩ | ⟨pkt', _, waiting, _⟩
    · exact absurd bad known
    · rw [outcome_rejected (rejected_of_failed ready failed)] at complete
      cases complete
    · rw [packetRecvLoop_stops (by decide) done] at promised
      rcases promised with negative | ⟨_, w, rest, wf, type, split, _⟩
      · exact absurd negative (by decide)
      · exact ⟨w, rest, wf, type, split⟩
    · rw [waiting] at complete
      cases complete
  refine ⟨⟨fun long => ?_, known, ?_⟩, Or.inl rfl⟩
  · obtain ⟨used, live, complete⟩ := long.complete bound
    obtain ⟨w, rest, wf, _, split⟩ := response used live complete
    exact (long.grow _).not_whole (gathered_bound reads buf) ⟨w, rest, wf, split⟩
  · rintro ⟨w, rest, wf, front⟩
    rw [front, w.wire_type]
    rcases outcome_whole wf (front ▸ bound) with complete | error
    · obtain ⟨w', rest', _, type, split⟩ := response _ _ (front ▸ complete)
      rw [front, List.append_assoc] at split
      rw [← w.wire_type (rest ++ gathered (readResults realloc fd buf reads)), split, w'.wire_type, type]
    · rcases rejected_of_error error with bad | ⟨magic, count, last, split, _⟩
      · exact absurd (front ▸ bad) known
      · have type := w.wire_type rest
        rw [split] at type
        rw [← type]
        simp only [List.append_assoc]
        rw [← htonl_length magic, List.drop_left, ntohl_htonl]

/-- With all the memory there can be, an attempt on a packet that is not whole waits, or is
refused. -/
theorem settled_or_waits {buf : Buffer} {inPkt : Packet} (ready : inPkt.Ready buf.bytes)
    (receivable : Receivable true buf.bytes) :
    (Whole buf.bytes ∨ TooBig memory buf.bytes) ∨
      ∃ pkt', bufferDeserialize memory buf inPkt = .ok (1, buf, pkt') ∧
        outcome memory buf.bytes = .waiting ∧ ∀ more, pkt'.Ready (buf.bytes ++ more) := by
  have bound : buf.bytes.length < 2 ^ 63 := by
    rw [buf.bytes_length]
    exact buf.used_lt
  rcases bufferDeserialize_receivable memory_large (fun _ => ready) receivable with ⟨pkt', failed⟩ |
    ⟨pkt', used, _, complete⟩ | ⟨pkt', waits, waiting, again⟩
  · rcases rejected_of_failed ready failed with bad | tooBig
    · exact absurd bad receivable.known
    · exact Or.inl (Or.inr tooBig)
  · obtain ⟨w, rest, wf, _, split, _⟩ := receivable.complete bound complete
    exact Or.inl (Or.inl ⟨w, rest, wf, split⟩)
  · exact Or.inr ⟨pkt', waits, waiting, again rfl⟩

theorem Delivers.of_settled {zeroed : Bool} {bytes : List UInt8} (receivable : Receivable zeroed bytes)
    (settled : Whole bytes ∨ TooBig memory bytes) (results : List (Option (List UInt8))) :
    Delivers zeroed bytes results := by
  cases results with
  | nil => exact receivable
  | cons result results => exact ⟨receivable, settled.imp_right Or.inl⟩

/-- Conversely, where the promise is kept with all the memory there can be, the
packet is delivered. -/
theorem delivers_of_packetRecvLoop {reads : List ReadResult} {buf : Buffer} {inPkt : Packet}
    (ready : inPkt.Ready buf.bytes)
    (promised : AllOrError (buf.bytes ++ gathered (readResults realloc fd buf reads))
      (packetRecvLoop memory realloc fd reads buf inPkt)) :
    Delivers true buf.bytes (readResults realloc fd buf reads) := by
  induction reads generalizing buf inPkt with
  | nil => exact promised_receivable ready promised
  | cons result reads ih =>
      have receivable := promised_receivable ready promised
      rcases settled_or_waits ready receivable with settled | ⟨pkt', waits, _, again⟩
      · exact Delivers.of_settled receivable settled _
      rw [packetRecvLoop_waits waits] at promised
      unfold readResults at promised ⊢
      rcases @bufferRead_cases realloc fd result buf with ⟨_, failed, _⟩ |
        ⟨grown, all, n, _, _, answer, _, _⟩
      · simp only [failed] at promised
        exact absurd promised (late_breaks _ pkt')
      · have grownBytes := bufferRead_bytes answer
        simp only [answer] at promised ⊢
        by_cases ended : all.take n = []
        · simp only [if_pos ended] at promised
          exact absurd promised (late_breaks _ pkt')
        · simp only [if_neg ended, gathered_cons, ← List.append_assoc, ← grownBytes] at promised
          rw [if_neg ended]
          refine ⟨receivable, Or.inr (Or.inr ⟨ended, ?_⟩)⟩
          rw [← grownBytes]
          exact ih (grownBytes ▸ again (all.take n)) promised

/-! ## Entries that go anywhere -/

/-- The first of the entries is stored where there is nothing. -/
theorem ListsEntries.traps {malloc : Nat → Bool} {reads : List ReadResult} {buf : Buffer}
    (lists : ListsEntries buf.bytes) {inPkt : Packet} (nowhere : inPkt.ents = some []) :
    packetRecvLoop malloc realloc fd reads buf inPkt = .error .wild := by
  obtain ⟨announces, some_⟩ := lists
  have eight : 8 ≤ (buf.bytes.drop 12).length := by
    have long := announces.1
    rw [List.length_drop]
    omega
  have count : (deserializeUint64 (buf.bytes.drop 12) inPkt.mpktResponse.mrspDir.mdirCount 0).obj ≠ 0 := by
    rw [deserializeUint64_fresh (b := 0)]
    · exact some_
    · rw [(deserializeUint64_count _ _ _).1]
      exact eight
  have array : inPkt.mpktResponse.mrspDir.mdirEnts = some [] := nowhere
  have dir : answerCount (deserializeDir malloc (buf.bytes.drop 12) inPkt.mpktResponse.mrspDir 0) =
      .error .wild := by
    unfold deserializeDir
    simp only [call_uint64_front, ne_eq, not_true_eq_false, if_false, false_or]
    rw [if_neg (Nat.not_lt_of_le eight)]
    simp only [direntArray, array]
    cases left : (deserializeUint64 (buf.bytes.drop 12) inPkt.mpktResponse.mrspDir.mdirCount 0).obj.toNat with
    | zero => exact absurd (UInt64.toNat_inj.mp left) count
    | succ left => rfl
  have died : deserializePkt malloc buf.bytes inPkt 0 = .error .wild := by
    have same := @answerCount_dir malloc _ announces inPkt
    rw [dir] at same
    cases answer : deserializePkt malloc buf.bytes inPkt 0 with
    | error trap =>
        rw [answer] at same
        cases same
        rfl
    | ok s =>
        rw [answer] at same
        cases same
  rw [packetRecvLoop, bufferDeserialize, died]

theorem promised_placed {malloc : Nat → Bool} {reads : List ReadResult} {buf : Buffer} {inPkt : Packet}
    (nowhere : inPkt.ents = some []) (receivable : Receivable true buf.bytes)
    (promised : AllOrError (buf.bytes ++ gathered (readResults realloc fd buf reads))
      (packetRecvLoop malloc realloc fd reads buf inPkt)) : Receivable false buf.bytes := by
  refine ⟨receivable.toLegible, Or.inr fun lists => ?_⟩
  rw [lists.traps nowhere] at promised
  exact promised

/-- What waits for more bytes waits on any struct, and does not touch the array. -/
theorem waits_anywhere {buf : Buffer} (receivable : Receivable false buf.bytes)
    (waiting : outcome memory buf.bytes = .waiting) (pkt : Packet) :
    ∃ pkt', bufferDeserialize memory buf pkt = .ok (1, buf, pkt') ∧ pkt'.ents = pkt.ents := by
  have bound : buf.bytes.length < 2 ^ 63 := by
    rw [buf.bytes_length]
    exact buf.used_lt
  have empty : ¬ ListsEntries buf.bytes := receivable.placed.resolve_left (by decide)
  obtain ⟨z, zero, agrees, _⟩ := decode_outcome memory_small memory_large bound
    (zeroPacket_ready buf.bytes) receivable.known
  rw [waiting] at agrees
  have calm : ¬ AnnouncesDir buf.bytes := by
    intro announces
    obtain ⟨z', zero', failed | ⟨clean, used, _⟩⟩ :=
      deserializePkt_noEntries memory announces empty zeroPacket
    · exact absurd failed.1 (by decide)
    · rw [zero] at zero'
      cases zero'
      rw [verdict, if_neg (not_not.mpr clean), used, if_pos announces.1] at agrees
      cases agrees
  rcases answerCount_eq (deserializePkt_blind memory bound (a := pkt) (b := zeroPacket)
    fun dir => absurd dir calm) with ⟨trap, _, died⟩ | ⟨s, z', mine, zero', count, flag⟩
  · rw [zero] at died
    cases died
  rw [zero] at zero'
  cases zero'
  have past : s.err = 0 ∧ ¬ s.used ≤ buf.used := by
    rw [flag, count, ← buf.bytes_length]
    unfold verdict at agrees
    split_ifs at agrees with failed within
    exact ⟨not_not.mp failed, within⟩
  have restored := deserializePkt_withEnts memory calm pkt.ents pkt
  have whole : pkt.withEnts pkt.ents = pkt := rfl
  rw [whole, mine] at restored
  refine ⟨s.obj, ?_, ?_⟩
  · simp only [bufferDeserialize, mine, past.1, ne_eq, not_true_eq_false, if_false, if_neg past.2]
  · have obj : s.obj = s.obj.withEnts pkt.ents := congrArg Cursor.obj (Except.ok.inj restored)
    rw [obj]
    rfl

/-- Where the promise is kept for a struct whose `mdir_ents` points nowhere, too, no entries
came. -/
theorem delivers_nowhere {reads : List ReadResult} {buf : Buffer} {inPkt : Packet}
    (nowhere : inPkt.ents = some [])
    (delivers : Delivers true buf.bytes (readResults realloc fd buf reads))
    (promised : AllOrError (buf.bytes ++ gathered (readResults realloc fd buf reads))
      (packetRecvLoop memory realloc fd reads buf inPkt)) :
    Delivers false buf.bytes (readResults realloc fd buf reads) := by
  induction reads generalizing buf inPkt with
  | nil => exact promised_placed nowhere delivers promised
  | cons result reads ih =>
      have receivable := promised_placed nowhere delivers.front promised
      unfold readResults at delivers promised ⊢
      rcases @bufferRead_cases realloc fd result buf with ⟨_, failed, _⟩ |
        ⟨grown, all, n, _, _, answer, _, _⟩
      · simp only [failed] at delivers ⊢
        exact ⟨receivable, delivers.2⟩
      · have grownBytes := bufferRead_bytes answer
        simp only [answer] at delivers promised ⊢
        by_cases ended : all.take n = []
        · rw [if_pos ended] at delivers ⊢
          exact ⟨receivable, delivers.2.imp_right (Or.imp_right fun more => absurd rfl more.1)⟩
        · rw [if_neg ended] at delivers promised ⊢
          refine ⟨receivable, ?_⟩
          rcases delivers.2 with whole | tooBig | ⟨more, next⟩
          · exact Or.inl whole
          · exact Or.inr (Or.inl tooBig)
          rcases settled_or_waits (zeroPacket_ready buf.bytes) delivers.1 with settled | ⟨_, _, waiting, _⟩
          · exact settled.imp_right Or.inl
          obtain ⟨pkt', waits, same⟩ := waits_anywhere receivable waiting inPkt
          rw [packetRecvLoop_waits waits] at promised
          simp only [answer, if_neg ended, gathered_cons, ← List.append_assoc, ← grownBytes] at promised
          rw [← grownBytes] at next
          exact Or.inr (Or.inr ⟨more, grownBytes ▸ ih (same.trans nowhere) next promised⟩)

/-! ## The two functions -/

theorem packetRecv_eq_some {malloc : Nat → Bool} {reads : List ReadResult} {inPkt pkt : Packet}
    {retv : Int} (returned : packetRecv malloc realloc fd reads inPkt = .ok (some (retv, pkt))) :
    ∃ loop, packetRecvLoop malloc realloc fd reads bufferInit inPkt = .ok (some (loop, pkt)) ∧
      retv = if loop < 0 then -enomem else loop := by
  unfold packetRecv at returned
  split at returned
  · cases returned
  · cases returned
  · rename_i loop pkt' answer
    cases returned
    exact ⟨loop, answer, rfl⟩

/-- `packet_xchg` returns what sending returns, or what receiving returns if
that is negative, or 0. -/
theorem packetXchg_eq_some {malloc : Nat → Bool} {server : Connection} {reads : List ReadResult}
    {outPkt inPkt pkt : Packet} {retv : Int}
    (returned : packetXchg malloc realloc server reads outPkt inPkt = .ok (some (retv, pkt))) :
    retv < 0 ∨ ∃ fd received, server.connected = .ok fd ∧
      packetRecv malloc realloc fd reads inPkt = .ok (some (received, pkt)) ∧
      retv = if received < 0 then received else 0 := by
  unfold packetXchg at returned
  split_ifs at returned
  cases connected : server.connected with
  | error errno =>
      simp only [connected] at returned
      cases returned
      exact Or.inl (by have := errno.property; omega)
  | ok fd =>
      simp only [connected] at returned
      split at returned
      · cases returned
      · cases returned
      rename_i sent _
      split_ifs at returned with failed
      · cases returned
        exact Or.inl failed
      split at returned
      · cases returned
      · cases returned
      rename_i received pkt' answer
      refine Or.inr ⟨fd, received, rfl, ?_⟩
      split_ifs at returned with negative
      · cases returned
        exact ⟨answer, (if_pos negative).symm⟩
      · cases returned
        exact ⟨answer, (if_neg negative).symm⟩

theorem packetRecv_allOrError {malloc : Nat → Bool} {reads : List ReadResult} {inPkt : Packet}
    (bytes : List UInt8) :
    AllOrError bytes (packetRecv malloc realloc fd reads inPkt) ↔
      AllOrError bytes (packetRecvLoop malloc realloc fd reads bufferInit inPkt) := by
  unfold packetRecv
  split
  · rename_i trap died
    rw [died]
  · rename_i waits
    rw [waits]
  · rename_i retv pkt answer
    rw [answer]
    by_cases negative : retv < 0
    · rw [if_pos negative]
      exact ⟨fun _ => Or.inl negative, fun _ => Or.inl (by decide)⟩
    · rw [if_neg negative]

theorem packetXchg_allOrError {malloc : Nat → Bool} {server : Connection} {reads : List ReadResult}
    {outPkt inPkt : Packet} {bytes : List UInt8} (configured : server.configured = true)
    (connected : ∀ other, server.connected = .ok other → other = fd)
    (sends : ∀ trap, packetSend realloc server.writes outPkt ≠ .error trap)
    (received : AllOrError bytes (packetRecv malloc realloc fd reads inPkt)) :
    AllOrError bytes (packetXchg malloc realloc server reads outPkt inPkt) := by
  unfold packetXchg
  rw [if_pos configured]
  cases opened : server.connected with
  | error errno => exact Or.inl (by have := errno.property; omega)
  | ok other =>
      rw [connected other opened]
      simp only
      split
      · rename_i trap died
        exact absurd died (sends trap)
      · trivial
      split_ifs with failed
      · exact Or.inl failed
      split
      · rename_i trap died
        rwa [died] at received
      · trivial
      · rename_i count pkt answer
        rw [answer] at received
        split_ifs with negative
        · exact Or.inl negative
        · rcases received with less | ⟨_, whole⟩
          · exact absurd less negative
          · exact Or.inr ⟨rfl, whole⟩

/-- The promise is kept exactly where the connection delivers. -/
theorem receivesAllOrError_iff (realloc : Nat → Bool) (fd : Int) (reads : List ReadResult)
    (zeroed : Bool) :
    ReceivesAllOrError realloc fd reads zeroed ↔
      Delivers zeroed [] (readResults realloc fd bufferInit reads) := by
  constructor
  · intro kept
    have promised := kept.recv memory zeroPacket memory_large fun _ => zeroPacket_ready []
    have delivers := @delivers_of_packetRecvLoop _ _ reads bufferInit zeroPacket (zeroPacket_ready _)
      ((packetRecv_allOrError _).mp promised)
    cases zeroed with
    | true => exact delivers
    | false =>
        have elsewhere := kept.recv memory (zeroPacket.withEnts (some [])) memory_large
          fun zero => by cases zero
        exact @delivers_nowhere _ _ reads bufferInit _ rfl delivers ((packetRecv_allOrError _).mp elsewhere)
  · intro delivers
    have recv : ∀ malloc inPkt, (∀ n, malloc n = true → n < 2 ^ 63) → (zeroed = true → inPkt.Ready []) →
        AllOrError (gathered (readResults realloc fd bufferInit reads))
          (packetRecv malloc realloc fd reads inPkt) := by
      intro malloc inPkt large ready
      exact (packetRecv_allOrError _).mpr
        (@packetRecvLoop_delivers _ _ _ large _ reads bufferInit _ ready delivers)
    refine ⟨recv, ?_⟩
    intro malloc inPkt server outPkt large ready configured connected sends
    exact packetXchg_allOrError configured connected sends (recv malloc inPkt large ready)

end Loop

/-- The server closes the connection at once: `packet_xchg` returns 0 for a
packet that was never received. -/
theorem closedConnection_breaks :
    packetXchg memory (fun _ => true) ⟨true, .ok 3, [.count 8]⟩ [.bytes []] zeroPacket zeroPacket =
        .ok (some (0, zeroPacket)) ∧
      ¬ ReceivesAllOrError (fun _ => true) 3 [.bytes []] true := by
  refine ⟨by decide +kernel, ?_⟩
  rw [receivesAllOrError_iff]
  have results : readResults (fun _ => true) 3 bufferInit [.bytes []] = [some []] := by
    decide +kernel
  rw [results]
  have waiting := @outcome_of_waiting [] (by decide) outcome_nil
  rintro ⟨_, whole | tooBig | ⟨more, _⟩⟩
  · exact waiting.1 whole
  · exact waiting.2.1 (Or.inr tooBig)
  · exact more rfl

end Middfs
