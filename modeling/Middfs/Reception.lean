import Middfs.Decode.Soundness

/-!
# Receiving in pieces

The two ways in which the program receives a packet.  Both append what a read
returns to a buffer and try to decode the whole buffer; `handle_pkt_rd` starts
each attempt from a zeroed packet, `packet_recv` passes the same packet to
`buffer_deserialize` again.  The outcome is decided by the stream alone.
-/

set_option autoImplicit false

namespace Middfs

inductive Reception where
  | failed
  | waiting
  | received (used : Nat) (pkt : Packet) (left : List UInt8)
  deriving DecidableEq, Repr

/-- What follows an attempt on `buf`, when `chunks` are still to be read. -/
def Verdict.reception (buf : List UInt8) (chunks : List (List UInt8)) : Verdict → Option Reception
  | .error => some .failed
  | .complete used pkt => some (.received used pkt (buf.drop used ++ chunks.flatten))
  | .waiting => none

def recvFresh (malloc : Nat → Bool) (buf : List UInt8) :
    List (List UInt8) → Except Trap Reception
  | [] => .ok .waiting
  | chunk :: chunks =>
      match deserializePkt malloc (buf ++ chunk) zeroPacket 0 with
      | .error trap => .error trap
      | .ok s =>
          match (verdict (buf ++ chunk) s).reception (buf ++ chunk) chunks with
          | some reception => .ok reception
          | none => recvFresh malloc (buf ++ chunk) chunks

/-- An attempt before the first read and after every read, all into `pkt`. -/
def recvInto (malloc : Nat → Bool) (buf : List UInt8) (pkt : Packet) (chunks : List (List UInt8)) :
    Except Trap Reception :=
  match deserializePkt malloc buf pkt 0 with
  | .error trap => .error trap
  | .ok s =>
      match (verdict buf s).reception buf chunks with
      | some reception => .ok reception
      | none =>
          match chunks with
          | [] => .ok .waiting
          | chunk :: chunks => recvInto malloc (buf ++ chunk) s.obj chunks

def received (malloc : Nat → Bool) (stream : List UInt8) : Reception :=
  match outcome malloc stream with
  | .error => .failed
  | .complete used pkt => .received used pkt (stream.drop used)
  | .waiting => .waiting

section Memory
variable {malloc : Nat → Bool} (small : ∀ n, n < 2 ^ 63 → malloc n = true)
  (large : ∀ n, malloc n = true → n < 2 ^ 63)

theorem received_of_reception {buf : List UInt8} {chunks : List (List UInt8)} {r : Reception}
    (bound : (buf ++ chunks.flatten).length < 2 ^ 63)
    (stops : (outcome malloc buf).reception buf chunks = some r) :
    received malloc (buf ++ chunks.flatten) = r := by
  have decided : outcome malloc buf ≠ .waiting := fun waiting => by
    rw [waiting] at stops
    cases stops
  rw [received, outcome_grow chunks.flatten bound decided]
  cases answer : outcome malloc buf with
  | error =>
      rw [answer] at stops
      cases stops
      rfl
  | waiting => exact absurd answer decided
  | complete used pkt =>
      rw [answer] at stops
      cases stops
      simp only [List.drop_append_of_le_length (outcome_used answer)]

theorem waiting_of_reception {buf : List UInt8} {chunks : List (List UInt8)} {verdict : Verdict}
    (goesOn : verdict.reception buf chunks = none) : verdict = .waiting := by
  cases verdict with
  | waiting => rfl
  | error => cases goesOn
  | complete used pkt => cases goesOn

include small large

theorem recvFresh_received {buf : List UInt8} {chunks : List (List UInt8)}
    (bound : (buf ++ chunks.flatten).length < 2 ^ 63) (known : ¬ BadType (buf ++ chunks.flatten))
    (waiting : outcome malloc buf = .waiting) :
    recvFresh malloc buf chunks = .ok (received malloc (buf ++ chunks.flatten)) := by
  induction chunks generalizing buf with
  | nil =>
      rw [List.flatten_nil, List.append_nil, received, waiting]
      rfl
  | cons chunk chunks ih =>
      rw [List.flatten_cons, ← List.append_assoc] at bound known ⊢
      have boundBuf : (buf ++ chunk).length < 2 ^ 63 := by
        rw [List.length_append] at bound
        omega
      have knownBuf : ¬ BadType (buf ++ chunk) := fun bad =>
        known (bad.grow chunks.flatten)
      obtain ⟨s, answer, same, _⟩ := decode_outcome small large boundBuf
        (zeroPacket_ready _) knownBuf
      simp only [recvFresh, answer, same]
      cases stops : (outcome malloc (buf ++ chunk)).reception (buf ++ chunk) chunks with
      | some r => simp only [received_of_reception bound stops]
      | none => exact ih bound known (waiting_of_reception stops)

theorem recvInto_received {buf : List UInt8} {pkt : Packet} {chunks : List (List UInt8)}
    (bound : (buf ++ chunks.flatten).length < 2 ^ 63) (known : ¬ BadType (buf ++ chunks.flatten))
    (ready : pkt.Ready buf) :
    recvInto malloc buf pkt chunks = .ok (received malloc (buf ++ chunks.flatten)) := by
  have boundBuf : buf.length < 2 ^ 63 := by
    rw [List.length_append] at bound
    omega
  have knownBuf : ¬ BadType buf := fun bad => known (bad.grow chunks.flatten)
  obtain ⟨s, answer, same, again⟩ := decode_outcome small large boundBuf ready knownBuf
  induction chunks generalizing buf pkt s with
  | nil =>
      rw [recvInto]
      simp only [answer, same]
      cases stops : (outcome malloc buf).reception buf [] with
      | some r => simp only [received_of_reception bound stops]
      | none =>
          rw [List.flatten_nil, List.append_nil, received, waiting_of_reception stops]
  | cons chunk chunks ih =>
      rw [recvInto]
      simp only [answer, same]
      cases stops : (outcome malloc buf).reception buf (chunk :: chunks) with
      | some r => simp only [received_of_reception bound stops]
      | none =>
          rw [same, waiting_of_reception stops] at again
          have readyNext := again rfl chunk
          rw [List.flatten_cons, ← List.append_assoc] at bound known ⊢
          have boundNext : (buf ++ chunk).length < 2 ^ 63 := by
            rw [List.length_append] at bound
            omega
          have knownNext : ¬ BadType (buf ++ chunk) := fun bad =>
            known (bad.grow chunks.flatten)
          obtain ⟨next, answerNext, sameNext, againNext⟩ :=
            decode_outcome small large boundNext readyNext knownNext
          exact ih bound known readyNext boundNext knownNext next answerNext sameNext againNext

end Memory

/-! ## Chunking independence -/

def Splits (stream : List UInt8) (chunks : List (List UInt8)) : Prop :=
  chunks.flatten = stream ∧ ∀ chunk ∈ chunks, chunk ≠ []

/-- `r` is the outcome of receiving `stream`, in whatever pieces, whichever
way, and a buffer that is complete stays so when it grows. -/
structure Received (stream : List UInt8) (r : Reception) : Prop where
  fresh : ∀ chunks, Splits stream chunks → recvFresh memory [] chunks = .ok r
  into : ∀ chunks, Splits stream chunks → recvInto memory [] zeroPacket chunks = .ok r
  left : ∀ used pkt left, r = .received used pkt left →
    used ≤ stream.length ∧ left = stream.drop used
  stable : ∀ buf more s, buf ++ more = stream → deserializePkt memory buf zeroPacket 0 = .ok s →
    s.err = 0 → s.used ≤ buf.length →
    ∃ t, deserializePkt memory (buf ++ more) zeroPacket 0 = .ok t ∧ t.err = 0 ∧
      t.used = s.used ∧ t.obj.live = s.obj.live

theorem reception_chunking (stream : List UInt8) (bound : stream.length < 2 ^ 63)
    (known : ¬ BadType stream) : ∃ r, Received stream r := by
  refine ⟨received memory stream, ?_, ?_, ?_, ?_⟩
  · rintro chunks ⟨rfl, _⟩
    exact recvFresh_received memory_small memory_large (List.nil_append _ ▸ bound)
      (List.nil_append _ ▸ known) (outcome_nil : outcome memory [] = .waiting)
  · rintro chunks ⟨rfl, _⟩
    exact recvInto_received memory_small memory_large bound known (zeroPacket_ready [])
  · intro used pkt left same
    unfold received at same
    split at same
    · cases same
    · rename_i complete
      cases same
      exact ⟨outcome_used complete, rfl⟩
    · cases same
  · rintro buf more s rfl answer clean whole
    have boundBuf : buf.length < 2 ^ 63 := by
      rw [List.length_append] at bound
      omega
    have knownBuf : ¬ BadType buf := fun bad => known (bad.grow more)
    obtain ⟨s', answer', same, _⟩ := decode_outcome memory_small memory_large boundBuf
      (zeroPacket_ready buf) knownBuf
    rw [answer] at answer'
    cases answer'
    have complete : verdict buf s = .complete s.used s.obj.live := by
      rw [verdict, if_neg (by simp [clean]), if_pos whole]
    obtain ⟨t, answerMore, sameMore, _⟩ := decode_outcome memory_small memory_large bound
      (zeroPacket_ready (buf ++ more)) known
    rw [outcome_grow more bound (by rw [← same, complete]; intro no; cases no), ← same, complete]
      at sameMore
    obtain ⟨cleanMore, used, _, live⟩ := verdict_complete sameMore
    exact ⟨t, answerMore, cleanMore, used, live⟩

/-- A WRITE with its payload, another one behind it, and the first bytes of a third. -/
theorem reception_chunking_writes :
    (smallWrite.wire ++ (smallWrite.wire ++ [0, 0, 7])).length < 2 ^ 63 ∧
      ∃ r, Received (smallWrite.wire ++ (smallWrite.wire ++ [0, 0, 7])) r := by
  refine ⟨by decide, reception_chunking _ (by decide) ?_⟩
  rintro ⟨magic, type, rest, split, _⟩
  have kind := smallWrite.wire_type (smallWrite.wire ++ [0, 0, 7])
  rw [split] at kind
  simp only [List.append_assoc] at kind
  rw [← htonl_length magic, List.drop_left, ntohl_htonl] at kind
  exact absurd kind (by decide)

end Middfs
