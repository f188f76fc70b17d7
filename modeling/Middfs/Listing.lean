import Middfs.Client.Handler
import Middfs.Encode

/-!
# Listing a directory that changes

`handle_request_readdir` counts the entries of a directory, allocates an array
of that many, rewinds and copies the entries.  Nothing stops the second pass at
the end of the array, and nothing tells how far it got.
-/

set_option autoImplicit false

namespace Middfs

section Passes
variable (malloc : Nat → Bool)

def Copied (entry : CStr × UInt8) : Prop := malloc (entry.1.val.length + 1) = true

def direntOf (entry : CStr × UInt8) : Dirent :=
  { mdeName := some entry.1, mdeMode := Int32.ofNat (entry.2.toNat <<< 12) }

/-- What the loop comes to: a name that is not copied, an entry more than there
are slots, or all the entries in the first slots. -/
theorem readdirFill_cases (entries : List (CStr × UInt8)) (slots : List Dirent) :
    (∃ slots', readdirFill malloc entries slots = .ok (slots', false) ∧
        ∃ entry ∈ entries.take slots.length, ¬ Copied malloc entry) ∨
      (readdirFill malloc entries slots = .error .wild ∧ slots.length < entries.length ∧
        ∀ entry ∈ entries.take slots.length, Copied malloc entry) ∨
      (readdirFill malloc entries slots =
          .ok (entries.map direntOf ++ slots.drop entries.length, true) ∧
        entries.length ≤ slots.length ∧ ∀ entry ∈ entries.take slots.length, Copied malloc entry) := by
  induction entries generalizing slots with
  | nil =>
      refine Or.inr (Or.inr ⟨by cases slots <;> rfl, Nat.zero_le _, fun entry member => ?_⟩)
      rw [List.take_nil] at member
      cases member
  | cons entry entries ih =>
      cases slots with
      | nil => exact Or.inr (Or.inl ⟨rfl, Nat.succ_pos _, fun _ member => nomatch member⟩)
      | cons slot slots =>
          unfold readdirFill
          split_ifs with copied
          · have both : ∀ {rest : List (CStr × UInt8)}, (∀ other ∈ rest, Copied malloc other) →
                ∀ other ∈ entry :: rest, Copied malloc other := fun all other member =>
              (List.mem_cons.mp member).elim (fun same => same ▸ copied) (all other)
            rcases ih slots with ⟨slots', failed, other, member, lost⟩ | ⟨wild, longer, all⟩ |
              ⟨done, shorter, all⟩
            · rw [failed]
              exact Or.inl ⟨_, rfl, other, List.mem_cons_of_mem _ member, lost⟩
            · rw [wild]
              exact Or.inr (Or.inl ⟨rfl, Nat.succ_lt_succ longer, both all⟩)
            · rw [done]
              exact Or.inr (Or.inr ⟨rfl, Nat.succ_le_succ shorter, both all⟩)
          · exact Or.inl ⟨_, rfl, entry, List.mem_cons_self .., copied⟩

theorem handleRequestDirents_cases (entries : List (CStr × UInt8)) :
    (handleRequestDirents malloc entries = (entries.map direntOf, true) ∧
        ∀ entry ∈ entries, Copied malloc entry) ∨
      (handleRequestDirents malloc entries).2 = false ∧ ∃ entry ∈ entries, ¬ Copied malloc entry := by
  induction entries with
  | nil => exact Or.inl ⟨rfl, fun _ member => nomatch member⟩
  | cons entry entries ih =>
      unfold handleRequestDirents
      split_ifs with copied
      · rcases ih with ⟨done, all⟩ | ⟨failed, other, member, lost⟩
        · rw [done]
          exact Or.inl ⟨rfl, List.forall_mem_cons.mpr ⟨copied, all⟩⟩
        · exact Or.inr ⟨failed, other, List.mem_cons_of_mem _ member, lost⟩
      · exact Or.inr ⟨rfl, entry, List.mem_cons_self .., copied⟩

/-- On a directory that does not change it is the function over an `Os`. -/
theorem handleRequestReaddirPasses_same {σ : Type} {os : Os σ} {path : CStr} {files files' : σ}
    {entries : List (CStr × UInt8)} (opened : os.opendir path files = (.ok entries, files'))
    (rsp : Response) :
    ∃ answer, handleRequestReaddirPasses malloc rsp entries entries = .ok answer ∧
      answer.1 = (handleRequestReaddir os malloc path rsp files).1.1 ∧
      (answer.1 = 0 → answer = (handleRequestReaddir os malloc path rsp files).1) := by
  unfold handleRequestReaddirPasses handleRequestReaddir
  simp only [opened]
  by_cases allocated : malloc (entries.length * sizeofDirent) = true
  · simp only [if_pos allocated]
    have length : (List.replicate entries.length ({} : Dirent)).length = entries.length :=
      List.length_replicate
    rcases handleRequestDirents_cases malloc entries with ⟨done, all⟩ | ⟨failed, entry, member, lost⟩
    · rcases readdirFill_cases malloc entries (List.replicate entries.length {}) with
        ⟨_, _, entry, member, lost⟩ | ⟨_, longer, _⟩ | ⟨filled, _, _⟩
      · exact absurd (all entry (List.mem_of_mem_take member)) lost
      · omega
      · rw [List.drop_of_length_le (Nat.le_of_eq length), List.append_nil] at filled
        simp only [filled, done, if_true]
        exact ⟨_, rfl, rfl, fun _ => rfl⟩
    · have within : entry ∈ entries.take (List.replicate entries.length ({} : Dirent)).length := by
        rw [length, List.take_length]
        exact member
      rcases readdirFill_cases malloc entries (List.replicate entries.length {}) with
        ⟨slots, stopped, _⟩ | ⟨_, _, all⟩ | ⟨_, _, all⟩
      · simp only [stopped, failed, Bool.false_eq_true, if_false]
        exact ⟨_, rfl, rfl,
          fun returned => absurd returned (show ¬ negEnomem = (0 : Int32) by decide)⟩
      · exact absurd (all entry within) lost
      · exact absurd (all entry within) lost
  · simp only [if_neg allocated]
    exact ⟨_, rfl, rfl, fun _ => rfl⟩

/-! ## What is promised -/

/-- Every entry of the array has a name of the second pass, that of its place. -/
def TakenFrom (second : List (CStr × UInt8)) (dir : Dir) : Prop :=
  ∀ (i : Nat) (ent : Dirent), dir.entries[i]? = some ent →
    ∃ entry, second[i]? = some entry ∧ ent.mdeName = some entry.1

/-- Nothing is stored outside the array, and a response that is returned counts
the entries filled, each with a name of the second pass, and can be encoded. -/
structure ListsFaithfully (rsp : Response) (first second : List (CStr × UInt8)) : Prop where
  inside : ∃ answer, handleRequestReaddirPasses malloc rsp first second = .ok answer
  filled : ∀ rsp', handleRequestReaddirPasses malloc rsp first second = .ok (0, rsp') →
    (rsp'.mrspDir.mdirEnts.getD []).countP (·.mdeName.isSome) = rsp'.mrspDir.mdirCount.toNat ∧
      rsp'.mrspDir.Filled ∧ TakenFrom second rsp'.mrspDir ∧
      ∀ n, ∃ s, serializeDir rsp'.mrspDir n = .ok s

/-- Both passes find as many entries, or memory runs out before that matters. -/
def PassesAgree (first second : List (CStr × UInt8)) : Prop :=
  second.length = first.length ∨ ¬ malloc (first.length * sizeofDirent) = true ∨
    ∃ entry ∈ second.take first.length, ¬ Copied malloc entry

variable {malloc}

theorem serializeDirents_ok {count : Nat} {ents : List Dirent}
    (room : (ents.take count).length = count)
    (filled : ∀ ent ∈ ents.take count, ent.mdeName.isSome) (n : Nat) (s : Emit) :
    ∃ s', serializeDirents n count ents s = .ok s' := by
  induction count generalizing ents s with
  | zero => exact ⟨s, rfl⟩
  | succ count ih =>
      cases ents with
      | nil => simp at room
      | cons ent ents =>
          have named := filled ent (List.mem_cons_self ..)
          obtain ⟨name, mode⟩ := ent
          cases name with
          | none => cases named
          | some name =>
              exact ih (by simpa using room)
                (fun other found => filled other (List.mem_cons_of_mem _ found)) _

theorem serializeDir_ok {dir : Dir} (filled : dir.Filled) (n : Nat) :
    ∃ s, serializeDir dir n = .ok s :=
  serializeDirents_ok filled.1 filled.2 n _

theorem filled_whole {second : List (CStr × UInt8)} {dir : Dir}
    (array : dir.mdirEnts = some (second.map direntOf))
    (count : dir.mdirCount.toNat = second.length) :
    (dir.mdirEnts.getD []).countP (·.mdeName.isSome) = dir.mdirCount.toNat ∧ dir.Filled ∧
      TakenFrom second dir ∧ ∀ n, ∃ s, serializeDir dir n = .ok s := by
  have entries : dir.entries = second.map direntOf := by
    rw [Dir.entries, array, Option.getD_some, count, List.take_of_length_le]
    rw [List.length_map]
  have named : ∀ ent ∈ second.map direntOf, ent.mdeName.isSome = true := by
    intro ent member
    obtain ⟨entry, _, rfl⟩ := List.mem_map.mp member
    rfl
  have filled : dir.Filled := by
    refine ⟨by rw [entries, List.length_map, count], ?_⟩
    rw [entries]
    exact named
  refine ⟨?_, filled, fun i ent at_ => ?_, serializeDir_ok filled⟩
  · rw [array, Option.getD_some, List.countP_eq_length.mpr named, List.length_map, count]
  · rw [entries, List.getElem?_map, Option.map_eq_some_iff] at at_
    obtain ⟨entry, found, rfl⟩ := at_
    exact ⟨entry, found, rfl⟩

/-- The promise is kept exactly when both passes find as many entries, or memory
runs out before a difference is reached. -/
theorem listsFaithfully_iff (large : ∀ n, malloc n = true → n < 2 ^ 63) (rsp : Response)
    (first second : List (CStr × UInt8)) :
    ListsFaithfully malloc rsp first second ↔ PassesAgree malloc first second := by
  have length : (List.replicate first.length ({} : Dirent)).length = first.length :=
    List.length_replicate
  unfold PassesAgree
  by_cases allocated : malloc (first.length * sizeofDirent) = true
  · have bound := large _ allocated
    have count : (UInt64.ofNat first.length).toNat = first.length := by
      rw [UInt64.toNat_ofNat']
      apply Nat.mod_eq_of_lt
      unfold sizeofDirent at bound
      omega
    have answer : ∀ filling, readdirFill malloc second (List.replicate first.length {}) = filling →
        handleRequestReaddirPasses malloc rsp first second =
          filling.map fun filled =>
            (if filled.2 then 0 else negEnomem,
              { rsp with
                mrspType := mrspDirType
                mrspDir := { mdirCount := UInt64.ofNat first.length, mdirEnts := some filled.1 } }) := by
      rintro filling rfl
      unfold handleRequestReaddirPasses
      simp only [allocated, if_true]
      cases readdirFill malloc second (List.replicate first.length {}) <;> rfl
    have agree := readdirFill_cases malloc second (List.replicate first.length {})
    rw [length] at agree
    rcases agree with ⟨slots, stopped, lost⟩ | ⟨wild, longer, all⟩ | ⟨done, shorter, all⟩
    · refine iff_of_true ⟨⟨_, answer _ stopped⟩, fun rsp' returned => ?_⟩ (Or.inr (Or.inr lost))
      rw [answer _ stopped] at returned
      exact absurd (congrArg Prod.fst (Except.ok.inj returned))
        (show ¬ (if false = true then 0 else negEnomem) = (0 : Int32) by decide)
    · refine iff_of_false (fun faithful => ?_) ?_
      · obtain ⟨_, returned⟩ := faithful.inside
        rw [answer _ wild] at returned
        cases returned
      · rintro (same | refused | ⟨entry, member, lost⟩)
        · omega
        · exact refused allocated
        · exact lost (all entry member)
    · by_cases same : second.length = first.length
      · rw [same, List.drop_of_length_le (Nat.le_of_eq length), List.append_nil] at done
        refine iff_of_true ⟨⟨_, answer _ done⟩, fun rsp' returned => ?_⟩ (Or.inl same)
        rw [answer _ done] at returned
        cases returned
        exact filled_whole rfl (count.trans same.symm)
      · refine iff_of_false (fun faithful => ?_) ?_
        · obtain ⟨_, ⟨_, named⟩, _⟩ := faithful.filled _ (answer _ done)
          rw [List.drop_replicate] at named
          refine absurd (named {} ?_) Bool.false_ne_true
          simp only [Dir.entries, Option.getD_some, count]
          rw [List.take_of_length_le (by
            rw [List.length_append, List.length_map, List.length_replicate]
            omega)]
          exact List.mem_append_right _ (List.mem_replicate.mpr ⟨by omega, rfl⟩)
        · rintro (same' | refused | ⟨entry, member, lost⟩)
          · exact same same'
          · exact refused allocated
          · exact lost (all entry member)
  · have refused : handleRequestReaddirPasses malloc rsp first second =
        .ok (negEnomem,
          { rsp with
            mrspType := mrspDirType
            mrspDir := { mdirCount := UInt64.ofNat first.length, mdirEnts := none } }) := by
      unfold handleRequestReaddirPasses
      simp only [if_neg allocated]
    refine iff_of_true ⟨⟨_, refused⟩, fun rsp' returned => ?_⟩ (Or.inr (Or.inl allocated))
    rw [refused] at returned
    exact absurd (congrArg Prod.fst (Except.ok.inj returned))
      (show ¬ negEnomem = (0 : Int32) by decide)

/-- The first pass finds a file `a` and a directory `b`, and the second two files `b` and
`cd`. -/
theorem listsFaithfully_changed :
    ListsFaithfully (fun n => decide (n < 2 ^ 63)) {}
        [(⟨[97], by decide⟩, 8), (⟨[98], by decide⟩, 4)]
        [(⟨[98], by decide⟩, 8), (⟨[99, 100], by decide⟩, 8)] :=
  (listsFaithfully_iff (fun _ granted => of_decide_eq_true granted) _ _ _).mpr (Or.inl rfl)

/-- A file `a` that is deleted between the passes leaves an entry without a name. -/
theorem deletedBetween_unfaithful :
    ¬ ListsFaithfully (fun n => decide (n < 2 ^ 63)) {} [(⟨[97], by decide⟩, 8)] [] := by
  intro faithful
  obtain ⟨_, ⟨_, named⟩, _⟩ := faithful.filled _ rfl
  exact absurd (named {} (List.mem_cons_self ..)) Bool.false_ne_true

end Passes
end Middfs
