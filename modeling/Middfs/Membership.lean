import Middfs.Registry
import Middfs.Runs

/-!
# Adding and removing clients

The vector of the registry stands for a multiset of clients, kept sorted so that
it can be searched.  `clients_add` puts one in, `clients_remove` takes one out,
and whatever the order of the calls and whichever reallocations fail, what is
found is what is in it.
-/

set_option autoImplicit false

namespace Middfs

open Sorting

inductive ClientsOp where
  | add (realloc : Nat → Bool) (client : Client)
  | remove (index : Nat)

section Library
variable (lib : Library Client)

/-- A call on the registry and on a multiset.  What a successful `clients_add`
adds is put in, and the element at the index of `clients_remove` taken out. -/
def ClientsOp.step (op : ClientsOp) (both : Clients × Multiset Client) :
    Except Trap (Clients × Multiset Client) :=
  match op with
  | .add realloc client =>
      match clientsAdd lib realloc client both.1 with
      | none => .ok both
      | some added => .ok (added, client ::ₘ both.2)
  | .remove index =>
      match both.1.vec[index]? with
      | none => .error .wild
      | some client =>
          match clientsRemove lib index both.1 with
          | .error trap => .error trap
          | .ok left => .ok (left, both.2.erase client)

def ClientsOp.Permitted (op : ClientsOp) (clients : Clients) : Prop :=
  ∀ index, op = .remove index → index < clients.cnt

/-! ## One call -/

/-- The elements but one, with the last in its place. -/
theorem set_dropLast_perm {vec : List Client} {index : Nat} {client last : Client}
    (held : vec[index]? = some client) (final : vec.getLast? = some last)
    (inner : index < vec.length - 1) : ((vec.set index last).dropLast).Perm (vec.erase client) := by
  obtain ⟨front, rfl⟩ := List.getLast?_eq_some_iff.mp final
  rw [List.length_append, List.length_singleton, Nat.add_sub_cancel] at inner
  rw [List.getElem?_append_left inner] at held
  rw [List.set_append_left _ _ inner, List.dropLast_concat]
  have taken : (client :: (front.set index last)).Perm (last :: front) :=
    (List.set_perm_cons_eraseIdx inner last).cons client |>.trans <|
      (List.Perm.swap last client _).trans <| by
        refine List.Perm.cons last ?_
        have same : front[index] = client := Option.some.inj ((List.getElem?_eq_getElem inner).symm.trans held)
        rw [← same]
        exact List.getElem_cons_eraseIdx_perm inner
  refine (List.perm_cons client).mp (taken.trans ?_)
  have member : client ∈ front ++ [last] := List.mem_append_left _ (List.mem_of_getElem? held)
  refine List.Perm.trans ?_ (List.perm_cons_erase member)
  exact (List.perm_append_singleton last front).symm

theorem clientsFill_perm {vec : List Client} {index : Nat} {client last : Client}
    (held : vec[index]? = some client) (final : vec.getLast? = some last) :
    (clientsFill lib index last vec).Perm (vec.erase client) := by
  unfold clientsFill clientsSort
  by_cases inner : index < vec.length - 1
  · rw [if_pos inner]
    exact (lib.perm clientCmp _).trans (set_dropLast_perm held final inner)
  · rw [if_neg inner]
    obtain ⟨front, rfl⟩ := List.getLast?_eq_some_iff.mp final
    obtain ⟨within, _⟩ := List.getElem?_eq_some_iff.mp held
    rw [List.length_append, List.length_singleton] at inner within
    have at_end : index = front.length := by omega
    rw [at_end, List.getElem?_concat_length] at held
    cases held
    rw [List.dropLast_concat]
    have member : client ∈ front ++ [client] := List.mem_append_right _ List.mem_cons_self
    refine (List.perm_cons client).mp (List.Perm.trans ?_ (List.perm_cons_erase member))
    exact (List.perm_append_singleton client front).symm

theorem clientsFill_sorted {vec : List Client} (index : Nat) (last : Client)
    (sorted : Sorted clientCmp vec) : Sorted clientCmp (clientsFill lib index last vec) := by
  unfold clientsFill
  split_ifs
  · exact lib.sorted clientCmp _ clientCmp_consistent
  · exact List.Pairwise.sublist (List.dropLast_sublist vec) sorted

theorem clientsRemove_cases {index : Nat} {clients : Clients} (within : index < clients.cnt) :
    ∃ client left, clients.vec[index]? = some client ∧
      clientsRemove lib index clients = .ok left ∧ left.vec.Perm (clients.vec.erase client) ∧
      (Sorted clientCmp clients.vec → Sorted clientCmp left.vec) := by
  have held := List.getElem?_eq_getElem within
  cases final : clients.vec.getLast? with
  | none =>
      rw [List.getLast?_eq_none_iff] at final
      rw [Clients.cnt, final] at within
      exact absurd within (Nat.not_lt_zero index)
  | some last =>
      refine ⟨_, { clients with vec := clientsFill lib index last clients.vec, room := ?_ }, held, ?_,
        clientsFill_perm lib held final, clientsFill_sorted lib index last⟩
      · have room := clients.room
        rw [clientsFill_length]
        omega
      · unfold clientsRemove
        simp only [final, if_pos within]

/-! ## Runs -/

/-- The vector is within its allocation and sorted, its elements are those of the
multiset, and a search says whether there is one with the name, and gives one.
The next removal goes through. -/
structure Enrols (clients : Clients) (enrolled : Multiset Client) : Prop where
  room : clients.cnt ≤ clients.len
  sorted : Sorted clientCmp clients.vec
  same : (clients.vec : Multiset Client) = enrolled
  missing : ∀ username, clientFind lib username clients = none ↔
    ∀ client ∈ enrolled, client.username ≠ username
  found : ∀ username client, clientFind lib username clients = some client →
    client ∈ enrolled ∧ client.username = username
  removes : ∀ index, index < clients.cnt → ∃ left, clientsRemove lib index clients = .ok left

variable {lib}

/-- Of a sorted vector, everything else follows. -/
theorem enrols_of_sorted {clients : Clients} {enrolled : Multiset Client}
    (sorted : Sorted clientCmp clients.vec) (same : (clients.vec : Multiset Client) = enrolled) :
    Enrols lib clients enrolled := by
  have matching : ∀ (username : CStr) (client : Client),
      clientCmp { username := username, ip := username, port := 0 } client = 0 ↔
        client.username = username := fun username client => clientCmp_eq_zero.trans eq_comm
  refine ⟨clients.room, sorted, same, ?_, ?_, ?_⟩
  · intro username
    rw [clientFind, lib.bsearch_eq_none clientCmp_consistent sorted, ← same]
    exact forall₂_congr fun client _ => not_congr (matching username client)
  · intro username client search
    obtain ⟨member, equal⟩ := lib.found _ _ _ _ search
    rw [← same]
    exact ⟨member, (matching username client).mp equal⟩
  · intro index within
    obtain ⟨_, left, _, removed, _⟩ := clientsRemove_cases lib within
    exact ⟨left, removed⟩

def SortedAs (both : Clients × Multiset Client) : Prop :=
  Sorted clientCmp both.1.vec ∧ (both.1.vec : Multiset Client) = both.2

theorem ClientsOp.step_sortedAs {op : ClientsOp} {both both' : Clients × Multiset Client}
    (permitted : op.Permitted both.1) (kept : SortedAs both) (next : op.step lib both = .ok both') :
    SortedAs both' := by
  obtain ⟨sorted, same⟩ := kept
  cases op with
  | add realloc client =>
      cases add : clientsAdd lib realloc client both.1 with
      | none =>
          simp only [ClientsOp.step, add, Except.ok.injEq] at next
          rw [← next]
          exact ⟨sorted, same⟩
      | some added =>
          simp only [ClientsOp.step, add, Except.ok.injEq] at next
          have vec := clientsAdd_vec lib add
          rw [← next]
          refine ⟨?_, ?_⟩
          · rw [vec]
            exact lib.sorted clientCmp _ clientCmp_consistent
          · rw [← same, vec, Multiset.cons_coe, Multiset.coe_eq_coe]
            exact (lib.perm clientCmp _).trans (List.perm_append_singleton client both.1.vec)
  | remove index =>
      obtain ⟨client, left, held, removed, perm, stays⟩ :=
        clientsRemove_cases lib (permitted index rfl)
      simp only [ClientsOp.step, held, removed, Except.ok.injEq] at next
      rw [← next]
      refine ⟨stays sorted, ?_⟩
      rw [← same, Multiset.coe_erase, Multiset.coe_eq_coe]
      exact perm

/-- From `clients_init`, after any calls. -/
theorem registry_enrols {both : Clients × Multiset Client}
    (reached : Runs.Reached (ClientsOp.step lib) (fun op both => op.Permitted both.1)
      (clientsInit, 0) both) : Enrols lib both.1 both.2 := by
  have kept : SortedAs both := by
    apply reached.invariant
    · exact ⟨List.Pairwise.nil, rfl⟩
    · intro op before after kept permitted next
      exact op.step_sortedAs permitted kept next
  exact enrols_of_sorted kept.1 kept.2

end Library

/-- Two clients with one name, one of them removed again. -/
theorem registry_enrols_pair : ∃ clients enrolled,
    Enrols (simpleLibrary Client) clients enrolled ∧ clients.cnt = 1 := by
  have permits : ∀ (realloc : Nat → Bool) (client : Client) (clients : Clients),
      (ClientsOp.add realloc client).Permitted clients := fun _ _ _ index same => nomatch same
  have initial : Runs.Reached (ClientsOp.step (simpleLibrary Client))
    (fun op both => op.Permitted both.1) (clientsInit, 0) (clientsInit, 0) := .start
  have first := initial.step (.add (fun _ => true) ⟨userA, loopback, 4000⟩) (permits _ _ _) rfl
  have second := first.step (.add (fun _ => true) ⟨userA, loopback, 4001⟩) (permits _ _ _) rfl
  have third := second.step (.remove 0) (fun index same => by cases same; decide) rfl
  exact ⟨_, _, registry_enrols third, rfl⟩

end Middfs
