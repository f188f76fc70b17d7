import Middfs.Server.Client

/-!
# Who is registered

`clients_add` appends and sorts; nothing looks for an entry with the same name
first.  As long as every user registers once, the registry says who is
registered and how to reach them.
-/

set_option autoImplicit false

namespace Middfs

open Sorting

/-! ## Comparing names -/

theorem strcmpBytes_antisymm (a b : List UInt8) : strcmpBytes a b = -strcmpBytes b a := by
  induction a generalizing b with
  | nil =>
      cases b with
      | nil => rfl
      | cons y ys => rfl
  | cons x xs ih =>
      cases b with
      | nil => simp [strcmpBytes]
      | cons y ys =>
          unfold strcmpBytes
          by_cases same : x = y
          · rw [if_pos same, if_pos same.symm, ih]
          · rw [if_neg same, if_neg (Ne.symm same)]
            omega

theorem toNat_pos {x : UInt8} (nonzero : x ≠ 0) : 0 < x.toNat := by
  rcases Nat.eq_zero_or_pos x.toNat with zero | positive
  · exact absurd (UInt8.toNat_inj.mp zero) nonzero
  · exact positive

theorem strcmpBytes_le_zero {x y : UInt8} {xs ys : List UInt8} :
    strcmpBytes (x :: xs) (y :: ys) ≤ 0 ↔
      x.toNat < y.toNat ∨ x = y ∧ strcmpBytes xs ys ≤ 0 := by
  rw [strcmpBytes]
  by_cases same : x = y
  · rw [if_pos same]
    subst same
    simp
  · rw [if_neg same]
    have differs : x.toNat ≠ y.toNat := fun equal => same (UInt8.toNat_inj.mp equal)
    constructor
    · intro le
      exact Or.inl (by omega)
    · rintro (lt | ⟨equal, _⟩)
      · omega
      · exact absurd equal same

theorem strcmpBytes_trans {a b c : List UInt8} (noNulA : (0 : UInt8) ∉ a)
    (first : strcmpBytes a b ≤ 0) (second : strcmpBytes b c ≤ 0) : strcmpBytes a c ≤ 0 := by
  induction a generalizing b c with
  | nil =>
      cases c with
      | nil => exact Int.le_refl 0
      | cons z zs =>
          simp only [strcmpBytes]
          omega
  | cons x xs ih =>
      rw [List.mem_cons, not_or] at noNulA
      have positive := toNat_pos (Ne.symm noNulA.1)
      cases b with
      | nil =>
          simp only [strcmpBytes] at first
          omega
      | cons y ys =>
          cases c with
          | nil =>
              rw [strcmpBytes_le_zero] at first
              simp only [strcmpBytes] at second
              rcases first with lt | ⟨rfl, _⟩
              · omega
              · omega
          | cons z zs =>
              rw [strcmpBytes_le_zero] at first second ⊢
              rcases first with lt | ⟨rfl, le⟩
              · rcases second with lt' | ⟨rfl, _⟩
                · exact Or.inl (Nat.lt_trans lt lt')
                · exact Or.inl lt
              · rcases second with lt' | ⟨rfl, le'⟩
                · exact Or.inl lt'
                · exact Or.inr ⟨rfl, ih noNulA.2 le le'⟩

theorem strcmpBytes_eq_zero {a b : List UInt8} (noNulA : (0 : UInt8) ∉ a)
    (noNulB : (0 : UInt8) ∉ b) : strcmpBytes a b = 0 ↔ a = b := by
  induction a generalizing b with
  | nil =>
      cases b with
      | nil => simp [strcmpBytes]
      | cons y ys =>
          rw [List.mem_cons, not_or] at noNulB
          have positive := toNat_pos (Ne.symm noNulB.1)
          simp only [strcmpBytes]
          exact iff_of_false (by omega) (by simp)
  | cons x xs ih =>
      rw [List.mem_cons, not_or] at noNulA
      have positive := toNat_pos (Ne.symm noNulA.1)
      cases b with
      | nil =>
          simp only [strcmpBytes]
          exact iff_of_false (by omega) (by simp)
      | cons y ys =>
          rw [List.mem_cons, not_or] at noNulB
          rw [strcmpBytes, List.cons.injEq]
          by_cases same : x = y
          · rw [if_pos same, ih noNulA.2 noNulB.2]
            simp [same]
          · rw [if_neg same]
            have differs : x.toNat ≠ y.toNat := fun equal => same (UInt8.toNat_inj.mp equal)
            exact iff_of_false (by omega) fun both => same both.1

theorem strcmp_consistent : Consistent strcmp where
  antisymm := fun a b => strcmpBytes_antisymm a.val b.val
  trans := fun a _ _ first second => strcmpBytes_trans a.property first second

theorem strcmp_eq_zero {a b : CStr} : strcmp a b = 0 ↔ a = b :=
  (strcmpBytes_eq_zero a.property b.property).trans Subtype.ext_iff.symm

theorem clientCmp_consistent : Consistent clientCmp := strcmp_consistent.comap Client.username

theorem clientCmp_eq_zero {c d : Client} : clientCmp c d = 0 ↔ c.username = d.username :=
  strcmp_eq_zero

/-! ## Histories -/

section History
variable (lib : Library Client)

theorem clientsAdd_vec {realloc : Nat → Bool} {client : Client} {clients added : Clients}
    (add : clientsAdd lib realloc client clients = some added) :
    added.vec = clientsSort lib (clients.vec ++ [client]) := by
  have grown_vec : ∀ grown, clientsGrow realloc clients = some grown →
      grown.val.vec = clients.vec := by
    intro grown held
    unfold clientsGrow clientsResize at held
    split_ifs at held
    · cases held
      rfl
    · cases held
      rfl
  unfold clientsAdd at add
  split at add
  · cases add
  · rename_i grown room held
    cases add
    simp only [← grown_vec _ held]

/-- The registry after the CONNECT packets of `history`, oldest first, all of
them processed successfully.  A packet is given with the address it came from. -/
inductive Registered : List (Connect × CStr) → Clients → Prop where
  | init : Registered [] clientsInit
  | connect {history : List (Connect × CStr)} {clients added : Clients} (conn : Connect) (ip : CStr)
      (malloc realloc : Nat → Bool) : Registered history clients →
      handleConnect lib malloc realloc (some ip) conn clients = .ok (some added) →
      Registered (history ++ [(conn, ip)]) added

def entryOf (packet : Connect × CStr) : Option Client :=
  packet.1.name.map fun name => { username := name, ip := packet.2, port := packet.1.port }

theorem handleConnect_adds {malloc realloc : Nat → Bool} {ip : CStr} {conn : Connect}
    {clients added : Clients}
    (handled : handleConnect lib malloc realloc (some ip) conn clients = .ok (some added)) :
    ∃ client, entryOf (conn, ip) = some client ∧
      added.vec = clientsSort lib (clients.vec ++ [client]) := by
  unfold handleConnect clientCreate at handled
  cases name : conn.name with
  | none => simp [name] at handled
  | some username =>
      simp only [name] at handled
      split_ifs at handled
      · exact ⟨_, by simp only [entryOf, name, Option.map_some], clientsAdd_vec lib (Except.ok.inj handled)⟩
      · cases handled

theorem Registered.entries {history : List (Connect × CStr)} {clients : Clients}
    (registered : Registered lib history clients) :
    clients.vec.Perm (history.filterMap entryOf) ∧ Sorted clientCmp clients.vec ∧
      ∀ packet ∈ history, (entryOf packet).isSome := by
  induction registered with
  | init => exact ⟨List.Perm.refl [], List.Pairwise.nil, by simp⟩
  | @connect history clients added conn ip malloc realloc _ handled ih =>
      obtain ⟨perm, _, named⟩ := ih
      obtain ⟨client, entry, vec⟩ := handleConnect_adds lib handled
      refine ⟨?_, ?_, ?_⟩
      · rw [vec, clientsSort, List.filterMap_append]
        refine (lib.perm clientCmp _).trans (perm.append ?_)
        simp [entry]
      · rw [vec]
        exact lib.sorted clientCmp _ clientCmp_consistent
      · intro packet member
        rcases List.mem_append.mp member with earlier | last
        · exact named packet earlier
        · rw [List.mem_singleton] at last
          rw [last, entry]
          rfl

def latest (history : List (Connect × CStr)) (username : CStr) : Option Client :=
  (history.filterMap entryOf).reverse.find? fun client => client.username = username

/-- One entry for each name in the history, the latest one found, and every name
listed once, by a root listing for which no `strdup` failed. -/
structure LatestWins (history : List (Connect × CStr)) (clients : Clients) : Prop where
  once : (clients.vec.map Client.username).Nodup
  exactly : ∀ username, username ∈ clients.vec.map Client.username ↔
    ∃ packet ∈ history, packet.1.name = some username
  find : ∀ username, clientFind lib username clients = latest history username
  readdir : ∀ malloc dir,
    (∀ client ∈ clients.vec, malloc (client.username.val.length + 1) = true) →
    clientsReaddir malloc clients = some dir →
    (dir.entries.map Dirent.mdeName).Nodup ∧
      ∀ username, some username ∈ dir.entries.map Dirent.mdeName ↔
        ∃ packet ∈ history, packet.1.name = some username

def RegisterOnce (history : List (Connect × CStr)) : Prop :=
  (history.map fun packet => packet.1.name).Nodup

theorem names_eq {history : List (Connect × CStr)}
    (named : ∀ packet ∈ history, (entryOf packet).isSome) :
    (history.filterMap entryOf).map (fun client => some client.username) =
      history.map fun packet => packet.1.name := by
  induction history with
  | nil => rfl
  | cons packet history ih =>
      have rest := ih fun other member => named other (List.mem_cons_of_mem packet member)
      obtain ⟨client, entry⟩ := Option.isSome_iff_exists.mp (named packet List.mem_cons_self)
      have name : packet.1.name = some client.username := by
        unfold entryOf at entry
        cases held : packet.1.name with
        | none => simp [held] at entry
        | some username =>
            simp only [held, Option.map_some, Option.some.injEq] at entry
            rw [← entry]
      rw [List.filterMap_cons, entry]
      simp only [List.map_cons, rest, name]

theorem clientsReaddir_names {malloc : Nat → Bool} {clients : Clients} {dir : Dir}
    (copied : ∀ client ∈ clients.vec, malloc (client.username.val.length + 1) = true)
    (listed : clientsReaddir malloc clients = some dir) :
    dir.entries.map Dirent.mdeName = clients.vec.map fun client => some client.username := by
  unfold clientsReaddir at listed
  split_ifs at listed
  cases listed
  have room := clients.room
  have small := clients.small
  unfold sizeofClient at small
  have count : (UInt64.ofNat clients.cnt).toNat = clients.vec.length := by
    rw [UInt64.toNat_ofNat', Clients.cnt, Nat.mod_eq_of_lt (by omega)]
  rw [Dir.entries, count, Option.getD_some, List.take_of_length_le (by simp), List.map_map]
  refine List.map_congr_left fun client member => ?_
  simp [clientDirent, copied client member]

/-- In a registry without repeated names, the entry found is the latest. -/
theorem clientFind_latest {history : List (Connect × CStr)} {clients : Clients}
    (perm : clients.vec.Perm (history.filterMap entryOf)) (sorted : Sorted clientCmp clients.vec)
    (distinct : (clients.vec.map Client.username).Nodup) (username : CStr) :
    clientFind lib username clients = latest history username := by
  have matching : ∀ client : Client,
      clientCmp { username := username, ip := username, port := 0 } client = 0 ↔
        client.username = username := fun client => clientCmp_eq_zero.trans eq_comm
  cases newest : latest history username with
  | none =>
      have differs := List.find?_eq_none.mp newest
      refine (lib.bsearch_eq_none clientCmp_consistent sorted).mpr fun client member same => ?_
      have held := List.mem_reverse.mpr (perm.mem_iff.mp member)
      exact differs client held (by simpa using (matching client).mp same)
  | some client =>
      have held : client ∈ clients.vec :=
        perm.mem_iff.mpr (List.mem_reverse.mp (List.mem_of_find?_eq_some newest))
      have name : client.username = username := by simpa using List.find?_some newest
      refine lib.bsearch_unique clientCmp_consistent sorted held ((matching client).mpr name) ?_
      intro other member same
      refine List.inj_on_of_nodup_map distinct member held ?_
      rw [(matching other).mp same, name]

/-- The registry is what it should be exactly when no name registered twice. -/
theorem latestWins_iff {history : List (Connect × CStr)} {clients : Clients}
    (registered : Registered lib history clients) :
    LatestWins lib history clients ↔ RegisterOnce history := by
  obtain ⟨perm, sorted, named⟩ := registered.entries
  have some_inj : ∀ vec : List Client, (vec.map fun client => some client.username) =
      (vec.map Client.username).map some := fun vec => by
    rw [List.map_map]
    rfl
  have permNames : ((clients.vec.map Client.username).map some).Perm
      (history.map fun packet => packet.1.name) := by
    rw [← names_eq named, ← some_inj]
    exact perm.map _
  have member : ∀ username, some username ∈ (clients.vec.map Client.username).map some ↔
      ∃ packet ∈ history, packet.1.name = some username := fun username => by
    rw [permNames.mem_iff, List.mem_map]
  constructor
  · intro wins
    rw [RegisterOnce, ← permNames.nodup_iff]
    exact wins.once.map (Option.some_injective CStr)
  · intro once
    rw [RegisterOnce, ← permNames.nodup_iff] at once
    have distinct := once.of_map some
    refine ⟨distinct, ?_, clientFind_latest lib perm sorted distinct, ?_⟩
    · intro username
      rw [← member, List.mem_map_of_injective (Option.some_injective CStr)]
    · intro malloc dir copied listed
      rw [clientsReaddir_names copied listed, some_inj]
      exact ⟨once, member⟩

end History

/-! ## Two users, and one user twice -/

theorem handleConnect_succeeds (lib : Library Client) (ip : CStr) {conn : Connect}
    {clients : Clients} (named : conn.name.isSome)
    (room : max 1 (clients.len * 2) * sizeofClient < 2 ^ 63) :
    ∃ added, handleConnect lib (fun _ => true) (fun _ => true) (some ip) conn clients =
        .ok (some added) ∧ added.len ≤ max 1 (clients.len * 2) := by
  obtain ⟨name, held⟩ := Option.isSome_iff_exists.mp named
  have grows : ∃ grown, clientsGrow (fun _ => true) clients = some grown ∧
      grown.val.len ≤ max 1 (clients.len * 2) := by
    unfold clientsGrow clientsResize
    split_ifs
    · exact ⟨_, rfl, Nat.le_refl _⟩
    · rename_i refused
      exact absurd ⟨rfl, room⟩ refused
    · exact ⟨_, rfl, by simp only; omega⟩
  obtain ⟨grown, grew, within⟩ := grows
  unfold handleConnect clientCreate clientsAdd
  simp only [held, grew, and_self, if_true]
  exact ⟨_, rfl, within⟩

def userA : CStr := ⟨[97], by decide⟩

def userB : CStr := ⟨[98], by decide⟩

def loopback : CStr := ⟨[49, 50, 55, 46, 48, 46, 48, 46, 49], by decide⟩

theorem oneUser_room : [Client.mk userB loopback 4001].length ≤ 1 := by decide

theorem oneUser_small : 1 * sizeofClient < 2 ^ 63 := by decide

def oneUser : Clients where
  vec := [⟨userB, loopback, 4001⟩]
  len := 1
  room := oneUser_room
  small := oneUser_small

def connectFrom (name : CStr) (port : UInt32) : Connect × CStr :=
  ({ name := some name, port := port }, loopback)

theorem registered_pair (lib : Library Client) (first second : CStr) (port port' : UInt32) :
    ∃ clients, Registered lib [connectFrom first port, connectFrom second port'] clients := by
  obtain ⟨one, handled, len⟩ := @handleConnect_succeeds lib loopback ((connectFrom first port).1) clientsInit rfl (by decide)
  have small : one.len ≤ 1 := len
  obtain ⟨two, handled', _⟩ := @handleConnect_succeeds lib loopback ((connectFrom second port').1) one rfl (by unfold sizeofClient; omega)
  exact ⟨two, ((Registered.init.connect _ _ _ _ handled).connect _ _ _ _ handled')⟩

theorem twoUsers_latestWins :
    ∃ clients, Registered (simpleLibrary Client) [connectFrom userA 4000, connectFrom userB 4001]
        clients ∧
      LatestWins (simpleLibrary Client) [connectFrom userA 4000, connectFrom userB 4001] clients := by
  obtain ⟨clients, registered⟩ := registered_pair (simpleLibrary Client) userA userB 4000 4001
  exact ⟨clients, registered, (latestWins_iff _ registered).mpr (by unfold RegisterOnce; decide)⟩

/-- A user who connects again has two entries. -/
theorem reconnect_not_latestWins :
    ∃ clients, Registered (simpleLibrary Client) [connectFrom userA 4000, connectFrom userA 4001]
        clients ∧
      ¬ LatestWins (simpleLibrary Client) [connectFrom userA 4000, connectFrom userA 4001]
        clients := by
  obtain ⟨clients, registered⟩ := registered_pair (simpleLibrary Client) userA userA 4000 4001
  refine ⟨clients, registered, fun wins => ?_⟩
  obtain ⟨perm, _, _⟩ := registered.entries
  have names := (perm.map Client.username).nodup_iff.mp wins.once
  exact absurd names (by decide)

end Middfs
