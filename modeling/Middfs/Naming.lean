import Middfs.Client.Ops
import Middfs.Containment
import Middfs.Registry
import Middfs.RemoteErrors
import Middfs.RoundTrip
import Middfs.Splitting
import Middfs.Transitions

/-!
# What a path names

A path is split by the client that uses it, the parts travel to the server and
from there to the client that owns the file, and each of the three looks at
another part.  A path should name one file for all of them, and every user that
the server lists should have a name that is a path.
-/

set_option autoImplicit false

namespace Middfs

open LexicalPath

/-! ## On the way -/

/-- `pkt` is encoded, and out of these bytes, with anything behind them, `got` is
decoded. -/
def Carried (pkt got : Packet) : Prop :=
  pkt.wire.length < 2 ^ 63 ∧ ∃ bytes rest malloc s, Encodes pkt bytes ∧
    (bytes ++ rest).length < 2 ^ 63 ∧ (∀ n, malloc n = true → n < 2 ^ 63) ∧
    deserializePkt malloc (bytes ++ rest) zeroPacket 0 = .ok s ∧ s.err = 0 ∧
    s.used ≤ (bytes ++ rest).length ∧ s.obj = got

theorem Carried.request {pkt got : Packet} (carried : Carried pkt got)
    (type : pkt.mpktType = mpktRequestType) (wf : pkt.mpktRequest.WellFormed) :
    got.mpktType = mpktRequestType ∧ got.mpktRequest.mreqRsrc = pkt.mpktRequest.mreqRsrc ∧
      (got.mpktRequest.WellFormed ∨ ∀ bytes, ¬ Encodes got bytes) := by
  obtain ⟨small, bytes, rest, malloc, s, encodes, bound, large, decoded, clean, within, rfl⟩ := carried
  have whole := Packet.wellFormed_of_request type wf
  have image := encodes.unique (serializePkt_encodes whole (by rw [pkt.wire_length_image]; omega))
  have decoded' := decoded
  have bound' := bound
  rw [image] at decoded' bound'
  obtain ⟨gotType, bare⟩ := decode_image type whole bound' decoded' clean
  refine ⟨gotType, ?_, ?_⟩
  · have rsrc := congrArg Request.mreqRsrc bare
    exact rsrc
  · rcases complete_cases large bound decoded clean within with ⟨filled, _⟩ | ⟨_, long, _, missing⟩
    · exact Or.inl (filled.request gotType)
    · refine Or.inr fun bytes => ?_
      rw [Packet.payloadLength, if_pos gotType, Request.payloadLength] at long
      split_ifs at long with has
      · exact not_encodes_missing gotType has (missing gotType) (by omega) bytes
      · omega

/-! ## One file -/

/-- What the server, and behind it the client that owns the file, make of a
packet that a client sends for the resource of a path. -/
structure OneFile (path : CStr) (rsrc : ClientRsrc) (served : Packet) : Prop where
  request : served.mpktType = mpktRequestType
  root : rootRequested served.mpktRequest = true ↔ rsrc.mrType = .mrRoot
  owner : rsrc.mrType ≠ .mrRoot →
    (lookedUp served.mpktRequest).map Subtype.val = (components slash path.val).head?
  file : ∀ received owner, Carried served received →
    (components slash path.val).head? = some (ClientConf.username owner).val →
    received.mpktType = mpktRequestType ∧ ∃ own localpath,
      clientRsrcInit owner path = .ok own ∧ own.mrType = .mrLocal ∧
        localPath owner own = .ok localpath ∧
        received.mpktRequest.mreqRsrc.mrPath.map (middfsLocalpathTmp owner) = some localpath

/-- The resource of a path whose first component is another user, or nobody. -/
theorem clientRsrcInit_foreign (conf : ClientConf) {path : CStr}
    (absolute : path.val.head? = some slash)
    (foreign : (components slash path.val).head? ≠ some conf.username.val) :
    ∃ rsrc, clientRsrcInit conf path = .ok rsrc ∧ rsrc.mrType ≠ .mrLocal ∧ rsrc.mrRsrc.Filled ∧
      (rsrc.mrType = .mrRoot ↔ components slash path.val = []) ∧
      rsrc.mrRsrc =
        if components slash path.val = [] then ⟨some emptyStr, some emptyStr⟩
        else ⟨some (pathOwner path), some (ownerPath path)⟩ := by
  have network : ClientRsrcType.mrNetwork ≠ .mrLocal ∧ ClientRsrcType.mrNetwork ≠ .mrRoot := by
    decide
  by_cases root : components slash path.val = []
  · exact ⟨_, clientRsrcInit_root conf absolute root, by decide, ⟨rfl, rfl⟩, iff_of_true rfl root,
      (if_pos root).symm⟩
  · have differs : pathOwner path ≠ conf.username := fun same =>
      foreign (by rw [pathOwner_head root, same])
    refine ⟨_, clientRsrcInit_named conf absolute root, ?_⟩
    rw [if_pos differs, if_neg root]
    exact ⟨network.1, ⟨rfl, rfl⟩, iff_of_false network.2 root, rfl⟩

/-- Every absolute path names one file for all of them, whatever operation the
request is for. -/
theorem path_names_oneFile (conf : ClientConf) (path : CStr)
    (absolute : path.val.head? = some slash)
    (foreign : (components slash path.val).head? ≠ some conf.username.val) :
    ∃ rsrc, clientRsrcInit conf path = .ok rsrc ∧
      (rsrc.mrType = .mrRoot ↔ components slash path.val = []) ∧
      ∀ os malloc op, ∀ pkt ∈ NetOp.sent conf os malloc rsrc op, ∀ served,
        Carried pkt served → OneFile path rsrc served := by
  obtain ⟨rsrc, init, remote, filled, isRoot, value⟩ := clientRsrcInit_foreign conf absolute foreign
  refine ⟨rsrc, init, isRoot, fun os malloc op pkt sent served carried => ?_⟩
  have requests := sent_requests conf os malloc remote filled op pkt sent
  obtain ⟨type, same, again⟩ := carried.request requests.type requests.request
  rw [requests.rsrc, value] at same
  refine ⟨type, ?_, fun notRoot => ?_, fun received owner onward name => ?_⟩
  · rw [isRoot, rootRequested, same]
    by_cases root : components slash path.val = []
    · exact iff_of_true (by rw [if_pos root]; rfl) root
    · refine iff_of_false ?_ root
      rw [if_neg root]
      simpa using ownerPath_ne_nil path
  · have named : components slash path.val ≠ [] := fun root => notRoot (isRoot.mpr root)
    rw [if_neg named] at same
    have other : rootRequested served.mpktRequest = false := by
      rw [rootRequested, same]
      simpa using ownerPath_ne_nil path
    rw [lookedUp, other, same, pathOwner_head named]
    rfl
  · have named : components slash path.val ≠ [] := fun root => by
      rw [root] at name
      cases name
    rw [if_neg named] at same
    obtain ⟨received', kept⟩ : received.mpktType = mpktRequestType ∧
        received.mpktRequest.mreqRsrc = served.mpktRequest.mreqRsrc := by
      rcases again with wf | no
      · obtain ⟨receivedType, kept, _⟩ := onward.request type wf
        exact ⟨receivedType, kept⟩
      · obtain ⟨_, bytes, _, _, _, encodes, _⟩ := onward
        exact absurd encodes (no bytes)
    have own : pathOwner path = owner.username := by
      rw [pathOwner_head named] at name
      exact Subtype.ext (Option.some.inj name)
    refine ⟨received', ⟨.mrLocal, ⟨some (pathOwner path), some (ownerPath path)⟩, -1⟩, _, ?_, rfl,
      rfl, by rw [kept, same]; rfl⟩
    rw [clientRsrcInit_named owner absolute named, if_neg (not_not.mpr own)]

def bFile : CStr := strAt [47, 47, 98, 47, 102]

theorem bFile_oneFile :
    ∃ rsrc, clientRsrcInit aConf bFile = .ok rsrc ∧
      (rsrc.mrType = .mrRoot ↔ components slash bFile.val = []) ∧
      ∀ os malloc op, ∀ pkt ∈ NetOp.sent aConf os malloc rsrc op, ∀ served,
        Carried pkt served → OneFile bFile rsrc served :=
  path_names_oneFile aConf bFile (by decide) (by decide)

/-! ## The users that are listed -/

theorem underRoot_noNul (name : CStr) : (0 : UInt8) ∉ slash :: name.val := by
  rw [List.mem_cons, not_or]
  exact ⟨by decide, name.property⟩

def underRoot (name : CStr) : CStr := ⟨slash :: name.val, underRoot_noNul name⟩

def LegalName (name : CStr) : Prop := name.val ≠ [] ∧ slash ∉ name.val

instance (name : CStr) : Decidable (LegalName name) := inferInstanceAs (Decidable (_ ∧ _))

/-- The directory of a name belongs to the user of that name. -/
def Owned (conf : ClientConf) (name : CStr) : Prop :=
  ∃ rsrc, clientRsrcInit conf (underRoot name) = .ok rsrc ∧ rsrc.mrRsrc.mrOwner = some name ∧
    rsrc.mrType ≠ .mrRoot

theorem owned_iff (conf : ClientConf) (name : CStr) : Owned conf name ↔ LegalName name := by
  have absolute : (underRoot name).val.head? = some slash := rfl
  have below : components slash (underRoot name).val = components slash name.val :=
    components_cons_slash slash name.val
  constructor
  · rintro ⟨rsrc, init, owner, notRoot⟩
    by_cases root : components slash (underRoot name).val = []
    · rw [clientRsrcInit_root conf absolute root] at init
      cases init
      exact absurd rfl notRoot
    · rw [clientRsrcInit_named conf absolute root] at init
      cases init
      have same : pathOwner (underRoot name) = name := Option.some.inj owner
      refine ⟨fun empty => root (by rw [below, empty, components_nil]), fun found => ?_⟩
      rw [← same] at found
      simpa using List.mem_takeWhile_imp found
  · rintro ⟨some_, plain⟩
    have single : components slash (underRoot name).val = [name.val] := by
      rw [below, components_single plain some_]
    have named : components slash (underRoot name).val ≠ [] := by
      rw [single]
      exact List.cons_ne_nil _ _
    have owner : pathOwner (underRoot name) = name := by
      have head := pathOwner_head named
      rw [single] at head
      exact (Subtype.ext (Option.some.inj head)).symm
    refine ⟨_, clientRsrcInit_named conf absolute named, by rw [owner], ?_⟩
    simp only
    split_ifs <;> decide

section Listed
variable (lib : Sorting.Library Client) (conf : ClientConf)

/-- A name is that of a registered client, both for the clients and for the
server. -/
structure Reachable (clients : Clients) (name : CStr) : Prop where
  owned : Owned conf name
  found : ∃ client ∈ clients.vec, clientFind lib name clients = some client ∧ client.username = name

theorem clientFind_registered {history : List (Connect × CStr)} {clients : Clients}
    (registered : Registered lib history clients) {client : Client} (member : client ∈ clients.vec) :
    ∃ other ∈ clients.vec, clientFind lib client.username clients = some other ∧
      other.username = client.username := by
  obtain ⟨_, sorted, _⟩ := registered.entries
  cases search : clientFind lib client.username clients with
  | none =>
      have absent := (lib.bsearch_eq_none clientCmp_consistent sorted).mp search client member
      exact absurd (clientCmp_eq_zero.mpr rfl) absent
  | some other =>
      obtain ⟨held, same⟩ := lib.found _ _ _ _ search
      exact ⟨other, held, rfl, (clientCmp_eq_zero.mp same).symm⟩

/-- With enough memory, every entry is listed. -/
theorem clientsReaddir_lists {clients : Clients} {client : Client} (member : client ∈ clients.vec) :
    ∃ dir, clientsReaddir (fun _ => true) clients = some dir ∧
      ∃ ent ∈ dir.entries, ent.mdeName = some client.username := by
  refine ⟨_, if_pos rfl, ?_⟩
  have names := @clientsReaddir_names (fun _ => true) clients _ (fun _ _ => rfl) (if_pos rfl)
  have inNames := List.mem_map_of_mem (f := fun c : Client => some c.username) member
  rwa [← names, List.mem_map] at inNames

theorem clientsReaddir_member {malloc : Nat → Bool} {clients : Clients} {dir : Dir}
    (listed : clientsReaddir malloc clients = some dir) {ent : Dirent} (member : ent ∈ dir.entries)
    {name : CStr} (named : ent.mdeName = some name) :
    ∃ client ∈ clients.vec, client.username = name := by
  unfold clientsReaddir at listed
  split_ifs at listed
  cases listed
  have held := List.mem_of_mem_take member
  rw [Option.getD_some, List.mem_map] at held
  obtain ⟨client, inVec, rfl⟩ := held
  unfold clientDirent at named
  simp only at named
  split_ifs at named
  exact ⟨client, inVec, Option.some.inj named⟩

theorem registered_name {history : List (Connect × CStr)} {clients : Clients}
    (registered : Registered lib history clients) (name : CStr) :
    (∃ client ∈ clients.vec, client.username = name) ↔
      ∃ packet ∈ history, packet.1.name = some name := by
  obtain ⟨perm, _, _⟩ := registered.entries
  constructor
  · rintro ⟨client, member, rfl⟩
    obtain ⟨packet, inHistory, entry⟩ := List.mem_filterMap.mp (perm.mem_iff.mp member)
    unfold entryOf at entry
    obtain ⟨name, held, rfl⟩ := Option.map_eq_some_iff.mp entry
    exact ⟨packet, inHistory, held⟩
  · rintro ⟨packet, inHistory, held⟩
    have entry : entryOf packet = some { username := name, ip := packet.2, port := packet.1.port } := by
      rw [entryOf, held]
      rfl
    exact ⟨_, perm.mem_iff.mpr (List.mem_filterMap.mpr ⟨packet, inHistory, entry⟩), rfl⟩

/-- Every user that is listed can be reached, exactly when every user has
registered with a legal name. -/
theorem listed_reachable_iff {history : List (Connect × CStr)} {clients : Clients}
    (registered : Registered lib history clients) :
    (∀ malloc dir, clientsReaddir malloc clients = some dir → ∀ ent ∈ dir.entries, ∀ name,
        ent.mdeName = some name → Reachable lib conf clients name) ↔
      ∀ packet ∈ history, ∀ name, packet.1.name = some name → LegalName name := by
  constructor
  · intro reachable packet inHistory name held
    obtain ⟨client, member, rfl⟩ := (registered_name lib registered name).mpr ⟨packet, inHistory, held⟩
    obtain ⟨dir, listed, ent, inEntries, named⟩ := clientsReaddir_lists member
    exact (owned_iff conf _).mp (reachable _ _ listed ent inEntries _ named).owned
  · intro legal malloc dir listed ent inEntries name named
    obtain ⟨client, member, rfl⟩ := clientsReaddir_member listed inEntries named
    obtain ⟨packet, inHistory, held⟩ :=
      (registered_name lib registered client.username).mp ⟨client, member, rfl⟩
    exact ⟨(owned_iff conf _).mpr (legal packet inHistory _ held),
      clientFind_registered lib registered member⟩

end Listed

theorem twoUsers_reachable :
    ∃ clients, Registered (Sorting.simpleLibrary Client)
        [connectFrom userA 4000, connectFrom userB 4001] clients ∧
      ∀ malloc dir, clientsReaddir malloc clients = some dir → ∀ ent ∈ dir.entries, ∀ name,
        ent.mdeName = some name → Reachable (Sorting.simpleLibrary Client) aConf clients name := by
  obtain ⟨clients, registered⟩ :=
    registered_pair (Sorting.simpleLibrary Client) userA userB 4000 4001
  refine ⟨clients, registered, (listed_reachable_iff _ aConf registered).mpr ?_⟩
  intro packet member name held
  rcases List.mem_pair.mp member with rfl | rfl <;> cases held <;> decide

def nestedName : CStr := strAt [98, 47, 99]

/-- A user with a slash in the name is listed, but the path leads to another
user. -/
theorem nestedName_not_reachable :
    ∃ clients, Registered (Sorting.simpleLibrary Client)
        [connectFrom userA 4000, connectFrom nestedName 4001] clients ∧
      ¬ ∀ malloc dir, clientsReaddir malloc clients = some dir → ∀ ent ∈ dir.entries, ∀ name,
        ent.mdeName = some name → Reachable (Sorting.simpleLibrary Client) aConf clients name := by
  obtain ⟨clients, registered⟩ :=
    registered_pair (Sorting.simpleLibrary Client) userA nestedName 4000 4001
  refine ⟨clients, registered, fun reachable => ?_⟩
  obtain ⟨client, member, name⟩ := (registered_name _ registered nestedName).mpr
    ⟨connectFrom nestedName 4001, by simp, rfl⟩
  obtain ⟨dir, listed, ent, inEntries, named⟩ := clientsReaddir_lists member
  rw [name] at named
  have legal := (owned_iff aConf nestedName).mp (reachable _ _ listed ent inEntries _ named).owned
  exact absurd legal (by decide)

end Middfs
