import Middfs.Client.Rsrc
import Middfs.LexicalPath

/-!
# Splitting a path

What `client_rsrc_init` makes of a path: the first component is the owner of
the file, what comes behind it is the path of the file in the owner's directory.
-/

set_option autoImplicit false

namespace Middfs

open LexicalPath

/-! ## What is made of a path -/

def pathOwner (path : CStr) : CStr :=
  CStr.takeWhile (· != slash) (CStr.dropWhile (· == slash) path)

/-- What comes behind it, or a slash. -/
def ownerPath (path : CStr) : CStr :=
  let ownerEnd := CStr.dropWhile (· != slash) (CStr.dropWhile (· == slash) path)
  if ownerEnd.val = [] then slashStr else ownerEnd

theorem ownerPath_ne_nil (path : CStr) : (ownerPath path).val ≠ [] := by
  unfold ownerPath
  simp only
  split_ifs with empty
  · decide
  · exact empty

theorem components_eq_nil_or (path : CStr) :
    (CStr.dropWhile (· == slash) path).val = [] ∧ components slash path.val = [] ∨
      (CStr.dropWhile (· == slash) path).val ≠ [] ∧
        (components slash path.val).head? = some (pathOwner path).val := by
  have same := components_dropWhile slash path.val
  show path.val.dropWhile (fun c => c == slash) = [] ∧ _ ∨
    path.val.dropWhile (fun c => c == slash) ≠ [] ∧ (components slash path.val).head? =
      some ((path.val.dropWhile fun c => c == slash).takeWhile fun c => c != slash)
  cases behind : path.val.dropWhile fun c => c == slash with
  | nil =>
      rw [behind] at same
      exact Or.inl ⟨rfl, same.symm⟩
  | cons c rest =>
      have plain : c ≠ slash := by
        have head := List.head?_dropWhile_not (fun d => d == slash) path.val
        rw [behind] at head
        simpa using head
      rw [behind, components_cons plain] at same
      refine Or.inr ⟨List.cons_ne_nil _ _, ?_⟩
      rw [← same]
      rfl

theorem dropWhile_ne_self {path : CStr} (absolute : path.val.head? = some slash) :
    CStr.dropWhile (· == slash) path ≠ path := by
  intro same
  have vals : path.val.dropWhile (fun c => c == slash) = path.val := congrArg Subtype.val same
  have head := List.head?_dropWhile_not (fun d => d == slash) path.val
  rw [vals, absolute] at head
  simp at head

/-- What `client_rsrc_init` makes of an absolute path. -/
theorem clientRsrcInit_root (conf : ClientConf) {path : CStr}
    (absolute : path.val.head? = some slash) (root : components slash path.val = []) :
    clientRsrcInit conf path = .ok ⟨.mrRoot, ⟨some emptyStr, some emptyStr⟩, -1⟩ := by
  rcases components_eq_nil_or path with ⟨empty, _⟩ | ⟨_, head⟩
  · simp only [clientRsrcInit, if_neg (dropWhile_ne_self absolute), if_pos empty]
  · rw [root] at head
    cases head

theorem clientRsrcInit_named (conf : ClientConf) {path : CStr}
    (absolute : path.val.head? = some slash) (named : components slash path.val ≠ []) :
    clientRsrcInit conf path =
      .ok ⟨if pathOwner path ≠ conf.username then .mrNetwork else .mrLocal,
        ⟨some (pathOwner path), some (ownerPath path)⟩, -1⟩ := by
  rcases components_eq_nil_or path with ⟨_, root⟩ | ⟨some_, _⟩
  · exact absurd root named
  · simp only [clientRsrcInit, if_neg (dropWhile_ne_self absolute), if_neg some_]
    rfl

theorem pathOwner_head {path : CStr} (named : components slash path.val ≠ []) :
    (components slash path.val).head? = some (pathOwner path).val := by
  rcases components_eq_nil_or path with ⟨_, root⟩ | ⟨_, head⟩
  · exact absurd root named
  · exact head

/-! ## The parts -/

theorem pathOwner_val (path : CStr) : (pathOwner path).val = (firstParts slash path.val).first := rfl

theorem ownerPath_val (path : CStr) :
    (ownerPath path).val =
      if (firstParts slash path.val).rest = [] then [slash] else (firstParts slash path.val).rest :=
  apply_ite Subtype.val _ _ _

theorem ownerPath_head {path : CStr} (absolute : path.val.head? = some slash) :
    (ownerPath path).val.head? = some slash := by
  rw [ownerPath_val]
  split_ifs with empty
  · rfl
  · exact (firstParts_split absolute).behind.resolve_left empty

theorem first_eq_nil_iff {path : CStr} (absolute : path.val.head? = some slash) :
    (firstParts slash path.val).first = [] ↔ components slash path.val = [] := by
  have split := firstParts_split absolute
  have behind : path.val.dropWhile (fun c => c == slash) =
      (firstParts slash path.val).first ++ (firstParts slash path.val).rest :=
    List.takeWhile_append_dropWhile.symm
  rcases components_eq_nil_or path with ⟨empty, root⟩ | ⟨some_, head⟩
  · have nothing : path.val.dropWhile (fun c => c == slash) = [] := empty
    rw [behind, List.append_eq_nil_iff] at nothing
    exact iff_of_true nothing.1 root
  · refine iff_of_false (fun none_ => some_ ?_) (fun none_ => ?_)
    · show path.val.dropWhile (fun c => c == slash) = []
      rw [behind, none_, split.named none_]
      rfl
    · rw [none_] at head
      cases head

theorem clientRsrcInit_relative (conf : ClientConf) {path : CStr}
    (relative : path.val.head? ≠ some slash) : clientRsrcInit conf path = .error (-einval) := by
  have same : CStr.dropWhile (· == slash) path = path := by
    apply Subtype.ext
    show path.val.dropWhile (fun c => c == slash) = path.val
    cases chars : path.val with
    | nil => rfl
    | cons c rest =>
        rw [chars] at relative
        have plain : c ≠ slash := fun same => relative (congrArg some same)
        rw [List.dropWhile_cons, if_neg (by simpa using plain)]
  simp only [clientRsrcInit, if_pos same]

structure NamesParts (conf : ClientConf) (parts : Parts UInt8) (rsrc : ClientRsrc) : Prop where
  root : rsrc.mrType = .mrRoot ↔ parts.first = []
  empty : parts.first = [] → rsrc.mrRsrc = ⟨some emptyStr, some emptyStr⟩
  owner : parts.first ≠ [] → rsrc.mrRsrc.mrOwner.map Subtype.val = some parts.first
  path : parts.first ≠ [] →
    rsrc.mrRsrc.mrPath.map Subtype.val = some (if parts.rest = [] then [slash] else parts.rest)
  own : parts.first ≠ [] → (rsrc.mrType = .mrLocal ↔ parts.first = conf.username.val)
  unopened : rsrc.mrFd = -1

theorem clientRsrcInit_names (conf : ClientConf) {path : CStr}
    (absolute : path.val.head? = some slash) :
    ∃ rsrc, clientRsrcInit conf path = .ok rsrc ∧ NamesParts conf (firstParts slash path.val) rsrc := by
  by_cases root : components slash path.val = []
  · have none_ := (first_eq_nil_iff absolute).mpr root
    exact ⟨_, clientRsrcInit_root conf absolute root, iff_of_true rfl none_, fun _ => rfl,
      absurd none_, absurd none_, absurd none_, rfl⟩
  · have some_ := mt (first_eq_nil_iff absolute).mp root
    refine ⟨_, clientRsrcInit_named conf absolute root, ?_, fun none_ => absurd none_ some_,
      fun _ => rfl, fun _ => ?_, fun _ => ?_, rfl⟩
    · refine iff_of_false ?_ some_
      split_ifs <;> decide
    · rw [← ownerPath_val]
      rfl
    · rw [← pathOwner_val]
      split_ifs with foreign
      · exact iff_of_false (by decide) fun same => foreign (Subtype.ext same)
      · exact iff_of_true rfl (congrArg Subtype.val (not_not.mp foreign))

theorem clientRsrcInit_ok {conf : ClientConf} {path : CStr} {rsrc : ClientRsrc}
    (init : clientRsrcInit conf path = .ok rsrc) :
    path.val.head? = some slash ∧ NamesParts conf (firstParts slash path.val) rsrc := by
  by_cases absolute : path.val.head? = some slash
  · obtain ⟨other, same, names⟩ := clientRsrcInit_names conf absolute
    rw [init] at same
    cases same
    exact ⟨absolute, names⟩
  · rw [clientRsrcInit_relative conf absolute] at init
    cases init

theorem NamesParts.filled {conf : ClientConf} {parts : Parts UInt8} {rsrc : ClientRsrc}
    (names : NamesParts conf parts rsrc) (notRoot : rsrc.mrType ≠ .mrRoot) :
    ∃ owner inside, rsrc.mrRsrc = ⟨some owner, some inside⟩ := by
  have named := mt names.root.mpr notRoot
  obtain ⟨owner, held, _⟩ := Option.map_eq_some_iff.mp (names.owner named)
  obtain ⟨inside, below, _⟩ := Option.map_eq_some_iff.mp (names.path named)
  refine ⟨owner, inside, ?_⟩
  rw [← held, ← below]

/-! ## The path of a resource -/

theorem joined_noNul (owner inside : CStr) : (0 : UInt8) ∉ slash :: (owner.val ++ inside.val) := by
  simp only [List.mem_cons, List.mem_append, not_or]
  exact ⟨by decide, owner.property, inside.property⟩

def joined (owner inside : CStr) : CStr := ⟨slash :: (owner.val ++ inside.val), joined_noNul owner inside⟩

theorem firstParts_joined {owner inside : CStr} (named : owner.val ≠ []) (plain : slash ∉ owner.val)
    (below : inside.val.head? = some slash) :
    firstParts slash (joined owner inside).val = ⟨1, owner.val, inside.val⟩ := by
  have split : Parts.Split slash (joined owner inside).val ⟨1, owner.val, inside.val⟩ :=
    ⟨⟨Nat.one_pos, plain, Or.inr below, rfl⟩, fun none_ => absurd none_ named⟩
  exact split.eq_firstParts.symm

/-- A resource is what its own path is split into. -/
theorem clientRsrcInit_joined (conf : ClientConf) {owner inside : CStr} (named : owner.val ≠ [])
    (plain : slash ∉ owner.val) (below : inside.val.head? = some slash) :
    clientRsrcInit conf (joined owner inside) =
      .ok ⟨if owner ≠ conf.username then .mrNetwork else .mrLocal, ⟨some owner, some inside⟩, -1⟩ := by
  have parts := firstParts_joined named plain below
  have absolute : (joined owner inside).val.head? = some slash := rfl
  have some_ : components slash (joined owner inside).val ≠ [] := fun root =>
    named (by rw [← (first_eq_nil_iff absolute).mpr root, parts])
  have sameOwner : pathOwner (joined owner inside) = owner := by
    apply Subtype.ext
    rw [pathOwner_val, parts]
  have samePath : ownerPath (joined owner inside) = inside := by
    apply Subtype.ext
    rw [ownerPath_val, parts]
    refine if_neg fun none_ => ?_
    have empty : inside.val = [] := none_
    rw [empty] at below
    cases below
  rw [clientRsrcInit_named conf absolute some_, sameOwner, samePath]

/-! ## The promise -/

/-- What `client_rsrc_init` does with a path, for a way to split paths. -/
structure InitSplits (split : List UInt8 → Parts UInt8 → Prop) (conf : ClientConf) (path : CStr) :
    Prop where
  relative : clientRsrcInit conf path = .error (-einval) ↔ path.val.head? ≠ some slash
  unique : path.val.head? = some slash → ∃! parts, split path.val parts
  names : ∀ parts, split path.val parts →
    ∃ rsrc, clientRsrcInit conf path = .ok rsrc ∧ NamesParts conf parts rsrc
  again : ∀ rsrc, clientRsrcInit conf path = .ok rsrc → rsrc.mrType ≠ .mrRoot →
    ∃ owner inside, rsrc.mrRsrc = ⟨some owner, some inside⟩ ∧
      clientRsrcInit conf (joined owner inside) = .ok rsrc

/-- Every path is split in one way, if all slashes in front are counted, and
names the resource of these parts. -/
theorem clientRsrcInit_splits (conf : ClientConf) (path : CStr) :
    InitSplits (fun path parts => parts.Split slash path) conf path where
  relative := by
    refine ⟨fun failed absolute => ?_, clientRsrcInit_relative conf⟩
    obtain ⟨rsrc, init, _⟩ := clientRsrcInit_names conf absolute
    rw [failed] at init
    cases init
  unique := fun absolute =>
    ⟨firstParts slash path.val, firstParts_split absolute, fun _ split => split.eq_firstParts⟩
  names := fun parts split => split.eq_firstParts ▸ clientRsrcInit_names conf split.absolute
  again := fun rsrc init notRoot => by
    have absolute := (clientRsrcInit_ok init).1
    have split := firstParts_split absolute
    have named : components slash path.val ≠ [] := fun root => by
      rw [clientRsrcInit_root conf absolute root] at init
      cases init
      exact notRoot rfl
    have some_ : (pathOwner path).val ≠ [] := mt (first_eq_nil_iff absolute).mp named
    rw [clientRsrcInit_named conf absolute named] at init
    cases init
    exact ⟨_, _, rfl, clientRsrcInit_joined conf some_ split.plain (ownerPath_head absolute)⟩

/-- `"//a"` is also a slash, an empty component and `"/a"`. -/
theorem doubleSlash_ambiguous :
    ¬ InitSplits (fun path parts => parts.Compose slash path) ⟨emptyStr, emptyStr⟩
      ⟨[slash, slash, 97], by decide⟩ := by
  intro promised
  have one : Parts.Compose slash [slash, slash, 97] ⟨1, [], [slash, 97]⟩ :=
    ⟨by decide, by decide, Or.inr rfl, rfl⟩
  have two : Parts.Compose slash [slash, slash, 97] ⟨2, [97], []⟩ :=
    ⟨by decide, by decide, Or.inl rfl, rfl⟩
  have same := (promised.unique rfl).unique one two
  cases congrArg Parts.slashes same

end Middfs
