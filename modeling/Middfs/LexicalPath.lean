import Mathlib.Data.List.DropRight

/-!
# Lexical resolution of paths

A path is a list of characters, two of which are special: `slash` separates
components, and the components made of one and of two `dot`s stand for the
directory itself and the one above it.  Resolving a path follows its components
from the root, without looking at any file.  `climb` resolves a path that is
followed from somewhere else: it says how far up the path goes and what it
leaves behind on the way down.
-/

set_option autoImplicit false

namespace Middfs.LexicalPath

variable {α : Type} [DecidableEq α]

/-- Repeated slashes count as one. -/
def components (slash : α) (path : List α) : List (List α) :=
  (path.splitOn slash).filter fun part => part ≠ []

theorem components_append (slash : α) (xs ys : List α) :
    components slash (xs ++ slash :: ys) = components slash xs ++ components slash ys := by
  rw [components, List.splitOn_append_cons_self, List.filter_append]
  rfl

theorem components_nil (slash : α) : components slash [] = [] := rfl

theorem components_cons_slash (slash : α) (path : List α) :
    components slash (slash :: path) = components slash path :=
  components_append slash [] path

theorem components_single {slash : α} {part : List α} (plain : slash ∉ part) (some : part ≠ []) :
    components slash part = [part] := by
  rw [components, List.splitOn_eq_singleton plain]
  simp [some]

theorem components_dropWhile (slash : α) (path : List α) :
    components slash (path.dropWhile fun c => c == slash) = components slash path := by
  induction path with
  | nil => rfl
  | cons c path ih =>
      rw [List.dropWhile_cons]
      split_ifs with same
      · rw [ih, beq_iff_eq.mp same, components_cons_slash]
      · rfl

theorem components_cons {slash c : α} (plain : c ≠ slash) (path : List α) :
    components slash (c :: path) =
      (c :: path).takeWhile (fun c => c != slash) ::
        components slash ((c :: path).dropWhile fun c => c != slash) := by
  have parts := List.takeWhile_append_dropWhile (p := fun d => d != slash) (l := c :: path)
  have first : slash ∉ (c :: path).takeWhile fun d => d != slash := fun found => by
    simpa using List.mem_takeWhile_imp found
  have some_ : (c :: path).takeWhile (fun d => d != slash) ≠ [] := by
    rw [List.takeWhile_cons, if_pos (by simpa using plain)]
    exact List.cons_ne_nil _ _
  conv_lhs => rw [← parts]
  cases behind : (c :: path).dropWhile fun d => d != slash with
  | nil => rw [List.append_nil, components_single first some_, components_nil]
  | cons d rest =>
      have isSlash : d = slash := by
        have head := List.head?_dropWhile_not (fun d => d != slash) (c :: path)
        rw [behind] at head
        simpa using head
      rw [isSlash, components_append, components_single first some_, components_cons_slash]
      rfl

/-! ## The first component -/

structure Parts (β : Type) where
  slashes : Nat
  first : List β
  rest : List β
  deriving DecidableEq

/-- The parts make up the path.  Where the component is empty, they need not be
the only ones that do. -/
structure Parts.Compose {β : Type} (slash : β) (path : List β) (parts : Parts β) : Prop where
  leading : 0 < parts.slashes
  plain : slash ∉ parts.first
  behind : parts.rest = [] ∨ parts.rest.head? = some slash
  whole : path = List.replicate parts.slashes slash ++ (parts.first ++ parts.rest)

/-- All slashes in front are counted. -/
structure Parts.Split {β : Type} (slash : β) (path : List β) (parts : Parts β) : Prop
    extends Parts.Compose slash path parts where
  named : parts.first = [] → parts.rest = []

omit [DecidableEq α] in
theorem Parts.Compose.absolute {slash : α} {path : List α} {parts : Parts α}
    (compose : parts.Compose slash path) : path.head? = some slash := by
  obtain ⟨n, same⟩ := Nat.exists_eq_succ_of_ne_zero compose.leading.ne'
  rw [compose.whole, same]
  rfl

def firstParts (slash : α) (path : List α) : Parts α where
  slashes := (path.takeWhile fun c => c == slash).length
  first := (path.dropWhile fun c => c == slash).takeWhile fun c => c != slash
  rest := (path.dropWhile fun c => c == slash).dropWhile fun c => c != slash

theorem replicate_takeWhile (slash : α) (path : List α) :
    List.replicate (path.takeWhile fun c => c == slash).length slash =
      path.takeWhile fun c => c == slash := by
  symm
  rw [List.eq_replicate_iff]
  exact ⟨rfl, fun c member => by simpa using List.mem_takeWhile_imp member⟩

theorem firstParts_split {slash : α} {path : List α} (absolute : path.head? = some slash) :
    (firstParts slash path).Split slash path where
  leading := by
    cases path with
    | nil => cases absolute
    | cons c path =>
        have same : c = slash := Option.some.inj absolute
        simp [firstParts, same]
  plain := fun found => by simpa using List.mem_takeWhile_imp found
  behind := by
    unfold firstParts
    simp only
    cases rest : (path.dropWhile fun c => c == slash).dropWhile fun c => c != slash with
    | nil => exact Or.inl rfl
    | cons c tail =>
        have head := List.head?_dropWhile_not (fun c => c != slash) (path.dropWhile fun c => c == slash)
        rw [rest] at head
        exact Or.inr (by simpa using head)
  whole := by
    unfold firstParts
    simp only
    rw [List.takeWhile_append_dropWhile, replicate_takeWhile, List.takeWhile_append_dropWhile]
  named := fun empty => by
    have head := List.head?_dropWhile_not (fun c => c == slash) path
    unfold firstParts at empty ⊢
    simp only at empty ⊢
    cases behind : path.dropWhile fun c => c == slash with
    | nil => rfl
    | cons c tail =>
        rw [behind] at empty head
        have plain : c ≠ slash := by simpa using head
        simp [plain] at empty

theorem takeWhile_component {slash : α} {first rest : List α} (plain : slash ∉ first)
    (behind : rest = [] ∨ rest.head? = some slash) :
    ((first ++ rest).takeWhile fun c => c != slash) = first ∧
      ((first ++ rest).dropWhile fun c => c != slash) = rest := by
  have every : ∀ c ∈ first, (c != slash) = true := fun c member =>
    bne_iff_ne.mpr fun same => plain (same ▸ member)
  rw [List.takeWhile_append_of_pos every, List.dropWhile_append_of_pos every]
  cases rest with
  | nil => exact ⟨List.append_nil _, rfl⟩
  | cons c tail =>
      have same : c = slash := by simpa using behind
      simp [same]

theorem takeWhile_leading {slash : α} (n : Nat) {tail : List α} (other : tail.head? ≠ some slash) :
    ((List.replicate n slash ++ tail).takeWhile fun c => c == slash) = List.replicate n slash ∧
      ((List.replicate n slash ++ tail).dropWhile fun c => c == slash) = tail := by
  have every : ∀ c ∈ List.replicate n slash, (c == slash) = true := fun c member =>
    beq_iff_eq.mpr (List.eq_of_mem_replicate member)
  rw [List.takeWhile_append_of_pos every, List.dropWhile_append_of_pos every]
  cases tail with
  | nil => exact ⟨List.append_nil _, rfl⟩
  | cons c tail =>
      have plain : c ≠ slash := fun same => other (congrArg some same)
      simp [plain]

/-- There is one way only to split a path so. -/
theorem Parts.Split.eq_firstParts {slash : α} {path : List α} {parts : Parts α}
    (split : parts.Split slash path) : parts = firstParts slash path := by
  have other : (parts.first ++ parts.rest).head? ≠ some slash := by
    cases first : parts.first with
    | nil =>
        rw [split.named first]
        exact fun no => by cases no
    | cons c tail =>
        intro same
        have plain := split.plain
        rw [first] at plain
        exact plain (List.mem_cons.mpr (Or.inl (Option.some.inj same).symm))
  obtain ⟨front, back⟩ := takeWhile_leading parts.slashes other
  obtain ⟨first, rest⟩ := takeWhile_component split.plain split.behind
  unfold firstParts
  rw [split.whole, front, back, first, rest, List.length_replicate]

/-! ## Following components -/

section Dot
variable (dot : α)

/-- The root has nothing above it. -/
def step (stack : List (List α)) (part : List α) : List (List α) :=
  if part = [dot] then stack
  else if part = [dot, dot] then stack.dropLast
  else stack ++ [part]

def walk (stack : List (List α)) (parts : List (List α)) : List (List α) :=
  parts.foldl (step dot) stack

theorem walk_append (stack parts more : List (List α)) :
    walk dot stack (parts ++ more) = walk dot (walk dot stack parts) more :=
  List.foldl_append

/-- `up` levels up, and then down along `rest`. -/
structure Climb (α : Type) where
  up : Nat
  rest : List (List α)
  deriving DecidableEq

def Climb.step (k : Climb α) (part : List α) : Climb α :=
  if part = [dot] then k
  else if part = [dot, dot] then
    if k.rest = [] then { k with up := k.up + 1 } else { k with rest := k.rest.dropLast }
  else { k with rest := k.rest ++ [part] }

def climb (parts : List (List α)) : Climb α := parts.foldl (Climb.step dot) ⟨0, []⟩

def Climb.apply (k : Climb α) (stack : List (List α)) : List (List α) := stack.rdrop k.up ++ k.rest

omit [DecidableEq α] in
theorem dropLast_rdrop (stack : List (List α)) (n : Nat) :
    (stack.rdrop n).dropLast = stack.rdrop (n + 1) := by
  rw [List.rdrop, List.rdrop, List.dropLast_eq_take, List.length_take, List.take_take]
  congr 1
  omega

theorem step_apply (k : Climb α) (stack : List (List α)) (part : List α) :
    step dot (k.apply stack) part = (k.step dot part).apply stack := by
  unfold step Climb.step Climb.apply
  split_ifs with here above empty
  · rfl
  · rw [empty, List.append_nil, dropLast_rdrop]
    simp only [List.append_nil]
  · rw [List.dropLast_append_of_ne_nil empty]
  · rw [List.append_assoc]

theorem foldl_apply (k : Climb α) (stack : List (List α)) (parts : List (List α)) :
    walk dot (k.apply stack) parts = (parts.foldl (Climb.step dot) k).apply stack := by
  induction parts generalizing k with
  | nil => rfl
  | cons part parts ih =>
      rw [List.foldl_cons, ← ih, ← step_apply]
      rfl

/-- A walk is the climb its components describe. -/
theorem walk_eq_climb (stack parts : List (List α)) :
    walk dot stack parts = (climb dot parts).apply stack := by
  have start : (⟨0, []⟩ : Climb α).apply stack = stack := by
    rw [Climb.apply, List.rdrop_zero, List.append_nil]
  have steps := foldl_apply dot ⟨0, []⟩ stack parts
  rwa [start] at steps

/-! ## Whole paths -/

section Slash
variable (slash : α)

def resolve (path : List α) : List (List α) := walk dot [] (components slash path)

theorem resolve_append (xs ys : List α) :
    resolve dot slash (xs ++ slash :: ys) =
      (climb dot (components slash ys)).apply (resolve dot slash xs) := by
  rw [resolve, components_append, walk_append, walk_eq_climb]
  rfl

def Beneath (base path : List α) : Prop := resolve dot slash base <+: resolve dot slash path

instance (base path : List α) : Decidable (Beneath dot slash base path) :=
  inferInstanceAs (Decidable (_ <+: _))

/-- A path that goes on from `base` without going up stays below it. -/
theorem beneath_of_no_climb {base path : List α}
    (stays : (climb dot (components slash path)).up = 0) :
    Beneath dot slash base (base ++ slash :: path) := by
  rw [Beneath, resolve_append, Climb.apply, stays, List.rdrop_zero]
  exact List.prefix_append _ _

end Slash
end Dot
end Middfs.LexicalPath
