import Mathlib.Data.List.Basic
import Mathlib.Tactic

/-!
# Parsers that read a prefix of a growing stream

A parser looks at the tokens received so far and answers one of three things:
more tokens are needed, the stream is refused whatever follows, or a value was
read and some tokens are left over.  A definite answer never changes when the
stream grows; that law and the suffix law are fields of `Parser`, so every
parser assembled from the combinators below carries them.
-/

set_option autoImplicit false

namespace Middfs.Prefix

universe u

inductive Res (τ ε : Type) (α : Type u) where
  | need
  | refuse (why : ε)
  | done (value : α) (rest : List τ)
  deriving DecidableEq, Repr

structure Parser (τ ε α : Type) where
  run : List τ → Res τ ε α
  grow_done : ∀ ts us v rest, run ts = .done v rest → run (ts ++ us) = .done v (rest ++ us)
  grow_refuse : ∀ ts us why, run ts = .refuse why → run (ts ++ us) = .refuse why
  suffix : ∀ ts v rest, run ts = .done v rest → ∃ used, ts = used ++ rest

variable {τ ε α β : Type}

theorem Parser.rest_length_le (p : Parser τ ε α) {ts rest : List τ} {v : α}
    (read : p.run ts = .done v rest) : rest.length ≤ ts.length := by
  obtain ⟨used, split⟩ := p.suffix ts v rest read
  simp [split]

/-! ## Combinators -/

def ret (v : α) : Parser τ ε α where
  run ts := .done v ts
  grow_done := by
    intro ts us w rest read
    cases read
    rfl
  grow_refuse := by
    intro ts us why read
    cases read
  suffix := by
    intro ts w rest read
    cases read
    exact ⟨[], rfl⟩

def refuse (why : ε) : Parser τ ε α where
  run _ := .refuse why
  grow_done := by
    intro ts us w rest read
    cases read
  grow_refuse := by
    intro ts us other read
    exact read
  suffix := by
    intro ts w rest read
    cases read

def Res.andThen (r : Res τ ε α) (next : α → List τ → Res τ ε β) : Res τ ε β :=
  match r with
  | .need => .need
  | .refuse why => .refuse why
  | .done v rest => next v rest

@[simp] theorem Res.andThen_need (next : α → List τ → Res τ ε β) :
    (Res.need : Res τ ε α).andThen next = .need := rfl

@[simp] theorem Res.andThen_refuse (why : ε) (next : α → List τ → Res τ ε β) :
    (Res.refuse why : Res τ ε α).andThen next = .refuse why := rfl

@[simp] theorem Res.andThen_done (v : α) (rest : List τ) (next : α → List τ → Res τ ε β) :
    (Res.done v rest : Res τ ε α).andThen next = next v rest := rfl

theorem Res.andThen_eq_done {r : Res τ ε α} {next : α → List τ → Res τ ε β} {w : β}
    {rest : List τ} (read : r.andThen next = .done w rest) :
    ∃ v mid, r = .done v mid ∧ next v mid = .done w rest := by
  cases r with
  | need => cases read
  | refuse why => cases read
  | done v mid => exact ⟨v, mid, rfl, read⟩

theorem Res.andThen_eq_refuse {r : Res τ ε α} {next : α → List τ → Res τ ε β} {why : ε}
    (read : r.andThen next = .refuse why) :
    r = .refuse why ∨ ∃ v mid, r = .done v mid ∧ next v mid = .refuse why := by
  cases r with
  | need => cases read
  | refuse other =>
      cases read
      exact Or.inl rfl
  | done v mid => exact Or.inr ⟨v, mid, rfl, read⟩

theorem Res.andThen_eq_need {r : Res τ ε α} {next : α → List τ → Res τ ε β}
    (read : r.andThen next = .need) :
    r = .need ∨ ∃ v mid, r = .done v mid ∧ next v mid = .need := by
  cases r with
  | need => exact Or.inl rfl
  | refuse why => cases read
  | done v mid => exact Or.inr ⟨v, mid, rfl, read⟩

def bind (p : Parser τ ε α) (next : α → Parser τ ε β) : Parser τ ε β where
  run ts := (p.run ts).andThen fun v rest => (next v).run rest
  grow_done := by
    intro ts us w rest read
    obtain ⟨v, mid, first, second⟩ := Res.andThen_eq_done read
    rw [p.grow_done ts us v mid first]
    exact (next v).grow_done mid us w rest second
  grow_refuse := by
    intro ts us why read
    rcases Res.andThen_eq_refuse read with first | ⟨v, mid, first, second⟩
    · rw [p.grow_refuse ts us why first]
      rfl
    · rw [p.grow_done ts us v mid first]
      exact (next v).grow_refuse mid us why second
  suffix := by
    intro ts w rest read
    obtain ⟨v, mid, first, second⟩ := Res.andThen_eq_done read
    obtain ⟨usedFirst, splitFirst⟩ := p.suffix ts v mid first
    obtain ⟨usedSecond, splitSecond⟩ := (next v).suffix mid w rest second
    exact ⟨usedFirst ++ usedSecond, by rw [splitFirst, splitSecond, List.append_assoc]⟩

instance : Monad (Parser τ ε) where
  pure := ret
  bind := bind

@[simp] theorem run_pure (v : α) (ts : List τ) :
    (pure v : Parser τ ε α).run ts = .done v ts := rfl

@[simp] theorem run_bind (p : Parser τ ε α) (next : α → Parser τ ε β) (ts : List τ) :
    (p >>= next).run ts = (p.run ts).andThen fun v rest => (next v).run rest := rfl

@[simp] theorem run_refuse (why : ε) (ts : List τ) :
    (refuse why : Parser τ ε α).run ts = .refuse why := rfl

theorem bind_eq_done {p : Parser τ ε α} {next : α → Parser τ ε β} {ts rest : List τ} {w : β} :
    (p >>= next).run ts = .done w rest ↔
      ∃ v mid, p.run ts = .done v mid ∧ (next v).run mid = .done w rest := by
  constructor
  · exact Res.andThen_eq_done
  · rintro ⟨v, mid, first, second⟩
    simp [first, second]

def take (n : Nat) : Parser τ ε (List τ) where
  run ts := if n ≤ ts.length then .done (ts.take n) (ts.drop n) else .need
  grow_done := by
    intro ts us v rest read
    by_cases enough : n ≤ ts.length
    · rw [if_pos enough] at read
      cases read
      have longer : n ≤ (ts ++ us).length := by
        rw [List.length_append]
        omega
      rw [if_pos longer, List.take_append_of_le_length enough,
        List.drop_append_of_le_length enough]
    · rw [if_neg enough] at read
      cases read
  grow_refuse := by
    intro ts us why read
    split at read <;> cases read
  suffix := by
    intro ts v rest read
    split at read
    · cases read
      exact ⟨ts.take n, (List.take_append_drop n ts).symm⟩
    · cases read

theorem run_take (n : Nat) (ts : List τ) :
    (take n : Parser τ ε (List τ)).run ts =
      if n ≤ ts.length then .done (ts.take n) (ts.drop n) else .need := rfl

@[simp] theorem run_take_append (used rest : List τ) :
    (take used.length : Parser τ ε (List τ)).run (used ++ rest) = .done used rest := by
  simp [run_take]

theorem take_eq_done {n : Nat} {ts v rest : List τ} :
    (take n : Parser τ ε (List τ)).run ts = .done v rest ↔ ts = v ++ rest ∧ v.length = n := by
  rw [run_take]
  constructor
  · intro read
    split at read
    · rename_i enough
      cases read
      exact ⟨(List.take_append_drop n ts).symm, List.length_take_of_le enough⟩
    · cases read
  · rintro ⟨split, rfl⟩
    simp [split]

section Line
variable [DecidableEq τ]

/-- The tokens before the first `stop`, and the tokens after it. -/
def cut (stop : τ) : List τ → Option ({v : List τ // stop ∉ v} × List τ)
  | [] => none
  | t :: ts =>
      if hit : stop = t then some (⟨[], List.not_mem_nil⟩, ts)
      else (cut stop ts).map fun found =>
        (⟨t :: found.1.val, List.not_mem_cons_of_ne_of_not_mem hit found.1.property⟩, found.2)

theorem cut_eq_some {stop : τ} {ts rest : List τ} {v : {v : List τ // stop ∉ v}} :
    cut stop ts = some (v, rest) ↔ ts = v.val ++ stop :: rest := by
  induction ts generalizing v with
  | nil => simp [cut]
  | cons t ts ih =>
      obtain ⟨v, free⟩ := v
      by_cases hit : stop = t
      · subst hit
        cases v with
        | nil => simp [cut]
        | cons head tail =>
            have differs : stop ≠ head := fun same => free (same ▸ List.mem_cons_self ..)
            simp [cut, differs]
      · cases v with
        | nil => simp [cut, hit, Ne.symm hit]
        | cons head tail =>
            have tailFree : stop ∉ tail := fun found => free (List.mem_cons_of_mem _ found)
            have step := ih (v := ⟨tail, tailFree⟩)
            simp only [cut, dif_neg hit, Option.map_eq_some_iff, Prod.mk.injEq, Subtype.mk.injEq,
              List.cons.injEq, List.cons_append]
            constructor
            · rintro ⟨⟨⟨found, foundFree⟩, after⟩, cutTail, ⟨rfl, rfl⟩, rfl⟩
              exact ⟨rfl, step.mp cutTail⟩
            · rintro ⟨rfl, split⟩
              exact ⟨(⟨tail, tailFree⟩, rest), step.mpr split, ⟨rfl, rfl⟩, rfl⟩

theorem cut_eq_none {stop : τ} {ts : List τ} : cut stop ts = none ↔ stop ∉ ts := by
  induction ts with
  | nil => simp [cut]
  | cons t ts ih =>
      by_cases hit : stop = t
      · simp [cut, hit]
      · simp [cut, hit, ih]

def line (stop : τ) : Parser τ ε {v : List τ // stop ∉ v} where
  run ts :=
    match cut stop ts with
    | none => .need
    | some (v, rest) => .done v rest
  grow_done := by
    intro ts us v rest read
    cases found : cut stop ts with
    | none => simp [found] at read
    | some pair =>
        obtain ⟨w, after⟩ := pair
        simp only [found, Res.done.injEq] at read
        obtain ⟨rfl, rfl⟩ := read
        have split : ts ++ us = w.val ++ stop :: (after ++ us) := by
          rw [cut_eq_some.mp found, List.append_assoc, List.cons_append]
        rw [cut_eq_some.mpr split]
  grow_refuse := by
    intro ts us why read
    split at read <;> cases read
  suffix := by
    intro ts v rest read
    cases found : cut stop ts with
    | none => simp [found] at read
    | some pair =>
        obtain ⟨w, after⟩ := pair
        simp only [found, Res.done.injEq] at read
        obtain ⟨rfl, rfl⟩ := read
        exact ⟨w.val ++ [stop], by simpa using cut_eq_some.mp found⟩

theorem line_eq_done {stop : τ} {ts rest : List τ} {v : {v : List τ // stop ∉ v}} :
    (line stop : Parser τ ε _).run ts = .done v rest ↔ ts = v.val ++ stop :: rest := by
  rw [← cut_eq_some]
  simp only [line]
  cases cut stop ts with
  | none => simp
  | some pair => simp [Prod.ext_iff]

@[simp] theorem run_line_append (stop : τ) (v : {v : List τ // stop ∉ v}) (rest : List τ) :
    (line stop : Parser τ ε _).run (v.val ++ stop :: rest) = .done v rest :=
  line_eq_done.mpr rfl

theorem line_eq_need {stop : τ} {ts : List τ} :
    (line stop : Parser τ ε _).run ts = .need ↔ stop ∉ ts := by
  rw [← cut_eq_none]
  simp only [line]
  cases cut stop ts with
  | none => simp
  | some pair => simp

theorem line_ne_refuse {stop : τ} {ts : List τ} {why : ε} :
    (line stop : Parser τ ε _).run ts ≠ .refuse why := by
  simp only [line]
  split <;> simp

end Line

def times (p : Parser τ ε α) : Nat → Parser τ ε (List α)
  | 0 => pure []
  | n + 1 => do
      let v ← p
      let vs ← times p n
      pure (v :: vs)

theorem times_length (p : Parser τ ε α) (n : Nat) {ts rest : List τ} {vs : List α}
    (read : (times p n).run ts = .done vs rest) : vs.length = n := by
  induction n generalizing ts vs with
  | zero =>
      cases read
      rfl
  | succ n ih =>
      obtain ⟨v, mid, _, tail⟩ := bind_eq_done.mp read
      obtain ⟨ws, last, tailRead, built⟩ := bind_eq_done.mp tail
      cases built
      simp [ih tailRead]

theorem times_ne_refuse (p : Parser τ ε α) (total : ∀ ts why, p.run ts ≠ .refuse why) (n : Nat)
    (ts : List τ) (why : ε) : (times p n).run ts ≠ .refuse why := by
  induction n generalizing ts with
  | zero => exact fun read => nomatch read
  | succ n ih =>
      intro read
      rcases Res.andThen_eq_refuse read with head | ⟨v, mid, _, tail⟩
      · exact total ts why head
      · rcases Res.andThen_eq_refuse tail with tailRead | ⟨vs, last, _, built⟩
        · exact ih mid tailRead
        · cases built

theorem run_times_flatMap (p : Parser τ ε α) (print : α → List τ) (vs : List α)
    (back : ∀ v ∈ vs, ∀ rest, p.run (print v ++ rest) = .done v rest) (rest : List τ) :
    (times p vs.length).run (vs.flatMap print ++ rest) = .done vs rest := by
  induction vs with
  | nil => rfl
  | cons v vs ih =>
      have head := back v (List.mem_cons_self ..)
      have tail := ih (fun w found => back w (List.mem_cons_of_mem _ found))
      simp only [List.length_cons, times, List.flatMap_cons, List.append_assoc, run_bind, head,
        Res.andThen_done, tail, run_pure]

theorem times_split (p : Parser τ ε α) (print : α → List τ) (ok : α → Prop)
    (sound : ∀ ts v rest, p.run ts = .done v rest → ts = print v ++ rest ∧ ok v) (n : Nat)
    {ts rest : List τ} {vs : List α} (read : (times p n).run ts = .done vs rest) :
    ts = vs.flatMap print ++ rest ∧ ∀ v ∈ vs, ok v := by
  induction n generalizing ts vs with
  | zero =>
      cases read
      exact ⟨rfl, by simp⟩
  | succ n ih =>
      obtain ⟨v, mid, head, tail⟩ := bind_eq_done.mp read
      obtain ⟨ws, last, tailRead, built⟩ := bind_eq_done.mp tail
      cases built
      obtain ⟨splitHead, okHead⟩ := sound ts v mid head
      obtain ⟨splitTail, okTail⟩ := ih tailRead
      refine ⟨by rw [splitHead, splitTail, List.flatMap_cons, List.append_assoc], ?_⟩
      simpa using ⟨okHead, okTail⟩

end Middfs.Prefix
