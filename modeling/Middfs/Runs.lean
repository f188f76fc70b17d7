import Mathlib.Tactic

/-!
# Runs of a machine that can fail

A machine takes an action in a state and goes to another state, or fails.
`Reached` collects the states of the runs in which every action meets a
condition on it and the state it is taken in.  A run can be recorded, and two
machines can take their steps in any order.
-/

set_option autoImplicit false

namespace Middfs.Runs

variable {σ α ε : Type}

inductive Reached (step : α → σ → Except ε σ) (meets : α → σ → Prop) (start : σ) : σ → Prop where
  | start : Reached step meets start start
  | step {s s' : σ} (a : α) : Reached step meets start s → meets a s → step a s = .ok s' →
      Reached step meets start s'

variable {step : α → σ → Except ε σ} {meets : α → σ → Prop} {start s : σ}

/-- The invariant rule. -/
theorem Reached.invariant {inv : σ → Prop} (reached : Reached step meets start s)
    (starts : inv start)
    (keeps : ∀ a s s', inv s → meets a s → step a s = .ok s' → inv s') : inv s := by
  induction reached with
  | start => exact starts
  | step a _ met next ih => exact keeps a _ _ ih met next

theorem Reached.trans {t : σ} (first : Reached step meets start s)
    (second : Reached step meets s t) : Reached step meets start t := by
  induction second with
  | start => exact first
  | step a _ met next ih => exact .step a ih met next

theorem Reached.mono {meets' : α → σ → Prop} (reached : Reached step meets start s)
    (weaker : ∀ a s, meets a s → meets' a s) : Reached step meets' start s := by
  induction reached with
  | start => exact .start
  | step a _ met next ih => exact .step a ih (weaker a _ met) next

def steps (step : α → σ → Except ε σ) : List α → σ → Except ε σ
  | [], s => .ok s
  | a :: actions, s =>
      match step a s with
      | .error e => .error e
      | .ok next => steps step actions next

theorem Reached.of_steps {actions : List α} {t : σ} (done : steps step actions s = .ok t) :
    Reached step (fun _ _ => True) s t := by
  induction actions generalizing s with
  | nil =>
      cases done
      exact .start
  | cons a actions ih =>
      unfold steps at done
      cases next : step a s with
      | error e =>
          rw [next] at done
          cases done
      | ok s' =>
          rw [next] at done
          exact (Reached.step a .start trivial next).trans (ih done)

/-- Whether the states in which the actions are taken pass a check. -/
def passes (step : α → σ → Except ε σ) (check : α → σ → Bool) : List α → σ → Bool
  | [], _ => true
  | a :: actions, s =>
      check a s &&
        match step a s with
        | .error _ => false
        | .ok next => passes step check actions next

theorem Reached.of_passes {check : α → σ → Bool} {actions : List α} {t : σ}
    (sound : ∀ a ∈ actions, ∀ s, check a s = true → meets a s)
    (passed : passes step check actions s = true) (done : steps step actions s = .ok t) :
    Reached step meets s t := by
  induction actions generalizing s with
  | nil =>
      cases done
      exact .start
  | cons a actions ih =>
      unfold steps at done
      unfold passes at passed
      cases next : step a s with
      | error e =>
          rw [next] at done
          cases done
      | ok s' =>
          rw [next] at done
          simp only [next, Bool.and_eq_true] at passed
          have first : Reached step meets s s' :=
            .step a .start (sound a List.mem_cons_self s passed.1) next
          exact first.trans
            (ih (fun b member => sound b (List.mem_cons_of_mem a member)) passed.2 done)

/-! ## Records -/

section Records
variable {β : Type}

/-- The machine that also keeps a record of what its steps emit. -/
def recording (step : α → σ → Except ε σ) (emits : α → σ → List β) (a : α) (s : σ × List β) :
    Except ε (σ × List β) :=
  match step a s.1 with
  | .error e => .error e
  | .ok next => .ok (next, s.2 ++ emits a s.1)

theorem recording_ok {emits : α → σ → List β} {a : α} {s s' : σ × List β}
    (done : recording step emits a s = .ok s') :
    step a s.1 = .ok s'.1 ∧ s'.2 = s.2 ++ emits a s.1 := by
  unfold recording at done
  split at done
  · cases done
  · rename_i next
    cases done
    exact ⟨next, rfl⟩

end Records

/-! ## Two machines -/

section Two
variable {τ γ : Type}

/-- The steps of two machines, in any order. -/
def interleaved (stepA : α → σ → Except ε σ) (stepB : γ → τ → Except ε τ) :
    α ⊕ γ → σ × τ → Except ε (σ × τ)
  | .inl a, s => (stepA a s.1).map fun next => (next, s.2)
  | .inr b, s => (stepB b s.2).map fun next => (s.1, next)

inductive Interleaves (stepA : α → σ → Except ε σ) (stepB : γ → τ → Except ε τ) (s : σ × τ) :
    α ⊕ γ → σ × τ → Prop where
  | left (a : α) (next : σ) : stepA a s.1 = .ok next → Interleaves stepA stepB s (.inl a) (next, s.2)
  | right (b : γ) (next : τ) : stepB b s.2 = .ok next → Interleaves stepA stepB s (.inr b) (s.1, next)

theorem interleaved_cases {stepA : α → σ → Except ε σ} {stepB : γ → τ → Except ε τ} {action : α ⊕ γ}
    {s s' : σ × τ} (done : interleaved stepA stepB action s = .ok s') :
    Interleaves stepA stepB s action s' := by
  cases action with
  | inl a =>
      cases next : stepA a s.1 with
      | error e =>
          simp only [interleaved, next, Except.map] at done
          cases done
      | ok next' =>
          simp only [interleaved, next, Except.map] at done
          cases done
          exact .left a next' next
  | inr b =>
      cases next : stepB b s.2 with
      | error e =>
          simp only [interleaved, next, Except.map] at done
          cases done
      | ok next' =>
          simp only [interleaved, next, Except.map] at done
          cases done
          exact .right b next' next

/-- Of a run of both machines, the run of each. -/
theorem Reached.left {stepA : α → σ → Except ε σ} {stepB : γ → τ → Except ε τ}
    {meets : α ⊕ γ → σ × τ → Prop} {first last : σ × τ}
    (run : Reached (interleaved stepA stepB) meets first last) :
    Reached stepA (fun _ _ => True) first.1 last.1 := by
  induction run with
  | start => exact .start
  | step _ _ _ next ih =>
      cases interleaved_cases next with
      | left a _ done => exact .step a ih trivial done
      | right _ _ _ => exact ih

theorem Reached.right {stepA : α → σ → Except ε σ} {stepB : γ → τ → Except ε τ}
    {meets : α ⊕ γ → σ × τ → Prop} {first last : σ × τ}
    (run : Reached (interleaved stepA stepB) meets first last) :
    Reached stepB (fun _ _ => True) first.2 last.2 := by
  induction run with
  | start => exact .start
  | step _ _ _ next ih =>
      cases interleaved_cases next with
      | left _ _ _ => exact ih
      | right b _ done => exact .step b ih trivial done

end Two
end Middfs.Runs
