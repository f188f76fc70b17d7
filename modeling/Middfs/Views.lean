import Middfs.Runs

/-!
# What is seen of a run

Some actions of a machine are seen, and the others leave what is seen as it was,
as long as an invariant holds.  What is seen of a run is then the run of the
actions that are seen.  Two machines that do the same while an invariant holds
have the same runs.
-/

set_option autoImplicit false

namespace Middfs.Runs

variable {σ τ α ε : Type}

def purged (step : α → σ → Except ε σ) (keep : α → σ → Bool) : List α → σ → List α
  | [], _ => []
  | a :: actions, s =>
      match step a s with
      | .error _ => []
      | .ok next =>
          if keep a s then a :: purged step keep actions next else purged step keep actions next

theorem steps_purged {step : α → σ → Except ε σ} {step' : α → τ → Except ε τ} {view : σ → τ}
    {keep : α → σ → Bool} {inv : σ → Prop}
    (keeps : ∀ a s s', inv s → step a s = .ok s' → inv s')
    (kept : ∀ a s s', inv s → keep a s = true → step a s = .ok s' → step' a (view s) = .ok (view s'))
    (hidden : ∀ a s s', inv s → keep a s = false → step a s = .ok s' → view s' = view s)
    {actions : List α} {s t : σ} (starts : inv s) (done : steps step actions s = .ok t) :
    steps step' (purged step keep actions s) (view s) = .ok (view t) := by
  induction actions generalizing s with
  | nil =>
      cases done
      rfl
  | cons a actions ih =>
      unfold steps at done
      unfold purged
      cases next : step a s with
      | error e =>
          rw [next] at done
          cases done
      | ok s' =>
          rw [next] at done
          have later := ih (keeps a s s' starts next) done
          cases seen : keep a s with
          | false =>
              rw [hidden a s s' starts seen next] at later
              simpa only [Bool.false_eq_true, if_false] using later
          | true =>
              simp only [if_true, steps, kept a s s' starts seen next]
              exact later

/-- Two machines that do the same as long as the invariant holds. -/
theorem steps_congr {step step' : α → σ → Except ε σ} {inv : σ → Prop} {actions : List α}
    (keeps : ∀ a ∈ actions, ∀ s s', inv s → step a s = .ok s' → inv s')
    (same : ∀ a ∈ actions, ∀ s, inv s → step a s = step' a s) {s : σ} (starts : inv s) :
    steps step actions s = steps step' actions s := by
  induction actions generalizing s with
  | nil => rfl
  | cons a actions ih =>
      unfold steps
      rw [← same a List.mem_cons_self s starts]
      cases next : step a s with
      | error e => rfl
      | ok s' =>
          exact ih (fun b member => keeps b (List.mem_cons_of_mem a member))
            (fun b member => same b (List.mem_cons_of_mem a member)) (keeps a List.mem_cons_self s s' starts next)

end Middfs.Runs
