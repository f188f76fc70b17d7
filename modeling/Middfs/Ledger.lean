import Mathlib.Data.Finset.Basic
import Mathlib.Data.Finset.Insert

/-!
# Ledgers

Tokens are in use, each once.  What a step does to them is said of those that
are at hand, whoever uses the rest: `Transfers used used' before after`.
-/

set_option autoImplicit false

namespace Middfs.Ledger

variable {α : Type}

/-- Where `before` were at hand there are `after`, and the rest is as it was. -/
def Transfers (used used' : Finset α) (before after : Multiset α) : Prop :=
  ∀ rest, used.val = before + rest → used'.val = after + rest

variable {used used' used'' : Finset α} {before between after : Multiset α}

theorem Transfers.trans (first : Transfers used used' before between)
    (second : Transfers used' used'' between after) : Transfers used used'' before after :=
  fun rest all => second rest (first rest all)

/-- The frame rule. -/
theorem Transfers.frame (moves : Transfers used used' before after) (frame : Multiset α) :
    Transfers used used' (frame + before) (frame + after) := by
  intro rest all
  have moved := moves (frame + rest) (by rw [all, Multiset.add_comm frame, Multiset.add_assoc])
  rw [moved, ← Multiset.add_assoc, Multiset.add_comm after]

theorem transfers_refl (used : Finset α) (held : Multiset α) : Transfers used used held held :=
  fun _ all => all

theorem transfers_same (same : used' = used) (held : Multiset α) : Transfers used used' held held :=
  same ▸ transfers_refl used held

section Decidable
variable [DecidableEq α] {a : α}

theorem transfers_take (free : a ∉ used) (taken : used' = insert a used) (held : Multiset α) :
    Transfers used used' held (a ::ₘ held) := by
  intro rest all
  rw [taken, Finset.insert_val_of_notMem free, all, Multiset.cons_add]

theorem transfers_give (given : used' = used.erase a) (held : Multiset α) :
    Transfers used used' (a ::ₘ held) held := by
  intro rest all
  rw [given, Finset.erase_val, all, Multiset.cons_add, Multiset.erase_cons_head]

end Decidable

end Middfs.Ledger
