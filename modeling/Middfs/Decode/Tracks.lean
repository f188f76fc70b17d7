import Middfs.Wire

/-!
# Decoders that follow a reader

`Follows f K slack`: on a buffer from which the reader `K` reads a value, `f`
stores that value, reports the bytes read and sets no error; on a buffer that
is too short for `K`, `f` reports more bytes than there are, at most `slack`
more, and sets no error.  `Tracks` says the same of a piece of a function body
that works on a cursor, and is closed under sequencing, so that a decoder is
shown to follow its reader field by field.
-/

set_option autoImplicit false

namespace Middfs

open Prefix

variable {σ α : Type}

structure Over (buf : List UInt8) (slack : Nat) (s : Cursor σ) : Prop where
  err : s.err = 0
  beyond : buf.length < s.used
  within : s.used ≤ buf.length + slack

structure Follows (f : Deserialize α) (K : Reader α) (slack : Nat) : Prop where
  done : ∀ buf a v rest, buf.length < 2 ^ 63 → (K a).run buf = .done v rest →
    f buf a 0 = ⟨buf.length - rest.length, v, 0⟩
  need : ∀ buf a, buf.length < 2 ^ 63 → (K a).run buf = .need → Over buf slack (f buf a 0)
  total : ∀ buf a why, (K a).run buf ≠ .refuse why
  hungry : ∀ a, (K a).run [] = .need

structure Tracks (g : List UInt8 → Cursor σ → Cursor σ) (K : Reader σ) (slack : Nat) : Prop where
  done : ∀ buf mid o o' rest, buf.length < 2 ^ 63 → (∃ used, buf = used ++ mid) →
    (K o).run mid = .done o' rest →
    g buf ⟨buf.length - mid.length, o, 0⟩ = ⟨buf.length - rest.length, o', 0⟩
  need : ∀ buf mid o, buf.length < 2 ^ 63 → (∃ used, buf = used ++ mid) →
    (K o).run mid = .need → Over buf slack (g buf ⟨buf.length - mid.length, o, 0⟩)
  past : ∀ buf s k, buf.length + k + slack < 2 ^ 64 → Over buf k s → Over buf (k + slack) (g buf s)
  total : ∀ buf o why, (K o).run buf ≠ .refuse why

theorem drop_to_mid {buf mid : List UInt8} (split : ∃ used, buf = used ++ mid) :
    buf.drop (buf.length - mid.length) = mid := by
  obtain ⟨used, rfl⟩ := split
  simp

theorem mid_length_le {buf mid : List UInt8} (split : ∃ used, buf = used ++ mid) :
    mid.length ≤ buf.length := by
  obtain ⟨used, rfl⟩ := split
  simp

theorem split_trans {buf mid rest : List UInt8} (first : ∃ used, buf = used ++ mid)
    (second : ∃ used, mid = used ++ rest) : ∃ used, buf = used ++ rest := by
  obtain ⟨usedFirst, rfl⟩ := first
  obtain ⟨usedSecond, rfl⟩ := second
  exact ⟨usedFirst ++ usedSecond, by rw [List.append_assoc]⟩

/-! ## Closure -/

theorem call_at (f : Deserialize α) (get : σ → α) (set : α → σ → σ) {buf mid : List UInt8}
    (split : ∃ used, buf = used ++ mid) (o : σ) :
    (⟨buf.length - mid.length, o, 0⟩ : Cursor σ).call buf f get set =
      ⟨sizeAdd (buf.length - mid.length) (f mid (get o) 0).used, set (f mid (get o) 0).obj o,
        (f mid (get o) 0).err⟩ := by
  simp only [Cursor.call, drop_to_mid split]

theorem Over.call {buf mid : List UInt8} {slack : Nat} {r : Cursor α} (bound : buf.length < 2 ^ 63)
    (fits : slack ≤ 2 ^ 62) (split : ∃ used, buf = used ++ mid) (past : Over mid slack r) (o : σ) :
    Over buf slack ⟨sizeAdd (buf.length - mid.length) r.used, o, r.err⟩ := by
  have midLe := mid_length_le split
  have beyond := past.beyond
  have within := past.within
  have sum := sizeAdd_of_lt (a := buf.length - mid.length) (b := r.used) (by omega)
  exact ⟨past.err, by simp only [sum]; omega, by simp only [sum]; omega⟩

theorem Over.mono {buf : List UInt8} {k slack : Nat} {s : Cursor σ} (past : Over buf k s)
    (le : k ≤ slack) : Over buf slack s :=
  ⟨past.err, past.beyond, Nat.le_trans past.within (by omega)⟩

theorem Tracks.call {f : Deserialize α} {K : Reader α} {slack : Nat} (follows : Follows f K slack)
    (small : slack < 2 ^ 62) (get : σ → α) (set : α → σ → σ) :
    Tracks (fun buf s => s.call buf f get set) (fill K get set) slack where
  done := by
    intro buf mid o o' rest bound split read
    obtain ⟨v, first, rfl⟩ := fill_eq_done.mp read
    have midLe := mid_length_le split
    have restLe := (K (get o)).rest_length_le first
    have answer := follows.done mid (get o) v rest (by omega) first
    simp only [call_at f get set split, answer]
    rw [sizeAdd_of_lt (by omega)]
    congr 1
    omega
  need := by
    intro buf mid o bound split read
    have midLe := mid_length_le split
    have past := follows.need mid (get o) (by omega) (fill_eq_need.mp read)
    simp only [call_at f get set split]
    exact past.call bound (by omega) split (set (f mid (get o) 0).obj o)
  past := by
    intro buf s k room past
    have gone : buf.drop s.used = [] := List.drop_eq_nil_of_le (Nat.le_of_lt past.beyond)
    obtain ⟨err, beyond, within⟩ :=
      follows.need [] (get s.obj) (by simp) (follows.hungry (get s.obj))
    have first := past.within
    have second := past.beyond
    simp only [List.length_nil, Nat.zero_add] at beyond within
    simp only [Cursor.call, gone, past.err]
    have sum := sizeAdd_of_lt (a := s.used) (b := (f [] (get s.obj) 0).used) (by omega)
    exact ⟨err, by simp only [sum]; omega, by simp only [sum]; omega⟩
  total := by
    intro buf o why read
    exact follows.total buf (get o) why (fill_eq_refuse.mp read)

theorem Tracks.seq {g h : List UInt8 → Cursor σ → Cursor σ} {K L : Reader σ} {c d : Nat}
    (first : Tracks g K c) (second : Tracks h L d) (small : c + d < 2 ^ 62) :
    Tracks (fun buf s => h buf (g buf s)) (fun o => K o >>= L) (c + d) where
  done := by
    intro buf mid o o' rest bound split read
    obtain ⟨v, last, readFirst, readSecond⟩ := bind_eq_done.mp read
    have splitLast := split_trans split ((K o).suffix mid v last readFirst)
    simp only [first.done buf mid o v last bound split readFirst]
    exact second.done buf last v o' rest bound splitLast readSecond
  need := by
    intro buf mid o bound split read
    rcases Res.andThen_eq_need read with readFirst | ⟨v, last, readFirst, readSecond⟩
    · have past := first.need buf mid o bound split readFirst
      exact second.past buf _ c (by omega) past
    · have splitLast := split_trans split ((K o).suffix mid v last readFirst)
      simp only [first.done buf mid o v last bound split readFirst]
      have past := second.need buf last v bound splitLast readSecond
      exact ⟨past.err, past.beyond, by have := past.within; omega⟩
  past := by
    intro buf s k room past
    have middle := first.past buf s k (by omega) past
    have final := second.past buf _ (k + c) (by omega) middle
    exact ⟨final.err, final.beyond, by have := final.within; omega⟩
  total := by
    intro buf o why read
    rcases Res.andThen_eq_refuse read with readFirst | ⟨v, last, _, readSecond⟩
    · exact first.total buf o why readFirst
    · exact second.total last v why readSecond

theorem Tracks.callIf {f : Deserialize α} {K : Reader α} {slack : Nat}
    (follows : Follows f K slack) (small : slack < 2 ^ 62) (cond : Bool) (get : σ → α)
    (set : α → σ → σ) :
    Tracks (fun buf s => if cond then s.call buf f get set else s) (fillIf cond K get set)
      slack := by
  cases cond with
  | true => exact Tracks.call follows small get set
  | false =>
      constructor
      · intro buf mid o o' rest _ _ read
        cases read
        rfl
      · intro buf mid o _ _ read
        cases read
      · intro buf s k _ past
        have within : s.used ≤ buf.length + (k + slack) := by
          have := past.within
          omega
        exact ⟨past.err, past.beyond, within⟩
      · intro buf o why read
        cases read

theorem Tracks.follows {g : List UInt8 → Cursor α → Cursor α} {K : Reader α} {slack : Nat}
    (tracks : Tracks g K slack) (hungry : ∀ a, (K a).run [] = .need) {f : Deserialize α}
    (body : ∀ buf a, f buf a 0 = g buf ⟨0, a, 0⟩) : Follows f K slack where
  done := by
    intro buf a v rest bound read
    have whole := tracks.done buf buf a v rest bound ⟨[], rfl⟩ read
    rw [body]
    simpa using whole
  need := by
    intro buf a bound read
    have whole := tracks.need buf buf a bound ⟨[], rfl⟩ read
    rw [body]
    simpa using whole
  total := tracks.total
  hungry := hungry

end Middfs
