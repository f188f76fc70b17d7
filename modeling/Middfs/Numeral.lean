import Mathlib.Data.List.TakeWhile
import Mathlib.Tactic.Linarith

/-!
# Integers as text

The integers that C reads in base 0: white space, a sign and a constant, which
is decimal, octal or hexadecimal.  `Denotes` is the syntax with its meaning;
`scan` reads the longest integer that a text begins with.
-/

set_option autoImplicit false

namespace Middfs.Numeral

def zero : UInt8 := 48

def plus : UInt8 := 43

def minus : UInt8 := 45

/-! ## Digits -/

/-- The digit that a character stands for; letters go on from ten. -/
def digitOf (c : UInt8) : Option Nat :=
  if 48 ≤ c ∧ c ≤ 57 then some (c.toNat - 48)
  else if 65 ≤ c ∧ c ≤ 90 then some (c.toNat - 55)
  else if 97 ≤ c ∧ c ≤ 122 then some (c.toNat - 87)
  else none

def isDigit (base : Nat) (c : UInt8) : Bool :=
  match digitOf c with
  | some d => d < base
  | none => false

def isSpace (c : UInt8) : Bool := c = 32 ∨ 9 ≤ c ∧ c ≤ 13

def Digits (base : Nat) (digits : List UInt8) : Prop := ∀ c ∈ digits, isDigit base c = true

/-- The number that digits denote, the first one counting most. -/
def value (base : Nat) (digits : List UInt8) : Nat :=
  digits.foldl (fun n c => base * n + (digitOf c).getD 0) 0

theorem digits_takeWhile (base : Nat) (text : List UInt8) : Digits base (text.takeWhile (isDigit base)) :=
  fun _ member => List.mem_takeWhile_imp member

theorem Digits.takeWhile_append {base : Nat} {digits : List UInt8} (all : Digits base digits)
    (rest : List UInt8) :
    (digits ++ rest).takeWhile (isDigit base) = digits ++ rest.takeWhile (isDigit base) ∧
      (digits ++ rest).dropWhile (isDigit base) = rest.dropWhile (isDigit base) :=
  ⟨List.takeWhile_append_of_pos all, List.dropWhile_append_of_pos all⟩

theorem isDigit_iff {base : Nat} (small : base ≤ 10) (c : UInt8) :
    isDigit base c = true ↔ 48 ≤ c.toNat ∧ c.toNat < 48 + base := by
  unfold isDigit digitOf
  simp only [UInt8.le_iff_toNat_le, UInt8.toNat_ofNat]
  split_ifs with figure upper lower
  · simp only [decide_eq_true_eq]
    omega
  · simp only [decide_eq_true_eq]
    omega
  · simp only [decide_eq_true_eq]
    omega
  · simp only [false_iff]
    omega

theorem decimal_of_octal {c : UInt8} (octal : isDigit 8 c = true) : isDigit 10 c = true := by
  rw [isDigit_iff (by decide)] at octal ⊢
  omega

theorem isDigit_zero {base : Nat} (positive : 0 < base) : isDigit base zero = true := by
  have same : digitOf zero = some 0 := by decide
  simp only [isDigit, same, decide_eq_true_eq]
  exact positive

theorem decimal_ne {c : UInt8} (decimal : isDigit 10 c = true) {d : UInt8}
    (other : d.toNat < 48 ∨ 58 ≤ d.toNat) : c ≠ d := by
  rintro rfl
  rw [isDigit_iff (by decide)] at decimal
  omega

theorem decimal_notSpace {c : UInt8} (decimal : isDigit 10 c = true) : isSpace c = false := by
  rw [isDigit_iff (by decide)] at decimal
  simp only [isSpace, UInt8.le_iff_toNat_le, UInt8.toNat_ofNat, decide_eq_false_iff_not, not_or,
    ← UInt8.toNat_inj]
  omega

/-! ## Constants -/

def IsX (c : UInt8) : Prop := c = 120 ∨ c = 88

instance (c : UInt8) : Decidable (IsX c) := inferInstanceAs (Decidable (_ ∨ _))

inductive Constant : List UInt8 → Nat → Prop where
  | decimal (c : UInt8) (digits : List UInt8) : c ≠ zero → Digits 10 (c :: digits) →
      Constant (c :: digits) (value 10 (c :: digits))
  | octal (digits : List UInt8) : Digits 8 (zero :: digits) →
      Constant (zero :: digits) (value 8 (zero :: digits))
  | hexadecimal (x d : UInt8) (digits : List UInt8) : IsX x → Digits 16 (d :: digits) →
      Constant (zero :: x :: d :: digits) (value 16 (d :: digits))

/-- What comes behind `0x`, if that is a digit. -/
def behindX : List UInt8 → Option (List UInt8)
  | c :: x :: d :: text => if c = zero ∧ IsX x ∧ isDigit 16 d then some (d :: text) else none
  | _ => none

/-- The base in which a text is read, and where its digits begin. -/
def radix (text : List UInt8) : Nat × List UInt8 :=
  match behindX text with
  | some digits => (16, digits)
  | none => if text.head? = some zero then (8, text) else (10, text)

/-- The longest constant at the beginning: its value, and what comes behind it. -/
def scanConstant (text : List UInt8) : Option (Nat × List UInt8) :=
  let (base, text) := radix text
  if text.takeWhile (isDigit base) = [] then none
  else some (value base (text.takeWhile (isDigit base)), text.dropWhile (isDigit base))

theorem behindX_eq_some {text digits : List UInt8} (found : behindX text = some digits) :
    ∃ x d rest, text = zero :: x :: d :: rest ∧ IsX x ∧ isDigit 16 d = true ∧ digits = d :: rest := by
  unfold behindX at found
  split at found
  · rename_i c x d rest
    split_ifs at found with hex
    cases found
    exact ⟨x, d, rest, by rw [hex.1], hex.2.1, hex.2.2, rfl⟩
  · cases found

/-- How the base is found. -/
theorem radix_cases (text : List UInt8) :
    (∃ x d rest, text = zero :: x :: d :: rest ∧ IsX x ∧ isDigit 16 d = true ∧
        radix text = (16, d :: rest)) ∨
      (∃ rest, text = zero :: rest ∧ radix text = (8, text)) ∨
      text.head? ≠ some zero ∧ radix text = (10, text) := by
  unfold radix
  cases found : behindX text with
  | some digits =>
      obtain ⟨x, d, rest, same, isX, digit, rfl⟩ := behindX_eq_some found
      exact Or.inl ⟨x, d, rest, same, isX, digit, rfl⟩
  | none =>
      simp only
      split_ifs with octal
      · obtain ⟨rest, same⟩ := List.head?_eq_some_iff.mp octal
        exact Or.inr (Or.inl ⟨rest, same, rfl⟩)
      · exact Or.inr (Or.inr ⟨octal, rfl⟩)

theorem digits_split (base : Nat) (c : UInt8) (text : List UInt8) :
    c :: text = (c :: text.takeWhile (isDigit base)) ++ text.dropWhile (isDigit base) := by
  rw [List.cons_append, List.takeWhile_append_dropWhile]

theorem digits_cons {base : Nat} {c : UInt8} (digit : isDigit base c = true) (text : List UInt8) :
    Digits base (c :: text.takeWhile (isDigit base)) := by
  have all := digits_takeWhile base (c :: text)
  rwa [List.takeWhile_cons_of_pos digit] at all

theorem scanConstant_sound {text rest : List UInt8} {n : Nat}
    (scanned : scanConstant text = some (n, rest)) : ∃ front, text = front ++ rest ∧ Constant front n := by
  unfold scanConstant at scanned
  rcases radix_cases text with ⟨x, d, tail, rfl, isX, digit, base⟩ | ⟨tail, rfl, base⟩ | ⟨notZero, base⟩
  · simp only [base, List.takeWhile_cons_of_pos digit, List.dropWhile_cons_of_pos digit,
      if_neg (List.cons_ne_nil _ _)] at scanned
    cases scanned
    refine ⟨zero :: x :: d :: tail.takeWhile (isDigit 16), ?_, .hexadecimal x d _ isX (digits_cons digit _)⟩
    exact congrArg (zero :: x :: ·) (digits_split 16 d tail)
  · have digit : isDigit 8 zero = true := isDigit_zero (by decide)
    simp only [base, List.takeWhile_cons_of_pos digit, List.dropWhile_cons_of_pos digit,
      if_neg (List.cons_ne_nil _ _)] at scanned
    cases scanned
    exact ⟨zero :: tail.takeWhile (isDigit 8), digits_split 8 zero tail, .octal _ (digits_cons digit _)⟩
  · cases text with
    | nil =>
        simp only [base] at scanned
        cases scanned
    | cons c tail =>
        by_cases digit : isDigit 10 c = true
        · simp only [base, List.takeWhile_cons_of_pos digit, List.dropWhile_cons_of_pos digit,
            if_neg (List.cons_ne_nil _ _)] at scanned
          cases scanned
          exact ⟨c :: tail.takeWhile (isDigit 10), digits_split 10 c tail,
            .decimal c _ (fun same => notZero (congrArg some same)) (digits_cons digit _)⟩
        · simp only [base, List.takeWhile_cons_of_neg digit, if_true] at scanned
          cases scanned

theorem radix_hexadecimal {x d : UInt8} (isX : IsX x) (digit : isDigit 16 d = true)
    (rest : List UInt8) : radix (zero :: x :: d :: rest) = (16, d :: rest) := by
  have found : behindX (zero :: x :: d :: rest) = some (d :: rest) := if_pos ⟨rfl, isX, digit⟩
  rw [radix, found]

theorem scanConstant_digits {base : Nat} {text digits behind : List UInt8} (some_ : digits ≠ [])
    (all : Digits base digits) (read : radix text = (base, digits ++ behind)) :
    ∃ m more rest, scanConstant text = some (m, rest) ∧ behind = more ++ rest ∧
      (behind = [] → m = value base digits) := by
  obtain ⟨front, back⟩ := all.takeWhile_append behind
  refine ⟨value base (digits ++ behind.takeWhile (isDigit base)), behind.takeWhile (isDigit base),
    behind.dropWhile (isDigit base), ?_, List.takeWhile_append_dropWhile.symm, ?_⟩
  · have nonempty : digits ++ behind.takeWhile (isDigit base) ≠ [] := List.append_ne_nil_of_left_ne_nil some_ _
    simp only [scanConstant, read, front, back, if_neg nonempty]
  · rintro rfl
    rw [List.takeWhile_nil, List.append_nil]

/-- Where a text begins with a constant, at least that is scanned, and it is all
that is scanned if nothing comes behind it. -/
theorem scanConstant_front {front : List UInt8} {n : Nat} (constant : Constant front n)
    (behind : List UInt8) :
    ∃ m more rest, scanConstant (front ++ behind) = some (m, rest) ∧ behind = more ++ rest ∧
      (behind = [] → m = n) := by
  cases constant with
  | decimal c digits notZero all =>
      apply scanConstant_digits (List.cons_ne_nil _ _) all
      rcases radix_cases (c :: digits ++ behind) with ⟨x, d, rest, same, _⟩ | ⟨rest, same, _⟩ | ⟨_, base⟩
      · exact absurd (List.cons.inj same).1 notZero
      · exact absurd (List.cons.inj same).1 notZero
      · exact base
  | hexadecimal x d digits isX all =>
      apply scanConstant_digits (List.cons_ne_nil _ _) all
      exact radix_hexadecimal isX (all d List.mem_cons_self) _
  | octal digits all =>
      rcases radix_cases (zero :: digits ++ behind) with
        ⟨x, d, rest, same, isX, digit, base⟩ | ⟨rest, _, base⟩ | ⟨notZero, _⟩
      · -- a zero that the `x` of a longer constant follows
        have tails : digits ++ behind = x :: d :: rest := (List.cons.inj same).2
        cases digits with
        | cons c digits =>
            have digit' := decimal_of_octal (all c (List.mem_cons_of_mem _ List.mem_cons_self))
            rw [(List.cons.inj tails).1] at digit'
            rcases isX with rfl | rfl
            · exact absurd rfl (decimal_ne digit' (by decide))
            · exact absurd rfl (decimal_ne digit' (by decide))
        | nil =>
            have here : behind = x :: d :: rest := tails
            have scanned := scanConstant_digits (List.cons_ne_nil _ _) (digits_cons digit rest)
              (base.trans (congrArg (Prod.mk 16) (digits_split 16 d rest)))
            obtain ⟨m, more, left, found, split, _⟩ := scanned
            refine ⟨m, x :: d :: rest.takeWhile (isDigit 16) ++ more, left, found, ?_, fun empty => ?_⟩
            · rw [here, List.append_assoc, ← split]
              exact congrArg (x :: ·) (digits_split 16 d rest)
            · rw [here] at empty
              cases empty
      · exact scanConstant_digits (List.cons_ne_nil _ _) all base
      · exact absurd rfl notZero

/-! ## Integers -/

inductive Sign : List UInt8 → Int → Prop where
  | unsigned : Sign [] 1
  | plus : Sign [plus] 1
  | minus : Sign [minus] (-1)

/-- The integer that a text denotes: white space, a sign and a constant. -/
inductive Denotes : List UInt8 → Int → Prop where
  | intro (blanks sign constant : List UInt8) (s : Int) (n : Nat) :
      (∀ c ∈ blanks, isSpace c = true) → Sign sign s → Constant constant n →
      Denotes (blanks ++ (sign ++ constant)) (s * n)

def scanSign : List UInt8 → Bool × List UInt8
  | [] => (false, [])
  | c :: text =>
      if c = minus then (true, text) else if c = plus then (false, text) else (false, c :: text)

/-- The longest integer at the beginning: whether it has a minus, the value of
the constant, and what comes behind it. -/
def scan (text : List UInt8) : Option (Bool × Nat × List UInt8) :=
  let (negative, unsigned) := scanSign (text.dropWhile isSpace)
  match scanConstant unsigned with
  | none => none
  | some (n, rest) => some (negative, n, rest)

def signed (negative : Bool) (n : Nat) : Int := if negative then -n else n

theorem Constant.head {text : List UInt8} {n : Nat} (constant : Constant text n) :
    ∃ c rest, text = c :: rest ∧ isDigit 10 c = true := by
  have digit : isDigit 10 zero = true := isDigit_zero (by decide)
  cases constant with
  | decimal c digits _ all => exact ⟨c, digits, rfl, all c List.mem_cons_self⟩
  | octal digits _ => exact ⟨zero, digits, rfl, digit⟩
  | hexadecimal x d digits _ _ => exact ⟨zero, _, rfl, digit⟩

theorem scanSign_sound (text : List UInt8) :
    ∃ sign s, text = sign ++ (scanSign text).2 ∧ Sign sign s ∧
      ∀ n : Nat, signed (scanSign text).1 n = s * n := by
  cases text with
  | nil => exact ⟨[], 1, rfl, .unsigned, fun n => (one_mul _).symm⟩
  | cons c text =>
      simp only [scanSign]
      split_ifs with negative positive
      · exact ⟨[minus], -1, by rw [negative]; rfl, .minus, fun n => (neg_one_mul _).symm⟩
      · exact ⟨[plus], 1, by rw [positive]; rfl, .plus, fun n => (one_mul _).symm⟩
      · exact ⟨[], 1, rfl, .unsigned, fun n => (one_mul _).symm⟩

theorem scanSign_front {sign constant : List UInt8} {s : Int} {n : Nat} (signs : Sign sign s)
    (digits : Constant constant n) (behind : List UInt8) :
    ∃ negative, scanSign (sign ++ (constant ++ behind)) = (negative, constant ++ behind) ∧
      signed negative n = s * n := by
  cases signs with
  | plus => exact ⟨false, rfl, (one_mul _).symm⟩
  | minus => exact ⟨true, rfl, (neg_one_mul _).symm⟩
  | unsigned =>
      obtain ⟨c, rest, rfl, digit⟩ := digits.head
      have notMinus : c ≠ minus := decimal_ne digit (by decide)
      have notPlus : c ≠ plus := decimal_ne digit (by decide)
      refine ⟨false, ?_, (one_mul _).symm⟩
      rw [List.nil_append, List.cons_append, scanSign, if_neg notMinus, if_neg notPlus]

/-- The white space ends where the number begins. -/
theorem dropWhile_blanks {blanks sign constant : List UInt8} {s : Int} {n : Nat}
    (white : ∀ c ∈ blanks, isSpace c = true) (signs : Sign sign s) (digits : Constant constant n)
    (behind : List UInt8) :
    (blanks ++ (sign ++ (constant ++ behind))).dropWhile isSpace = sign ++ (constant ++ behind) := by
  rw [List.dropWhile_append_of_pos white]
  obtain ⟨c, rest, rfl, digit⟩ := digits.head
  cases signs with
  | plus => rfl
  | minus => rfl
  | unsigned =>
      rw [List.nil_append, List.cons_append, List.dropWhile_cons_of_neg]
      rw [decimal_notSpace digit]
      decide

/-- Where a text begins with an integer, at least that is scanned, and it is all
that is scanned if nothing comes behind it. -/
theorem scan_front {front : List UInt8} {z : Int} (denotes : Denotes front z) (behind : List UInt8) :
    ∃ negative m more rest, scan (front ++ behind) = some (negative, m, rest) ∧
      behind = more ++ rest ∧ (behind = [] → z = signed negative m) := by
  obtain ⟨blanks, sign, constant, s, n, white, signs, digits⟩ := denotes
  obtain ⟨negative, unsigned, same⟩ := scanSign_front signs digits behind
  obtain ⟨m, more, rest, scanned, split, whole⟩ := scanConstant_front digits behind
  refine ⟨negative, m, more, rest, ?_, split, fun empty => ?_⟩
  · simp only [scan, List.append_assoc, dropWhile_blanks white signs digits, unsigned, scanned]
  · rw [whole empty, same]

/-- What is scanned is an integer, at the beginning of the text. -/
theorem scan_sound {text rest : List UInt8} {negative : Bool} {n : Nat}
    (scanned : scan text = some (negative, n, rest)) :
    ∃ front, text = front ++ rest ∧ Denotes front (signed negative n) := by
  obtain ⟨sign, s, split, signs, same⟩ := scanSign_sound (text.dropWhile isSpace)
  unfold scan at scanned
  cases found : scanConstant (scanSign (text.dropWhile isSpace)).2 with
  | none =>
      simp only [found] at scanned
      cases scanned
  | some result =>
      simp only [found] at scanned
      cases scanned
      obtain ⟨constant, parts, digits⟩ := scanConstant_sound found
      refine ⟨text.takeWhile isSpace ++ (sign ++ constant), ?_, ?_⟩
      · rw [List.append_assoc, List.append_assoc, ← parts, ← split, List.takeWhile_append_dropWhile]
      · rw [same]
        exact .intro _ _ _ _ _ (fun _ member => List.mem_takeWhile_imp member) signs digits

/-- A text denotes an integer exactly when the scan comes to its end. -/
theorem denotes_iff {text : List UInt8} {z : Int} :
    Denotes text z ↔ ∃ negative n, scan text = some (negative, n, []) ∧ z = signed negative n := by
  constructor
  · intro denotes
    obtain ⟨negative, n, more, rest, scanned, split, whole⟩ := scan_front denotes []
    obtain ⟨_, rfl⟩ := List.append_eq_nil_iff.mp split.symm
    rw [List.append_nil] at scanned
    exact ⟨negative, n, scanned, whole rfl⟩
  · rintro ⟨negative, n, scanned, rfl⟩
    obtain ⟨front, same, denotes⟩ := scan_sound scanned
    rwa [same, List.append_nil]

/-- No longer integer begins the text. -/
theorem scan_longest {text rest : List UInt8} {negative : Bool} {n : Nat}
    (scanned : scan text = some (negative, n, rest)) {front behind : List UInt8} {z : Int}
    (denotes : Denotes front z) (split : text = front ++ behind) : rest.length ≤ behind.length := by
  obtain ⟨_, _, more, left, found, parts, _⟩ := scan_front denotes behind
  rw [← split, scanned] at found
  cases found
  rw [parts, List.length_append]
  omega

end Middfs.Numeral
