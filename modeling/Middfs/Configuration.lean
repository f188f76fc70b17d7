import Middfs.Lib.Conf

/-!
# Loading a configuration file

A file is read in chunks of at most 1023 bytes, and each chunk is put into the
environment as if it were a line.  For a line that is no longer than that the
difference does not show; the pieces of a longer one are taken for lines of their
own.
-/

set_option autoImplicit false

namespace Middfs

/-! ## Puts

What is put into the environment, as a sequence of strings, and what the last of
them that names a variable makes of it. -/

/-- The strings that name a variable, in their order. -/
def naming (name : List UInt8) (strings : List (List UInt8)) : List (List UInt8) :=
  strings.filter fun string => putName string = name

theorem naming_append (name : List UInt8) (xs ys : List (List UInt8)) :
    naming name (xs ++ ys) = naming name xs ++ naming name ys := List.filter_append ..

def putAll (strings : List (List UInt8)) (env : Env) : Env :=
  strings.foldl (fun env string => putenv (confEnvvar string) env) env

theorem putName_confEnvvar (string : List UInt8) :
    putName (confEnvvar string) = confEnvvar (putName string) := by
  simp [putName, confEnvvar, equals]

theorem putValue_confEnvvar (string : List UInt8) :
    putValue (confEnvvar string) = putValue string := by
  have equalsIn : equals ∈ confEnvvar string ↔ equals ∈ string := by simp [confEnvvar, equals]
  unfold putValue
  rw [putName_confEnvvar]
  by_cases value : equals ∈ string
  · rw [if_pos value, if_pos (equalsIn.mpr value)]
    rfl
  · rw [if_neg value, if_neg (value ∘ equalsIn.mp)]

theorem confEnvvar_inj {name other : List UInt8} :
    confEnvvar name = confEnvvar other ↔ name = other := List.append_right_inj _

/-- A variable has what the last string that names it says, and otherwise what it
had. -/
theorem putAll_apply (strings : List (List UInt8)) (env : Env) (name : List UInt8) :
    putAll strings env (confEnvvar name) =
      match (naming name strings).getLast? with
      | none => env (confEnvvar name)
      | some string => putValue string := by
  induction strings using List.reverseRecOn with
  | nil => rfl
  | append_singleton strings string ih =>
      have step : putAll (strings ++ [string]) env =
          putenv (confEnvvar string) (putAll strings env) := List.foldl_concat ..
      rw [step, naming_append, putenv, putName_confEnvvar, putValue_confEnvvar]
      by_cases names : putName string = name
      · have last : naming name [string] = [string] := List.filter_eq_self.mpr (by simpa using names)
        rw [last, List.getLast?_concat, names, Function.update_self]
      · have none_ : naming name [string] = [] := List.filter_eq_nil_iff.mpr (by simpa using names)
        rw [none_, List.append_nil, Function.update_of_ne (fun same => names (confEnvvar_inj.mp same).symm),
          ih]

/-! ## Chunks -/

theorem fgetsBytes_line {n : Nat} {line : List UInt8} (short : line.length < n)
    (one : newline ∉ line) (rest : List UInt8) :
    fgetsBytes n (line ++ newline :: rest) = (line ++ [newline], rest) := by
  induction n generalizing line with
  | zero => exact absurd short (Nat.not_lt_zero _)
  | succ n ih =>
      cases line with
      | nil => simp [fgetsBytes]
      | cons b line =>
          have other : b ≠ newline := fun same => one (same ▸ List.mem_cons_self ..)
          have later := ih (Nat.lt_of_succ_lt_succ short) fun member =>
            one (List.mem_cons_of_mem _ member)
          simp only [List.cons_append, fgetsBytes, if_neg other, later]

theorem fgetsBytes_piece {n : Nat} {line : List UInt8} (long : n ≤ line.length)
    (one : newline ∉ line) (rest : List UInt8) :
    fgetsBytes n (line ++ rest) = (line.take n, line.drop n ++ rest) := by
  induction n generalizing line with
  | zero => rfl
  | succ n ih =>
      cases line with
      | nil => exact absurd long (Nat.not_succ_le_zero _)
      | cons b line =>
          have other : b ≠ newline := fun same => one (same ▸ List.mem_cons_self ..)
          have later := ih (Nat.le_of_succ_le_succ long) fun member =>
            one (List.mem_cons_of_mem _ member)
          simp only [List.cons_append, fgetsBytes, if_neg other, later, List.take_succ_cons,
            List.drop_succ_cons]

theorem fgetsBytes_last {n : Nat} {line : List UInt8} (short : line.length ≤ n)
    (one : newline ∉ line) : fgetsBytes n line = (line, []) := by
  induction n generalizing line with
  | zero =>
      have none_ : line = [] := List.length_eq_zero_iff.mp (Nat.le_zero.mp short)
      rw [none_]
      rfl
  | succ n ih =>
      cases line with
      | nil => rfl
      | cons b line =>
          have other : b ≠ newline := fun same => one (same ▸ List.mem_cons_self ..)
          have later := ih (Nat.le_of_succ_le_succ short) fun member =>
            one (List.mem_cons_of_mem _ member)
          simp only [fgetsBytes, if_neg other, later]

theorem fgetsBytes_append (n : Nat) (bytes : List UInt8) :
    (fgetsBytes n bytes).1 ++ (fgetsBytes n bytes).2 = bytes ∧ (fgetsBytes n bytes).1.length ≤ n := by
  induction n generalizing bytes with
  | zero => exact ⟨rfl, Nat.le_refl 0⟩
  | succ n ih =>
      cases bytes with
      | nil => exact ⟨rfl, Nat.zero_le _⟩
      | cons b bytes =>
          obtain ⟨split, most⟩ := ih bytes
          unfold fgetsBytes
          split_ifs
          · exact ⟨rfl, Nat.succ_le_succ (Nat.zero_le n)⟩
          · exact ⟨congrArg (b :: ·) split, Nat.succ_le_succ most⟩

/-- The longest chunk: the buffer holds a NUL too. -/
def longestChunk : Nat := confLoadMaxline - 1

theorem fgets_eq (bytes : List UInt8) :
    fgets false confLoadMaxline bytes =
      if (fgetsBytes longestChunk bytes).1 = [] then none
      else some (fgetsBytes longestChunk bytes) := by
  unfold fgets
  split_ifs
  all_goals first | rfl | simp_all [longestChunk]

/-- The strings that a file is put as, `fuel` chunks before a bound. -/
def putStrings : Nat → List UInt8 → List (List UInt8)
  | 0, _ => []
  | fuel + 1, bytes =>
      match fgets false confLoadMaxline bytes with
      | none => []
      | some (chunk, rest) => confLine chunk :: putStrings fuel rest

theorem fgets_shorter {bytes chunk rest : List UInt8}
    (got : fgets false confLoadMaxline bytes = some (chunk, rest)) :
    rest.length < bytes.length ∧ chunk.length ≤ longestChunk := by
  obtain ⟨split, most⟩ := fgetsBytes_append longestChunk bytes
  rw [fgets_eq] at got
  split_ifs at got with nothing
  rw [Option.some.inj got] at split most nothing
  simp only at split most nothing
  have total := congrArg List.length split
  have some_ := List.length_pos_iff.mpr nothing
  rw [List.length_append] at total
  exact ⟨by omega, most⟩

theorem putStrings_fuel {fuel fuel' : Nat} {bytes : List UInt8} (enough : bytes.length ≤ fuel)
    (enough' : bytes.length ≤ fuel') : putStrings fuel bytes = putStrings fuel' bytes := by
  induction fuel generalizing fuel' bytes with
  | zero =>
      have none_ : bytes = [] := List.length_eq_zero_iff.mp (Nat.le_zero.mp enough)
      rw [none_]
      cases fuel' <;> rfl
  | succ fuel ih =>
      cases fuel' with
      | zero =>
          have none_ : bytes = [] := List.length_eq_zero_iff.mp (Nat.le_zero.mp enough')
          rw [none_]
          rfl
      | succ fuel' =>
          unfold putStrings
          cases got : fgets false confLoadMaxline bytes with
          | none => rfl
          | some both =>
              obtain ⟨chunk, rest⟩ := both
              have shorter := (fgets_shorter got).1
              simp only
              have same : putStrings fuel rest = putStrings fuel' rest := ih (by omega) (by omega)
              rw [same]

/-- The strings that a file is put as. -/
def puts (bytes : List UInt8) : List (List UInt8) := putStrings bytes.length bytes

theorem puts_eq (bytes : List UInt8) :
    puts bytes =
      match fgets false confLoadMaxline bytes with
      | none => []
      | some (chunk, rest) => confLine chunk :: puts rest := by
  unfold puts
  rw [putStrings_fuel (Nat.le_refl _) (Nat.le_succ bytes.length), putStrings]
  cases got : fgets false confLoadMaxline bytes with
  | none => rfl
  | some both =>
      obtain ⟨chunk, rest⟩ := both
      have shorter := (fgets_shorter got).1
      simp only
      rw [putStrings_fuel (Nat.le_of_lt shorter) (Nat.le_refl _)]

theorem puts_cons {bytes chunk rest : List UInt8} (read : fgetsBytes longestChunk bytes = (chunk, rest))
    (some_ : chunk ≠ []) : puts bytes = confLine chunk :: puts rest := by
  rw [puts_eq, fgets_eq, read, if_neg some_]

theorem takeWhile_stop {keep : UInt8 → Bool} {b : UInt8} (stop : keep b = false)
    (bytes : List UInt8) : (bytes ++ [b]).takeWhile keep = bytes.takeWhile keep := by
  induction bytes with
  | nil => simp [stop]
  | cons c bytes ih =>
      rw [List.cons_append, List.takeWhile_cons, List.takeWhile_cons, ih]

theorem confLine_newline (line : List UInt8) : confLine (line ++ [newline]) = confLine line := by
  unfold confLine
  rw [List.takeWhile_takeWhile, List.takeWhile_takeWhile]
  apply takeWhile_stop
  simp

/-- A line is put on its own, whatever follows it. -/
theorem naming_puts_line {name : List UInt8} (named : name ≠ []) {line : List UInt8}
    (one : newline ∉ line) (rest : List UInt8) :
    naming name (puts (line ++ newline :: rest)) =
      naming name (puts line) ++ naming name (puts rest) := by
  induction length : line.length using Nat.strongRecOn generalizing line with
  | ind length ih =>
      by_cases short : line.length < longestChunk
      · have skip : ∀ strings, naming name ([] :: strings) = naming name strings := fun strings =>
          List.filter_cons_of_neg (by simpa [putName] using named)
        rw [puts_cons (fgetsBytes_line short one rest) (by simp), confLine_newline]
        by_cases blank : line = []
        · rw [blank]
          exact skip _
        · have alone : fgetsBytes longestChunk line = (line, []) :=
            fgetsBytes_last (Nat.le_of_lt short) one
          rw [puts_cons alone blank, ← naming_append]
          rfl
      · have long := Nat.le_of_not_lt short
        have positive : 0 < longestChunk := by decide
        have some_ : line.take longestChunk ≠ [] := by
          rw [← List.length_pos_iff, List.length_take_of_le long]
          exact positive
        have alone := fgetsBytes_piece long one []
        rw [List.append_nil, List.append_nil] at alone
        have later := @ih (line.drop longestChunk).length (by rw [List.length_drop]; omega)
          (line.drop longestChunk) (fun member => one (List.mem_of_mem_drop member)) rfl
        rw [puts_cons (fgetsBytes_piece long one (newline :: rest)) some_, puts_cons alone some_]
        have cons : ∀ strings, naming name (confLine (line.take longestChunk) :: strings) =
            naming name [confLine (line.take longestChunk)] ++ naming name strings := fun strings =>
          naming_append name [_] strings
        rw [cons, later, ← List.append_assoc, ← cons]

theorem puts_length {bytes string : List UInt8} (put : string ∈ puts bytes) :
    string.length ≤ longestChunk := by
  have all : ∀ fuel bytes, ∀ string ∈ putStrings fuel bytes, string.length ≤ longestChunk := by
    intro fuel
    induction fuel with
    | zero => exact fun _ _ no => nomatch no
    | succ fuel ih =>
        intro bytes string put
        unfold putStrings at put
        cases got : fgets false confLoadMaxline bytes with
        | none =>
            rw [got] at put
            cases put
        | some both =>
            obtain ⟨chunk, rest⟩ := both
            rw [got] at put
            rcases List.mem_cons.mp put with rfl | put
            · have cut : (confLine chunk).length ≤ chunk.length :=
                ((List.takeWhile_sublist _).trans (List.takeWhile_sublist _)).length_le
              exact cut.trans (fgets_shorter got).2
            · exact ih rest string put
  exact all _ _ _ put

/-! ## Lines -/

abbrev ConfName :=
  {name : List UInt8 // name ≠ [] ∧ equals ∉ name ∧ hash ∉ name ∧ newline ∉ name ∧ 0 ∉ name}

abbrev ConfValue := {value : List UInt8 // hash ∉ value ∧ newline ∉ value ∧ 0 ∉ value}

inductive ConfEntry where
  | empty
  | comment (text : {text : List UInt8 // newline ∉ text})
  | assign (name : ConfName) (value : ConfValue)

namespace ConfEntry

def text : ConfEntry → List UInt8
  | .empty => []
  | .comment text => hash :: text.val
  | .assign name value => name.val ++ equals :: value.val

def value (name : List UInt8) : ConfEntry → Option (List UInt8)
  | .assign name' value => if name'.val = name then some value.val else none
  | _ => none

theorem text_oneLine (entry : ConfEntry) : newline ∉ entry.text := by
  cases entry with
  | empty => exact List.not_mem_nil
  | comment text =>
      exact fun member => (List.mem_cons.mp member).elim (by decide) text.property
  | assign name value =>
      intro member
      rcases List.mem_append.mp member with member | member
      · exact name.property.2.2.2.1 member
      · exact (List.mem_cons.mp member).elim (by decide) value.property.2.1

end ConfEntry

theorem putName_assign {name value : List UInt8} (plain : equals ∉ name) :
    putName (name ++ equals :: value) = name := by
  have all : ∀ b ∈ name, decide (b ≠ equals) = true := fun b member =>
    decide_eq_true fun same => plain (same ▸ member)
  rw [putName, List.takeWhile_append_of_pos all]
  simp

theorem putValue_assign {name value : List UInt8} (plain : equals ∉ name) :
    putValue (name ++ equals :: value) = some value := by
  rw [putValue, if_pos (by simp), putName_assign plain]
  simp

theorem split_equals {string : List UInt8} (found : equals ∈ string) :
    string = putName string ++ equals :: string.drop ((putName string).length + 1) := by
  induction string with
  | nil => cases found
  | cons b string ih =>
      by_cases here : b = equals
      · simp [here, putName]
      · have later := ih ((List.mem_cons.mp found).resolve_left (Ne.symm here))
        have front : putName (b :: string) = b :: putName string :=
          List.takeWhile_cons_of_pos (by simpa using here)
        rw [front, List.length_cons, List.drop_succ_cons, List.cons_append, ← later]

theorem eq_assign {string value : List UInt8} (has : putValue string = some value) :
    string = putName string ++ equals :: value := by
  unfold putValue at has
  split_ifs at has with found
  cases has
  exact split_equals found

theorem confLine_assign (name : ConfName) (value : ConfValue) :
    confLine (name.val ++ equals :: value.val) = name.val ++ equals :: value.val := by
  obtain ⟨_, _, noHash, noLine, noNul⟩ := name.property
  obtain ⟨noHash', noLine', noNul'⟩ := value.property
  unfold confLine
  rw [List.takeWhile_takeWhile, List.takeWhile_eq_self_iff]
  intro b member
  simp only [ne_eq, decide_not, Bool.decide_and, Bool.and_eq_true, Bool.not_eq_true', decide_eq_false_iff_not]
  rcases List.mem_append.mp member with member | member
  · exact ⟨⟨fun same => noHash (same ▸ member), fun same => noLine (same ▸ member)⟩,
      fun same => noNul (same ▸ member)⟩
  · rcases List.mem_cons.mp member with rfl | member
    · decide
    · exact ⟨⟨fun same => noHash' (same ▸ member), fun same => noLine' (same ▸ member)⟩,
        fun same => noNul' (same ▸ member)⟩

/-- A line that fits into a chunk does what it says. -/
theorem naming_puts_short {name : List UInt8} (named : name ≠ []) {entry : ConfEntry}
    (short : entry.text.length ≤ longestChunk) :
    naming name (puts entry.text) =
      (entry.value name).toList.map fun value => name ++ equals :: value := by
  have alone := fgetsBytes_last short entry.text_oneLine
  cases entry with
  | empty => rfl
  | comment text =>
      rw [puts_cons alone (List.cons_ne_nil _ _)]
      have cut : confLine (hash :: text.val) = [] := by simp [confLine, hash]
      rw [ConfEntry.text, cut]
      exact List.filter_cons_of_neg (by simpa [putName] using named)
  | assign name' value =>
      rw [puts_cons alone (by simp [ConfEntry.text]), ConfEntry.text, confLine_assign]
      have last : puts [] = [] := rfl
      by_cases same : name'.val = name
      · rw [last, naming, List.filter_cons_of_pos (by simpa [putName_assign name'.property.2.1] using same)]
        simp [ConfEntry.value, same]
      · rw [last, naming, List.filter_cons_of_neg (by simpa [putName_assign name'.property.2.1] using same)]
        simp [ConfEntry.value, same]

/-! ## Files -/

/-- A file of lines, of which the last one, possibly empty, has no end. -/
structure ConfText where
  lines : List ConfEntry
  last : ConfEntry

namespace ConfText

def entries (text : ConfText) : List ConfEntry := text.lines ++ [text.last]

def bytes (text : ConfText) : List UInt8 :=
  (text.lines.flatMap fun entry => entry.text ++ [newline]) ++ text.last.text

end ConfText

def namingAll (name : List UInt8) (entries : List ConfEntry) : List (List UInt8) :=
  entries.flatMap fun entry => naming name (puts entry.text)

theorem naming_puts_bytes {name : List UInt8} (named : name ≠ []) (text : ConfText) :
    naming name (puts text.bytes) = namingAll name text.entries := by
  obtain ⟨lines, last⟩ := text
  unfold ConfText.bytes ConfText.entries namingAll
  induction lines with
  | nil => simp
  | cons entry lines ih =>
      simp only [List.flatMap_cons, List.append_assoc, List.cons_append, List.nil_append] at ih ⊢
      rw [naming_puts_line named entry.text_oneLine, ih]

def lastAssigned (name : List UInt8) (entries : List ConfEntry) : Option (List UInt8) :=
  (entries.filterMap (ConfEntry.value name)).getLast?

def lastPut (name : List UInt8) (entries : List ConfEntry) : Option (Option (List UInt8)) :=
  (namingAll name entries).getLast?.map putValue

theorem lastAssigned_concat (name : List UInt8) (entries : List ConfEntry) (entry : ConfEntry) :
    lastAssigned name (entries ++ [entry]) = (entry.value name).or (lastAssigned name entries) := by
  unfold lastAssigned
  rw [List.filterMap_append, List.getLast?_append]
  cases value : entry.value name <;> simp [value]

theorem lastPut_concat (name : List UInt8) (entries : List ConfEntry) (entry : ConfEntry) :
    lastPut name (entries ++ [entry]) =
      ((naming name (puts entry.text)).getLast?.map putValue).or (lastPut name entries) := by
  unfold lastPut namingAll
  rw [List.flatMap_append, List.getLast?_append, List.flatMap_singleton]
  cases (naming name (puts entry.text)).getLast? <;> simp

/-! ## Long lines -/

def ConfEntry.Long (entry : ConfEntry) : Prop := longestChunk < entry.text.length

/-- A line assigns to a variable, or one of its pieces names it. -/
def ConfEntry.Concerns (name : List UInt8) (entry : ConfEntry) : Prop :=
  entry.value name ≠ none ∨ naming name (puts entry.text) ≠ []

/-- The last of its pieces to name a variable gives it the value that the lines
before assign to it. -/
def ConfEntry.Restores (name : List UInt8) (before : List ConfEntry) (entry : ConfEntry) : Prop :=
  entry.value name = none ∧ ∃ value, lastAssigned name before = some value ∧
    (naming name (puts entry.text)).getLast?.map putValue = some (some value)

/-- A long line that concerns a variable is followed by another line that does, or
leaves it as it was. -/
def HarmlessFor (name : List UInt8) (entries : List ConfEntry) : Prop :=
  ∀ before entry after, entries = before ++ entry :: after → entry.Long → entry.Concerns name →
    (∃ later ∈ after, later.Concerns name) ∨ entry.Restores name before

theorem harmlessFor_nil (name : List UInt8) : HarmlessFor name [] := by
  intro before entry after split
  simp at split

theorem harmlessFor_concat {name : List UInt8} {entries : List ConfEntry} {last : ConfEntry} :
    HarmlessFor name (entries ++ [last]) ↔
      (¬ last.Concerns name → HarmlessFor name entries) ∧
        (last.Long → last.Concerns name → last.Restores name entries) := by
  constructor
  · intro harmless
    refine ⟨fun apart before entry after split long concerns => ?_, fun long concerns => ?_⟩
    · have whole : entries ++ [last] = before ++ entry :: (after ++ [last]) := by
        rw [split, List.append_assoc, List.cons_append]
      rcases harmless before entry (after ++ [last]) whole long concerns with
        ⟨later, member, concerned⟩ | restores
      · rcases List.mem_append.mp member with member | member
        · exact Or.inl ⟨later, member, concerned⟩
        · rw [List.mem_singleton.mp member] at concerned
          exact absurd concerned apart
      · exact Or.inr restores
    · rcases harmless entries last [] rfl long concerns with ⟨_, no, _⟩ | restores
      · cases no
      · exact restores
  · rintro ⟨others, own⟩ before entry after split long concerns
    rcases List.eq_nil_or_concat after with rfl | ⟨front, other, rfl⟩
    · obtain ⟨rfl, same⟩ := List.append_inj' split rfl
      cases same
      exact Or.inr (own long concerns)
    · rw [List.concat_eq_append, ← List.cons_append, ← List.append_assoc] at split
      obtain ⟨rfl, same⟩ := List.append_inj' split rfl
      cases same
      by_cases concerned : last.Concerns name
      · exact Or.inl ⟨last, by simp, concerned⟩
      · rcases others concerned before entry front rfl long concerns with ⟨later, member, also⟩ |
          restores
        · exact Or.inl ⟨later, by simp [member], also⟩
        · exact Or.inr restores

/-- A line as long as this cannot be put as one string. -/
theorem lastPut_ne_long {name value : List UInt8} (long : longestChunk < (name ++ equals :: value).length)
    (entries : List ConfEntry) : lastPut name entries ≠ some (some value) := by
  intro put
  unfold lastPut at put
  rw [Option.map_eq_some_iff] at put
  obtain ⟨string, last, has⟩ := put
  obtain ⟨entry, _, member⟩ := List.mem_flatMap.mp (List.mem_of_getLast? last)
  obtain ⟨inPuts, names⟩ := List.mem_filter.mp member
  have whole := eq_assign has
  rw [of_decide_eq_true names] at whole
  have bound := puts_length inPuts
  rw [whole] at bound
  omega

theorem ConfEntry.text_of_value {name value : List UInt8} {entry : ConfEntry}
    (assigns : entry.value name = some value) :
    entry.text = name ++ equals :: value ∧ equals ∉ name := by
  cases entry with
  | empty => cases assigns
  | comment text => cases assigns
  | assign name' value' =>
      simp only [ConfEntry.value] at assigns
      split_ifs at assigns with same
      cases assigns
      exact ⟨by rw [ConfEntry.text, same], same ▸ name'.property.2.1⟩

theorem lastPut_short {name : List UInt8} (named : name ≠ []) {entries : List ConfEntry}
    {last : ConfEntry} (short : last.text.length ≤ longestChunk) (concerns : last.Concerns name) :
    lastPut name (entries ++ [last]) = (lastAssigned name (entries ++ [last])).map some := by
  have strings := naming_puts_short named short
  rw [lastPut_concat, lastAssigned_concat, strings]
  cases value : last.value name with
  | none =>
      rw [ConfEntry.Concerns, strings, value] at concerns
      simp at concerns
  | some value' =>
      have plain := (ConfEntry.text_of_value value).2
      simp [putValue_assign plain]

theorem lastPut_long {name : List UInt8} {entries : List ConfEntry} {last : ConfEntry}
    (long : last.Long) (concerns : last.Concerns name) :
    lastPut name (entries ++ [last]) = (lastAssigned name (entries ++ [last])).map some ↔
      last.Restores name entries := by
  cases value : last.value name with
  | some value' =>
      refine iff_of_false (fun put => ?_) fun restores => ?_
      · rw [lastAssigned_concat, value] at put
        unfold ConfEntry.Long at long
        rw [(ConfEntry.text_of_value value).1] at long
        exact lastPut_ne_long long _ put
      · have none_ := restores.1
        rw [value] at none_
        cases none_
  | none =>
      have strings : naming name (puts last.text) ≠ [] :=
        concerns.resolve_left (not_not.mpr value)
      rw [lastPut_concat, lastAssigned_concat, value, Option.none_or, ConfEntry.Restores,
        List.getLast?_eq_some_getLast strings, Option.map_some, Option.some_or]
      cases lastAssigned name entries with
      | none => simp
      | some assigned => simp [value]

/-- Loading makes of a variable what the last line that assigns to it says exactly
when no long line harms it. -/
theorem lastPut_iff {name : List UInt8} (named : name ≠ []) (entries : List ConfEntry) :
    lastPut name entries = (lastAssigned name entries).map some ↔ HarmlessFor name entries := by
  induction entries using List.reverseRecOn with
  | nil => exact iff_of_true rfl (harmlessFor_nil name)
  | append_singleton entries last ih =>
      rw [harmlessFor_concat, ← ih]
      by_cases concerned : last.Concerns name
      · rw [show (¬ last.Concerns name → lastPut name entries = (lastAssigned name entries).map some) ↔
          True from iff_true_intro fun apart => absurd concerned apart, true_and]
        by_cases long : last.Long
        · rw [forall_prop_of_true long, forall_prop_of_true concerned]
          exact lastPut_long long concerned
        · exact iff_of_true (lastPut_short named (Nat.le_of_not_lt long) concerned) fun is => absurd is long
      · obtain ⟨noValue, unnamed⟩ := not_or.mp concerned
        rw [lastPut_concat, lastAssigned_concat, not_not.mp noValue, not_not.mp unnamed]
        simp [concerned]

/-! ## Loading -/

theorem confPut_cases (malloc : Nat → Bool) (putenvOk : List UInt8 → Bool) (string : List UInt8)
    (env : Env) :
    confPut malloc putenvOk string env = none ∨
      confPut malloc putenvOk string env = some (putenv (confEnvvar string) env) := by
  unfold confPut confEnvvarAlloc
  split_ifs <;> simp

/-- A loop that comes to its end has put every chunk. -/
theorem confLoadLoop_puts {malloc : Nat → Bool} {putenvOk : List UInt8 → Bool} {fuel : Nat}
    {bytes : List UInt8} {env : Env}
    (ended : (confLoadLoop malloc putenvOk false fuel bytes env).2 = true) :
    (confLoadLoop malloc putenvOk false fuel bytes env).1 = putAll (putStrings fuel bytes) env := by
  induction fuel generalizing bytes env with
  | zero => rfl
  | succ fuel ih =>
      unfold confLoadLoop at ended ⊢
      unfold putStrings
      cases got : fgets false confLoadMaxline bytes with
      | none => rfl
      | some both =>
          obtain ⟨chunk, rest⟩ := both
          simp only [got] at ended ⊢
          rcases confPut_cases malloc putenvOk (confLine chunk) env with failed | put
          · simp only [failed, Bool.false_eq_true] at ended
          · simp only [put] at ended ⊢
            exact ih ended

theorem confLoadLoop_ends (fuel : Nat) (bytes : List UInt8) (env : Env) :
    (confLoadLoop (fun _ => true) (fun _ => true) false fuel bytes env).2 = true := by
  induction fuel generalizing bytes env with
  | zero => rfl
  | succ fuel ih =>
      unfold confLoadLoop
      cases fgets false confLoadMaxline bytes with
      | none => rfl
      | some both => exact ih _ _

/-- Loading a file into an environment, when it succeeds. -/
theorem confLoad_puts {malloc : Nat → Bool} {putenvOk : List UInt8 → Bool} {file : ConfFile}
    {env : Env} (loaded : (confLoad malloc putenvOk (some file) env).1 = 0) :
    (confLoad malloc putenvOk (some file) env).2 = putAll (puts file.bytes) env := by
  obtain ⟨bytes, readError, closes⟩ := file
  simp only [confLoad] at loaded ⊢
  split_ifs at loaded with failed
  · exact absurd loaded (by decide)
  obtain ⟨ended, whole, _⟩ := (not_or.mp failed).imp not_not.mp not_or.mp
  have noError : readError = false := by simpa using whole
  rw [noError] at ended ⊢
  rw [confLoadLoop_puts ended, puts, putStrings_fuel (Nat.le_succ _) (Nat.le_refl _)]

/-- Whenever the file is loaded, every variable it assigns to has the value of the
last line that does, and every other one with a name what it had. -/
structure LoadsConfiguration (text : ConfText) : Prop where
  assigned : ∀ malloc putenvOk file env name value, file.bytes = text.bytes →
    (confLoad malloc putenvOk (some file) env).1 = 0 →
    lastAssigned name text.entries = some value →
      ∀ malloc', malloc' ((confEnvvar name).length + 1) = true →
        confGet malloc' name (confLoad malloc putenvOk (some file) env).2 = some value
  others : ∀ malloc putenvOk file env name, file.bytes = text.bytes →
    (confLoad malloc putenvOk (some file) env).1 = 0 → name ≠ [] →
    lastAssigned name text.entries = none →
      (confLoad malloc putenvOk (some file) env).2 (confEnvvar name) = env (confEnvvar name)

def Harmless (text : ConfText) : Prop := ∀ name, name ≠ [] → HarmlessFor name text.entries

theorem named_of_lastAssigned {name value : List UInt8} {entries : List ConfEntry}
    (assigned : lastAssigned name entries = some value) : name ≠ [] := by
  obtain ⟨entry, _, assigns⟩ := List.mem_filterMap.mp (List.mem_of_getLast? assigned)
  cases entry with
  | empty => cases assigns
  | comment text => cases assigns
  | assign name' value' =>
      simp only [ConfEntry.value] at assigns
      split_ifs at assigns with same
      exact same ▸ name'.property.1

/-- What a variable has after the file was loaded. -/
theorem putAll_bytes {name : List UInt8} (named : name ≠ []) (text : ConfText) (env : Env) :
    putAll (puts text.bytes) env (confEnvvar name) =
      (lastPut name text.entries).getD (env (confEnvvar name)) := by
  rw [putAll_apply, naming_puts_bytes named, lastPut]
  cases (namingAll name text.entries).getLast? <;> rfl

theorem loads_of_harmless {text : ConfText} (harmless : Harmless text) : LoadsConfiguration text where
  assigned := by
    intro malloc putenvOk file env name value same loaded assigned malloc' granted
    have named := named_of_lastAssigned assigned
    have put := (lastPut_iff named text.entries).mpr (harmless name named)
    rw [confLoad_puts loaded, same, confGet, confEnvvarAlloc, if_pos granted]
    simp only
    rw [putAll_bytes named, put, assigned]
    rfl
  others := by
    intro malloc putenvOk file env name same loaded named unassigned
    have put := (lastPut_iff named text.entries).mpr (harmless name named)
    rw [confLoad_puts loaded, same, putAll_bytes named, put, unassigned]
    rfl

theorem harmless_of_loads {text : ConfText} (loads : LoadsConfiguration text) : Harmless text := by
  intro name named
  rw [← lastPut_iff named]
  have loaded : ∀ env, (confLoad (fun _ => true) (fun _ => true)
      (some ⟨text.bytes, false, true⟩) env).1 = 0 := by
    intro env
    simp [confLoad, confLoadLoop_ends]
  cases assigned : lastAssigned name text.entries with
  | some value =>
      have got := loads.assigned _ _ _ (fun _ => none) name value rfl (loaded _) assigned
        (fun _ => true) rfl
      rw [confLoad_puts (loaded _), confGet, confEnvvarAlloc, if_pos rfl] at got
      simp only at got
      rw [putAll_bytes named] at got
      cases put : lastPut name text.entries with
      | none =>
          rw [put] at got
          cases got
      | some last =>
          rw [put] at got
          rw [Option.map_some, ← got]
          rfl
  | none =>
      have kept : ∀ env : Env, (lastPut name text.entries).getD (env (confEnvvar name)) =
          env (confEnvvar name) := by
        intro env
        have same := loads.others _ _ _ env name rfl (loaded env) named assigned
        rw [confLoad_puts (loaded env), putAll_bytes named] at same
        exact same
      cases put : lastPut name text.entries with
      | none => rfl
      | some last =>
          rw [put] at kept
          have absent : last = none := kept fun _ => none
          have present : last = some [] := kept fun _ => some []
          rw [absent] at present
          cases present

/-- A file is loaded as it should be exactly when no long line harms a variable. -/
theorem loadsConfiguration_iff (text : ConfText) : LoadsConfiguration text ↔ Harmless text :=
  ⟨harmless_of_loads, loads_of_harmless⟩

/-- Lines of up to 1023 characters are enough. -/
theorem harmless_of_short {text : ConfText}
    (short : ∀ entry ∈ text.entries, entry.text.length ≤ longestChunk) : Harmless text := by
  intro name named before entry after split long
  have member : entry ∈ text.entries := by
    rw [split]
    simp
  exact absurd long (Nat.not_lt_of_le (short entry member))

theorem longName_valid : ([97] : List UInt8) ≠ [] ∧ equals ∉ ([97] : List UInt8) ∧
    hash ∉ ([97] : List UInt8) ∧ newline ∉ ([97] : List UInt8) ∧ 0 ∉ ([97] : List UInt8) := by decide

theorem longValue_valid : hash ∉ List.replicate 1022 (98 : UInt8) ∧
    newline ∉ List.replicate 1022 (98 : UInt8) ∧ 0 ∉ List.replicate 1022 (98 : UInt8) :=
  ⟨fun member => absurd (List.eq_of_mem_replicate member) (by decide),
    fun member => absurd (List.eq_of_mem_replicate member) (by decide),
    fun member => absurd (List.eq_of_mem_replicate member) (by decide)⟩

/-- `a=bb...b`, with 1022 times `b`. -/
def longAssignment : ConfEntry :=
  .assign ⟨[97], longName_valid⟩ ⟨List.replicate 1022 98, longValue_valid⟩

/-- The value of `a` loses its last character. -/
theorem longAssignment_fails : ¬ LoadsConfiguration ⟨[longAssignment], .empty⟩ := by
  intro loads
  have assigns : longAssignment.value [97] = some (List.replicate 1022 98) := by
    rw [longAssignment, ConfEntry.value, if_pos rfl]
  have long : longAssignment.Long := by
    rw [ConfEntry.Long, (ConfEntry.text_of_value assigns).1, List.length_append,
      List.length_singleton, List.length_cons, List.length_replicate]
    decide
  rcases harmless_of_loads loads [97] (List.cons_ne_nil _ _) [] longAssignment [.empty] rfl long
    (Or.inl (fun none_ => nomatch assigns.symm.trans none_)) with ⟨later, member, concerned⟩ | ⟨none_, _⟩
  · rw [List.mem_singleton.mp member] at concerned
    exact concerned.elim (fun has => has rfl) (fun has => has rfl)
  · rw [assigns] at none_
    cases none_

end Middfs
