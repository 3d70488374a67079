import Mathlib.Data.List.Infix
import Mathlib.Data.List.TakeWhile
import Mathlib.Data.Nat.Digits.Defs
import ChassisCooling.Proofs.Numerals
import ChassisCooling.Sensors.Ipmi

/-! # The temperature of a row

A row says how hot it is where a run of digits, of whatever script, comes before the word for
degrees with nothing but blanks between. The leftmost such place decides alone: the row has a
temperature exactly if the run there is a plausible number in the digits 0 to 9, and nothing behind
the word is looked at. The scan never begins anew inside a run of digits, and finds the same place.
-/

namespace ChassisCooling

namespace Text

variable {body front back : List Char} {c : Char}

/-- The number that digits 0 to 9 write: the last one counts ones, and each one before it ten times
as much as the next. -/
def placeValue (ds : List Char) : Nat :=
  Nat.ofDigits 10 (ds.reverse.map fun d => d.toNat - '0'.toNat)

theorem digitsValue_eq_placeValue (ds : List Char) : digitsValue ds = placeValue ds := by
  induction ds with
  | nil => rfl
  | cons d ds ih =>
    rw [digitsValue] at ih
    rw [digitsValue, Nat.ofDigitChars_cons, Nat.ofDigitChars_eq_ofDigitChars_zero, ih, Nat.mul_zero,
      Nat.zero_add, placeValue, placeValue, List.reverse_cons, List.map_append, Nat.ofDigits_append,
      List.map_singleton, Nat.ofDigits_singleton, List.length_map, List.length_reverse, Nat.add_comm]

/-- No digit of any script is a blank. -/
theorem isBlank_of_isDecimalDigit (digit : isDecimalDigit c = true) : isBlank c = false := by
  have all : ∀ first ∈ decimalZeros, ∀ k < 10, isBlank (Char.ofNat (first + k)) = false := by
    decide +kernel
  obtain ⟨first, zero, inside⟩ := List.any_eq_true.mp digit
  rw [Bool.and_eq_true, decide_eq_true_iff, decide_eq_true_iff] at inside
  have filled := all first zero (c.toNat - first) (by omega)
  rwa [Nat.add_sub_cancel' inside.1, Char.ofNat_toNat] at filled

/-- What ends at the first place of a character is not changed by what comes behind a place of that
character. -/
theorem concat_prefix_concat (inside : c ∉ body) (starts : body ++ [c] <+: front ++ [c] ++ back) :
    body ++ [c] <+: front ++ [c] := by
  rcases List.prefix_or_prefix_of_prefix starts (List.prefix_append ..) with shorter | longer
  · exact shorter
  · rcases List.prefix_concat_iff.mp longer with same | within
    · rw [same]
    · exact absurd (within.subset (List.mem_append_right front (List.mem_singleton_self c))) inside

end Text

namespace Sensors.Ipmi

open Text

variable {row text front back run run' reading reading' blanks : List Char} {p : Nat} {c : Char}
  {t : Int32}

/-! ## Temperatures in a text -/

/-- The text of a temperature: a run of one or more decimal digits of any script, any blanks, and
the word. -/
inductive IsReading : List Char → List Char → Prop
  | intro {run blanks : List Char} (filled : run ≠ [])
      (digits : ∀ c ∈ run, isDecimalDigit c = true) (blank : ∀ c ∈ blanks, isBlank c = true) :
      IsReading run (run ++ blanks ++ "degrees".toList)

/-- A text begins with a temperature, which has this run of digits and itself reads so. -/
structure Begins (text run reading : List Char) : Prop where
  is : IsReading run reading
  front : reading <+: text

/-- A temperature starts at a position of a row, and none starts further left. -/
structure IsLeftmost (row : List Char) (p : Nat) (run reading : List Char) : Prop where
  starts : Begins (row.drop p) run reading
  first : ∀ q < p, ∀ run' reading', ¬ Begins (row.drop q) run' reading'

theorem toList_degrees : "degrees".toList = degrees :=
  rfl

namespace IsReading

theorem run_ne_nil (is : IsReading run reading) : run ≠ [] := by
  cases is with
  | intro filled => exact filled

theorem ne_nil (is : IsReading run reading) : reading ≠ [] := by
  cases is with
  | intro filled =>
    rw [List.append_assoc]
    exact List.append_ne_nil_of_left_ne_nil filled _

/-- With one more digit in front it is the text of a temperature, too. -/
theorem cons (is : IsReading run reading) (digit : isDecimalDigit c = true) :
    IsReading (c :: run) (c :: reading) := by
  cases is with
  | intro _ digits blank =>
    exact .intro (List.cons_ne_nil c run) (List.forall_mem_cons.mpr ⟨digit, digits⟩) blank

/-- The last letter of the word stands nowhere before, so a reading ends where that letter first
occurs. -/
theorem ends (is : IsReading run reading) : ∃ body, 's' ∉ body ∧ reading = body ++ ['s'] := by
  cases is with
  | @intro blanks _ digits blank =>
    have word : "degrees".toList = ['d', 'e', 'g', 'r', 'e', 'e'] ++ ['s'] := rfl
    refine ⟨run ++ blanks ++ ['d', 'e', 'g', 'r', 'e', 'e'], ?_, by rw [word, ← List.append_assoc]⟩
    intro among
    rcases List.mem_append.mp among with before | word
    · rcases List.mem_append.mp before with digit | between
      · cases digits _ digit
      · cases blank _ between
    · revert word
      decide

end IsReading

/-! ## The temperature right here -/

/-- A run of digits stops where blanks and the word follow. -/
theorem isDecimalDigit_head?_blanks (blank : ∀ c ∈ blanks, isBlank c = true) (back : List Char) :
    ∀ c ∈ (blanks ++ (degrees ++ back)).head?, isDecimalDigit c = false := by
  intro c first
  cases blanks with
  | nil =>
    obtain rfl := Option.some.inj first
    rfl
  | cons b blanks =>
    obtain rfl := Option.some.inj first
    rw [← Bool.not_eq_true]
    intro digit
    cases (isBlank_of_isDecimalDigit digit).symm.trans (blank b (List.mem_cons_self ..))

theorem digitsHere?_eq (text : List Char) : digitsHere? text =
    if text.takeWhile isDecimalDigit ≠ [] ∧
      degrees <+: (text.dropWhile isDecimalDigit).dropWhile isBlank then
      some (text.takeWhile isDecimalDigit)
    else none := by
  rw [digitsHere?, List.span_eq_takeWhile_dropWhile]
  simp only [Bool.and_eq_true, Bool.not_eq_true', List.isEmpty_eq_false_iff,
    List.isPrefixOf_iff_prefix]

theorem begins_of_digitsHere? (here : digitsHere? text = some run) :
    ∃ reading, Begins text run reading := by
  rw [digitsHere?_eq, Option.ite_none_right_eq_some, Option.some.injEq] at here
  obtain ⟨⟨filled, back, word⟩, rfl⟩ := here
  have digits : ∀ c ∈ text.takeWhile isDecimalDigit, isDecimalDigit c = true :=
    fun c among => List.mem_takeWhile_imp among
  have blank : ∀ c ∈ (text.dropWhile isDecimalDigit).takeWhile isBlank, isBlank c = true :=
    fun c among => List.mem_takeWhile_imp among
  refine ⟨_, .intro filled digits blank, back, ?_⟩
  rw [List.append_assoc _ _ back, toList_degrees, word, List.append_assoc,
    List.takeWhile_append_dropWhile, List.takeWhile_append_dropWhile]

namespace Begins

theorem digitsHere?_eq (begins : Begins text run reading) : digitsHere? text = some run := by
  obtain ⟨⟨filled, digits, blank⟩, back, rfl⟩ := begins
  have cut := span_append digits (isDecimalDigit_head?_blanks blank back)
  rw [List.span_eq_takeWhile_dropWhile, Prod.mk.injEq] at cut
  rw [Ipmi.digitsHere?_eq, List.append_assoc, List.append_assoc, toList_degrees, cut.1, cut.2,
    List.dropWhile_append_of_pos blank]
  exact if_pos ⟨filled, List.prefix_append ..⟩

/-- With one more digit in front the text begins with a temperature, too. -/
theorem cons (begins : Begins text run reading) (digit : isDecimalDigit c = true) :
    Begins (c :: text) (c :: run) (c :: reading) :=
  ⟨begins.is.cons digit, List.cons_prefix_cons.mpr ⟨rfl, begins.front⟩⟩

/-- A temperature does not reach beyond the end of another one. -/
theorem of_append (begins : Begins (front ++ reading ++ back) run' reading')
    (is : IsReading run reading) : Begins (front ++ reading) run' reading' := by
  obtain ⟨is', starts⟩ := begins
  refine ⟨is', ?_⟩
  obtain ⟨body, -, rfl⟩ := is.ends
  obtain ⟨body', inside, rfl⟩ := is'.ends
  rw [← List.append_assoc] at starts ⊢
  exact concat_prefix_concat inside starts

theorem length_le (begins : Begins text run reading) (other : Begins text run' reading') :
    reading'.length ≤ reading.length := by
  obtain ⟨is, back, rfl⟩ := begins
  have among : Begins ([] ++ reading ++ back) run' reading' := other
  exact (among.of_append is).front.length_le

/-- A text begins with at most one temperature. -/
theorem unique (begins : Begins text run reading) (other : Begins text run' reading') :
    run' = run ∧ reading' = reading := by
  have runs : some run' = some run := other.digitsHere?_eq.symm.trans begins.digitsHere?_eq
  have lengths : reading'.length = reading.length :=
    Nat.le_antisymm (begins.length_le other) (other.length_le begins)
  have shorter : reading' <+: reading :=
    List.prefix_of_prefix_length_le other.front begins.front lengths.le
  exact ⟨Option.some.inj runs, shorter.eq_of_length lengths⟩

end Begins

theorem digitsHere?_eq_some_iff :
    digitsHere? text = some run ↔ ∃ reading, Begins text run reading := by
  constructor
  · exact begins_of_digitsHere?
  · rintro ⟨reading, begins⟩
    exact begins.digitsHere?_eq

theorem digitsHere?_eq_none_iff :
    digitsHere? text = none ↔ ∀ run reading, ¬ Begins text run reading := by
  rw [Option.eq_none_iff_forall_ne_some]
  simp only [ne_eq, digitsHere?_eq_some_iff, not_exists]

/-! ## The leftmost temperature -/

/-- A digit in front of a temperature belongs to it. -/
theorem digitsHere?_of_cons (digit : isDecimalDigit c = true)
    (nothing : digitsHere? (c :: text) = none) : digitsHere? text = none := by
  rw [digitsHere?_eq_none_iff] at nothing ⊢
  intro run reading begins
  exact nothing _ _ (begins.cons digit)

/-- The scan tries every position in turn, from the left. Inside a run of digits it may go on, since
nothing can begin there that did not begin further left. -/
theorem firstDigitsFrom?_eq_some_iff (inRun : Bool)
    (known : inRun = true → digitsHere? text = none) : firstDigitsFrom? inRun text = some run ↔
      ∃ p, digitsHere? (text.drop p) = some run ∧ ∀ q < p, digitsHere? (text.drop q) = none := by
  induction text generalizing inRun with
  | nil =>
    simp only [firstDigitsFrom?, List.drop_nil, reduceCtorEq, false_iff, not_exists, not_and]
    intro p here
    cases here
  | cons c text ih =>
    have here : (if (inRun && isDecimalDigit c) = true then none else digitsHere? (c :: text)) =
        digitsHere? (c :: text) := by
      split
      · next inside =>
        rw [Bool.and_eq_true] at inside
        exact (known inside.1).symm
      · rfl
    rw [firstDigitsFrom?, here]
    cases tried : digitsHere? (c :: text) with
    | some ds =>
      constructor
      · intro same
        exact ⟨0, tried.trans same, nofun⟩
      · rintro ⟨p, there, first⟩
        cases p with
        | zero => exact tried.symm.trans there
        | succ p => cases tried.symm.trans (first 0 p.succ_pos)
    | none =>
      -- A digit that begins nothing here rules out a beginning right behind it.
      rw [ih _ fun digit => digitsHere?_of_cons digit tried]
      constructor
      · rintro ⟨p, there, first⟩
        exact ⟨p + 1, there, Nat.forall_lt_succ_left.mpr ⟨tried, first⟩⟩
      · rintro ⟨p, there, first⟩
        cases p with
        | zero => cases tried.symm.trans there
        | succ p => exact ⟨p, there, (Nat.forall_lt_succ_left.mp first).2⟩

/-- The scan finds the leftmost temperature. -/
theorem firstDigits?_eq_some_iff :
    firstDigits? row = some run ↔ ∃ p reading, IsLeftmost row p run reading := by
  rw [firstDigits?, firstDigitsFrom?_eq_some_iff false Bool.noConfusion]
  constructor
  · rintro ⟨p, here, first⟩
    obtain ⟨reading, starts⟩ := digitsHere?_eq_some_iff.mp here
    refine ⟨p, reading, starts, ?_⟩
    intro q before
    exact digitsHere?_eq_none_iff.mp (first q before)
  · rintro ⟨p, reading, starts, first⟩
    refine ⟨p, starts.digitsHere?_eq, ?_⟩
    intro q before
    exact digitsHere?_eq_none_iff.mpr (first q before)

theorem IsLeftmost.le_length (leftmost : IsLeftmost row p run reading) : p ≤ row.length := by
  by_contra beyond
  obtain ⟨is, starts⟩ := leftmost.starts
  rw [List.drop_eq_nil_of_le (by omega), List.prefix_nil] at starts
  exact is.ne_nil starts

/-- The leftmost temperature stays so, whatever comes behind it. -/
theorem IsLeftmost.with_other_end (leftmost : IsLeftmost row p run reading) (back : List Char) :
    IsLeftmost (row.take p ++ (reading ++ back)) p run reading := by
  have bound := leftmost.le_length
  have length : (row.take p).length = p := List.length_take_of_le bound
  obtain ⟨⟨is, front⟩, first⟩ := leftmost
  refine ⟨⟨is, ?front⟩, ?first⟩
  case front =>
    rw [List.drop_left' length]
    exact List.prefix_append ..
  case first =>
    intro q before run' reading' begins
    rw [List.drop_append_of_le_length (by omega), ← List.append_assoc] at begins
    have within : (row.take p).drop q ++ reading <+: row.drop q := by
      rw [← List.take_append_drop p row, List.drop_append_of_le_length (by omega),
        List.take_append_drop]
      exact (List.prefix_append_right_inj _).mpr front
    obtain ⟨is', starts⟩ := begins.of_append is
    exact first q before run' reading' ⟨is', starts.trans within⟩

/-! ## The temperature of a row -/

/-- The bounds, on a number of any size. -/
theorem accepted_iff {n : Nat} :
    (if 0 < n ∧ n < maxPlausible then some (Int32.ofNat n) else none) = some t ↔
      (n : Int) = t.toInt ∧ 0 < t ∧ t < 120 := by
  rw [Option.ite_none_right_eq_some, Option.some.injEq, Int32.lt_iff_toInt_lt,
    Int32.lt_iff_toInt_lt, maxPlausible]
  change _ ↔ _ ∧ 0 < t.toInt ∧ t.toInt < 120
  constructor
  · rintro ⟨inside, rfl⟩
    rw [Int32.toInt_ofNat_of_lt (by omega)]
    omega
  · rintro ⟨same, inside⟩
    refine ⟨by omega, ?_⟩
    rw [← Int32.toInt_inj, Int32.toInt_ofNat_of_lt (by omega), same]

theorem plausibleTemp?_eq_some_iff : plausibleTemp? row = some t ↔
    ∃ run, firstDigits? row = some run ∧ (∀ c ∈ run, c.isDigit = true) ∧
      (placeValue run : Int) = t.toInt ∧ 0 < t ∧ t < 120 := by
  rw [plausibleTemp?, Option.bind_eq_some_iff]
  constructor
  · rintro ⟨n, read, given⟩
    obtain ⟨run, found, read⟩ := Option.bind_eq_some_iff.mp read
    obtain ⟨-, digits, rfl⟩ := readDigits?_eq_some_iff.mp read
    rw [digitsValue_eq_placeValue] at given
    exact ⟨run, found, digits, accepted_iff.mp given⟩
  · rintro ⟨run, found, digits, inside⟩
    obtain ⟨p, reading, leftmost⟩ := firstDigits?_eq_some_iff.mp found
    have read : readDigits? run = some (placeValue run) :=
      readDigits?_eq_some_iff.mpr
        ⟨leftmost.starts.is.run_ne_nil, digits, digitsValue_eq_placeValue run⟩
    exact ⟨placeValue run, Option.bind_eq_some_iff.mpr ⟨run, found, read⟩, accepted_iff.mpr inside⟩

/-- A row has a temperature exactly if the run of digits of its leftmost reading consists of digits
0 to 9 and writes a number between 0 and 120, and this number is the temperature. Only one reading
starts at the leftmost position, so there is nothing to choose between, and what comes behind it may
be anything. -/
theorem leftmost_reading_decides (row : List Char) :
    (∀ t, plausibleTemp? row = some t ↔
      ∃ p run reading, IsLeftmost row p run reading ∧ (∀ c ∈ run, c.isDigit = true) ∧
        (placeValue run : Int) = t.toInt ∧ 0 < t ∧ t < 120) ∧
    ∀ p run reading, IsLeftmost row p run reading →
      (∀ run' reading', Begins (row.drop p) run' reading' → run' = run ∧ reading' = reading) ∧
      ∀ back, plausibleTemp? (row.take p ++ (reading ++ back)) = plausibleTemp? row := by
  refine ⟨?decides, ?alone⟩
  case decides =>
    intro t
    rw [plausibleTemp?_eq_some_iff]
    simp only [firstDigits?_eq_some_iff]
    constructor
    · rintro ⟨run, ⟨p, reading, leftmost⟩, inside⟩
      exact ⟨p, run, reading, leftmost, inside⟩
    · rintro ⟨p, run, reading, leftmost, inside⟩
      exact ⟨run, ⟨p, reading, leftmost⟩, inside⟩
  case alone =>
    intro p run reading leftmost
    refine ⟨fun run' reading' => leftmost.starts.unique, ?_⟩
    intro back
    have found := firstDigits?_eq_some_iff.mpr ⟨p, reading, leftmost⟩
    have again := firstDigits?_eq_some_iff.mpr ⟨p, reading, leftmost.with_other_end back⟩
    rw [plausibleTemp?, plausibleTemp?, found, again]

/-- A row with digits of two scripts before its first temperature and another temperature behind. -/
def sensorRow : List Char :=
  "Temp ٣x | 7 | 041\u00a0 degrees C | 90 degrees".toList

theorem sensorRow_leftmost :
    IsLeftmost sensorRow 14 "041".toList "041\u00a0 degrees".toList := by
  have digits : "041".toList.all isDecimalDigit = true := by decide
  have blank : "\u00a0 ".toList.all isBlank = true := by decide
  have first : ∀ q < 14, digitsHere? (sensorRow.drop q) = none := by decide +kernel
  refine ⟨⟨?is, by decide +kernel⟩, ?first⟩
  case is =>
    exact .intro (by decide) (List.all_eq_true.mp digits) (List.all_eq_true.mp blank)
  case first =>
    intro q before
    exact digitsHere?_eq_none_iff.mp (first q before)

/-- It gives 41 degrees, with or without the other temperature. -/
theorem sensorRow_read : plausibleTemp? sensorRow = some 41 ∧
    plausibleTemp? (sensorRow.take 14 ++ ("041\u00a0 degrees".toList ++ [])) = some 41 := by
  obtain ⟨decides, alone⟩ := leftmost_reading_decides sensorRow
  have digits : "041".toList.all Char.isDigit = true := by decide
  have inside : (placeValue "041".toList : Int) = (41 : Int32).toInt ∧ 0 < (41 : Int32) ∧
      (41 : Int32) < 120 := by decide
  have read : plausibleTemp? sensorRow = some 41 :=
    (decides 41).mpr ⟨_, _, _, sensorRow_leftmost, List.all_eq_true.mp digits, inside⟩
  exact ⟨read, ((alone _ _ _ sensorRow_leftmost).2 []).trans read⟩

/-- A digit of another script spoils the leftmost run, and a later one is no substitute. -/
example : plausibleTemp? "٣7 degrees, 30 degrees".toList = none := by decide +kernel

end Sensors.Ipmi

end ChassisCooling
