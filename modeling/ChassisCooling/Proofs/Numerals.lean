import Mathlib.Data.List.TakeDrop
import ChassisCooling.Json.Numeral

/-! # The written forms of numbers

A number is written as digits around a point and a power of ten, and what is written is read back as
the same form. The form of a whole number of 64 bits means that number.
-/

namespace ChassisCooling

namespace Text

theorem isDigit_of_mem_digits {n : Nat} {c : Char} (member : c ∈ digits n) : c.isDigit = true :=
  Nat.isDigit_of_mem_toDigits (by decide) (by decide) member

theorem digits_ne_nil (n : Nat) : digits n ≠ [] :=
  Nat.toDigits_ne_nil

theorem digitsValue_digits (n : Nat) : digitsValue (digits n) = n :=
  Nat.ofDigitChars_ten_toDigits

theorem readDigits?_eq_some_iff {ds : List Char} {n : Nat} : readDigits? ds = some n ↔
    ds ≠ [] ∧ (∀ c ∈ ds, c.isDigit = true) ∧ digitsValue ds = n := by
  rw [readDigits?]
  split
  · next other =>
    constructor
    · intro read
      cases read
    · rintro ⟨filled, digits, -⟩
      rw [List.all_eq_true.mpr digits, List.isEmpty_eq_false_iff.mpr filled] at other
      cases other
  · next good =>
    rw [Bool.or_eq_true, not_or, Bool.not_eq_true, List.isEmpty_eq_false_iff, Bool.not_eq_true',
      Bool.not_eq_false, List.all_eq_true] at good
    rw [Option.some.injEq]
    constructor
    · intro same
      exact ⟨good.1, good.2, same⟩
    · rintro ⟨-, -, same⟩
      exact same

theorem readDigits?_digits (n : Nat) : readDigits? (digits n) = some n :=
  readDigits?_eq_some_iff.mpr
    ⟨digits_ne_nil n, fun _ => isDigit_of_mem_digits, digitsValue_digits n⟩

/-- Only zero is written with a zero in front. -/
theorem head?_digits {n : Nat} (positive : 0 < n) : (digits n).head? ≠ some '0' := by
  induction n using Nat.strongRecOn with
  | ind n ih =>
    by_cases single : n < 10
    · rw [digits, Nat.toDigits_of_lt_base single]
      simp only [List.head?_cons, ne_eq, Option.some.injEq, Nat.digitChar_eq_zero]
      omega
    · rw [digits, Nat.toDigits_of_base_le (by decide) (Nat.le_of_not_lt single),
        List.head?_append, List.head?_eq_some_head Nat.toDigits_ne_nil, Option.some_or,
        ← List.head?_eq_some_head]
      exact ih (n / 10) (by omega) (by omega)

/-- A run of characters of one kind is cut off where another kind follows. -/
theorem span_append {kind : Char → Bool} {run rest : List Char} (inside : ∀ c ∈ run, kind c = true)
    (stops : ∀ c ∈ rest.head?, kind c = false) : (run ++ rest).span kind = (run, rest) := by
  rw [List.span_eq_takeWhile_dropWhile, List.takeWhile_append_of_pos inside,
    List.dropWhile_append_of_pos inside]
  cases rest with
  | nil => rw [List.takeWhile_nil, List.append_nil, List.dropWhile_nil]
  | cons c rest =>
    have stop : ¬ kind c = true := Bool.not_eq_true _ ▸ stops c rfl
    rw [List.takeWhile_cons_of_neg stop, List.append_nil, List.dropWhile_cons_of_neg stop]

end Text

namespace Json.Numeral

open Text

/-- Nothing but digits stands around the point. -/
structure IsPlain (n : Numeral) : Prop where
  whole : ∀ c ∈ n.whole, c.isDigit = true
  fraction : ∀ c ∈ n.fraction, c.isDigit = true

/-- A form in which numbers are written: a zero leads only when it stands alone. -/
structure IsWritten (n : Numeral) : Prop extends IsPlain n where
  leads : isWhole n.whole = true

theorem readExponent?_exponentText (exponent : Option Int) :
    readExponent? (exponentText exponent) = some exponent := by
  match exponent with
  | none => rfl
  | some (.ofNat e) =>
    change (((readDigits? (digits e)).map fun n => (n : Int)).map some) = _
    rw [readDigits?_digits]
    rfl
  | some (.negSucc e) =>
    change (((readDigits? (digits (e + 1))).map fun n => -(n : Int)).map some) = _
    rw [readDigits?_digits]
    rfl

theorem isPart_of_isDigit {c : Char} (digit : c.isDigit = true) : isPart c = true := by
  simp only [isPart, digit, Bool.true_or]

theorem isPart_exponentText {exponent : Option Int} {c : Char}
    (member : c ∈ exponentText exponent) : isPart c = true := by
  match exponent with
  | none => cases member
  | some (.ofNat e) =>
    obtain rfl | rfl | digit := by simpa only [exponentText, List.mem_cons] using member
    · rfl
    · rfl
    · exact isPart_of_isDigit (isDigit_of_mem_digits digit)
  | some (.negSucc e) =>
    obtain rfl | rfl | digit := by simpa only [exponentText, List.mem_cons] using member
    · rfl
    · rfl
    · exact isPart_of_isDigit (isDigit_of_mem_digits digit)

/-- A number is written without blanks, and without anything else that could end it. -/
theorem IsPlain.isPart {n : Numeral} (plain : n.IsPlain) {c : Char} (member : c ∈ n.text) :
    isPart c = true := by
  rw [text, List.mem_append, List.mem_append, List.mem_append] at member
  obtain ((sign | whole) | fraction) | exponent := member
  · split at sign
    · obtain rfl := List.mem_singleton.mp sign
      rfl
    · cases sign
  · exact isPart_of_isDigit (plain.whole c whole)
  · split at fraction
    · cases fraction
    · obtain rfl | digit := List.mem_cons.mp fraction
      · rfl
      · exact isPart_of_isDigit (plain.fraction c digit)
  · exact isPart_exponentText exponent

/-- A power of ten does not begin with a digit, nor with a point. -/
theorem head?_exponentText (exponent : Option Int) :
    ∀ c ∈ (exponentText exponent).head?, c.isDigit = false ∧ c ≠ '.' := by
  match exponent with
  | none => nofun
  | some (.ofNat e) | some (.negSucc e) =>
    rintro c ⟨⟩
    decide

theorem parseUnsigned?_text {whole fraction : List Char} (negative : Bool) (exponent : Option Int)
    (written : IsWritten ⟨negative, whole, fraction, exponent⟩) :
    parseUnsigned? negative (whole ++
      ((if fraction.isEmpty then [] else '.' :: fraction) ++ exponentText exponent)) =
      some ⟨negative, whole, fraction, exponent⟩ := by
  have leads : isWhole whole = true := written.leads
  have ended := fun c first => (head?_exponentText exponent c first).1
  cases fraction with
  | nil =>
    rw [List.isEmpty_nil, if_pos rfl, List.nil_append, parseUnsigned?,
      span_append written.whole ended]
    simp only [leads, ↓reduceIte]
    split
    · next rest same =>
      have first := head?_exponentText exponent '.' (by rw [same]; rfl)
      exact absurd rfl first.2
    · rw [readExponent?_exponentText, Option.map_some]
  | cons d ds =>
    have point : ∀ c ∈ ('.' :: ((d :: ds) ++ exponentText exponent)).head?, c.isDigit = false := by
      rintro c ⟨⟩
      rfl
    rw [List.isEmpty_cons, if_neg Bool.false_ne_true, List.cons_append, parseUnsigned?,
      span_append written.whole point]
    simp only [leads, ↓reduceIte]
    rw [span_append written.fraction ended]
    simp only [List.isEmpty_cons, Bool.false_eq_true, ↓reduceIte]
    rw [readExponent?_exponentText, Option.map_some]

/-- What is written is read as the same form. -/
theorem parse?_text {n : Numeral} (written : n.IsWritten) : parse? n.text = some n := by
  obtain ⟨negative, whole, fraction, exponent⟩ := n
  have unsigned := parseUnsigned?_text negative exponent written
  rw [text, List.append_assoc, List.append_assoc]
  cases negative with
  | true => exact unsigned
  | false =>
    match whole, written.whole, written.leads with
    | d :: ds, digits, _ =>
      have digit := digits d (List.mem_cons_self ..)
      have sign : d ≠ '-' := by
        rintro rfl
        cases digit
      simp only [Bool.false_eq_true, ↓reduceIte, List.nil_append, List.cons_append] at unsigned ⊢
      rw [parse?.eq_2]
      · exact unsigned
      · rintro rest same
        exact sign (List.cons.inj same).1

/-- What is written begins with a digit or a minus sign. -/
theorem exists_cons_of_text {n : Numeral} (written : n.IsWritten) :
    ∃ c parts, n.text = c :: parts ∧ (c.isDigit = true ∨ c = '-') := by
  obtain ⟨negative, whole, fraction, exponent⟩ := n
  cases negative with
  | true => exact ⟨_, _, rfl, .inr rfl⟩
  | false =>
    match whole, written.whole, written.leads with
    | d :: ds, digits, _ => exact ⟨_, _, rfl, .inl (digits d (List.mem_cons_self ..))⟩

/-! ## Whole numbers -/

/-- Digits that do not begin with a zero can stand before the point. -/
theorem isWhole_of_head? {ds : List Char} (filled : ds ≠ []) (first : ds.head? ≠ some '0') :
    isWhole ds = true := by
  match ds with
  | c :: rest =>
    have other : c ≠ '0' := fun same => first (congrArg some same)
    rw [isWhole.eq_3 _ _ fun same => absurd same other]
    exact bne_iff_ne.mpr other

theorem isWritten_ofInt (n : Int) : (ofInt n).IsWritten where
  whole := fun _ => isDigit_of_mem_digits
  fraction := nofun
  leads := by
    obtain zero | positive := Nat.eq_zero_or_pos n.natAbs
    · rw [ofInt, zero]
      rfl
    · exact isWhole_of_head? (digits_ne_nil _) (head?_digits positive)

/-- The form of a whole number of 64 bits means that number. -/
theorem toInt?_ofInt {n : Int} (low : -9223372036854775808 ≤ n) (high : n < 18446744073709551616) :
    (ofInt n).toInt? = some n := by
  rw [toInt?, ofInt, digitsValue_digits]
  simp only [List.isEmpty_nil, Option.isNone_none, Bool.and_self, ↓reduceIte, decide_eq_true_eq]
  split
  · next negative =>
    rw [if_pos (by omega)]
    exact congrArg some (by omega)
  · next positive =>
    rw [if_pos (by rw [wordCount]; omega)]
    exact congrArg some (by omega)

theorem isRepresentable_of_toInt? {n : Numeral} {value : Int} (whole : n.toInt? = some value) :
    n.isRepresentable = true := by
  rw [isRepresentable, toFloat?, whole]
  cases value <;> rfl

/-! ## Doubles -/

theorem isDigit_of_mem_zeros {k : Nat} {c : Char} (member : c ∈ List.replicate k '0') :
    c.isDigit = true := by
  rw [List.eq_of_mem_replicate member]
  rfl

theorem isPlain_ofDecimal (negative : Bool) (d : Decimal.Scientific) :
    (ofDecimal negative d).IsPlain := by
  have digit : ∀ c ∈ digits d.digits, c.isDigit = true := fun _ => isDigit_of_mem_digits
  rw [ofDecimal]
  split
  · exact ⟨List.forall_mem_append.mpr ⟨digit, fun _ => isDigit_of_mem_zeros⟩,
      List.forall_mem_singleton.mpr rfl⟩
  split
  · exact ⟨fun c member => digit c (List.mem_of_mem_take member),
      fun c member => digit c (List.mem_of_mem_drop member)⟩
  split
  · exact ⟨List.forall_mem_singleton.mpr rfl,
      List.forall_mem_append.mpr ⟨fun _ => isDigit_of_mem_zeros, digit⟩⟩
  · exact ⟨fun c member => digit c (List.mem_of_mem_take member),
      fun c member => digit c (List.mem_of_mem_drop member)⟩

/-- A double is written with digits around the point. -/
theorem isPlain_ofFloat? {x : Float} {n : Numeral} (finite : ofFloat? x = some n) : n.IsPlain := by
  obtain ⟨b, -, written⟩ := Option.map_eq_some_iff.mp finite
  split at written
  · rw [← written]
    exact ⟨List.forall_mem_singleton.mpr rfl, List.forall_mem_singleton.mpr rfl⟩
  · rw [← written]
    exact isPlain_ofDecimal _ _

end Json.Numeral

end ChassisCooling
