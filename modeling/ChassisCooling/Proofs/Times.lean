import Mathlib.Algebra.Group.Nat.Defs
import ChassisCooling.Calendar.Rfc3339
import ChassisCooling.Proofs.Dates
import ChassisCooling.Proofs.Numerals

/-! # Written times read back

A time is read from its own text. Each field is followed by a character that cannot belong to it, so
the readers of the fields come one after another, each with the text of its field in front. Whatever
time is read, from whatever text, can be written again.
-/

namespace ChassisCooling

namespace Text

variable {width n most : Nat} {ds rest : List Char}

theorem isDigit_of_mem_zeroPadded {c : Char} (member : c ∈ zeroPadded width n) :
    c.isDigit = true := by
  rcases List.mem_append.mp member with zero | digit
  · rw [List.eq_of_mem_replicate zero]
    rfl
  · exact isDigit_of_mem_digits digit

theorem zeroPadded_ne_nil (width n : Nat) : zeroPadded width n ≠ [] :=
  List.append_ne_nil_of_right_ne_nil _ (digits_ne_nil n)

theorem digitsValue_zeroPadded (width n : Nat) : digitsValue (zeroPadded width n) = n := by
  rw [digitsValue, zeroPadded, Nat.ofDigitChars_append, Nat.ofDigitChars_replicate_zero,
    Nat.mul_zero]
  exact digitsValue_digits n

theorem ofDigitChars_lt {ds : List Char} (all : ∀ c ∈ ds, c.isDigit = true) (begun : Nat) :
    Nat.ofDigitChars 10 ds begun < (begun + 1) * 10 ^ ds.length := by
  induction ds generalizing begun with
  | nil => simp
  | cons c ds ih =>
    obtain ⟨digit, all⟩ := List.forall_mem_cons.mp all
    have small : c.toNat - '0'.toNat ≤ 9 := by
      simp only [Char.isDigit, Bool.and_eq_true, decide_eq_true_eq, ge_iff_le,
        UInt32.le_iff_toNat_le] at digit
      have high : c.toNat ≤ 57 := digit.2
      have zero : '0'.toNat = 48 := rfl
      omega
    rw [Nat.ofDigitChars_cons, List.length_cons, Nat.pow_succ']
    calc _ < _ := ih all _
      _ ≤ (begun + 1) * 10 * 10 ^ ds.length := Nat.mul_le_mul_right _ (by omega)
      _ = _ := Nat.mul_assoc ..

theorem digitsValue_lt {ds : List Char} (all : ∀ c ∈ ds, c.isDigit = true) :
    digitsValue ds < 10 ^ ds.length := by
  have bound := ofDigitChars_lt all 0
  rwa [Nat.zero_add, Nat.one_mul] at bound

theorem length_digits_le (fits : n < 10 ^ width) (positive : 0 < width) :
    (digits n).length ≤ width :=
  (Nat.length_toDigits_le_iff (by decide) positive).mpr fits

theorem length_zeroPadded (fits : n < 10 ^ width) (positive : 0 < width) :
    (zeroPadded width n).length = width := by
  have short := length_digits_le fits positive
  rw [zeroPadded, List.length_append, List.length_replicate]
  omega

theorem isBlank_of_isDigit {c : Char} (digit : c.isDigit = true) : isBlank c = false := by
  simp only [Char.isDigit, Bool.and_eq_true, decide_eq_true_eq, ge_iff_le,
    UInt32.le_iff_toNat_le] at digit
  obtain ⟨low, high⟩ := digit
  change 48 ≤ c.toNat at low
  change c.toNat ≤ 57 at high
  simp only [isBlank, Bool.or_eq_false_iff, Bool.and_eq_false_iff, decide_eq_false_iff_not,
    beq_eq_false_iff_ne]
  omega

/-- Nothing is trimmed from a text that begins with a digit. -/
theorem trimStart_digits (filled : ds ≠ []) (all : ∀ c ∈ ds, c.isDigit = true) :
    trimStart (ds ++ rest) = ds ++ rest := by
  obtain ⟨c, ds, rfl⟩ := List.exists_cons_of_ne_nil filled
  have digit := isBlank_of_isDigit (all c (List.mem_cons_self ..))
  exact List.dropWhile_cons_of_neg (Bool.eq_false_iff.mp digit)

end Text

namespace Calendar

open Text

/-- A time that can be written: it lies in the calendar, and in a leap second only at the end of a
minute. -/
structure Instant.IsWritable (t : Instant) : Prop where
  calendar : inCalendar t.second = true
  leap : t.nano < 1000000000 ∨ t.second % 60 = 59

namespace Rfc3339

variable {α β : Type} {width n most low high : Nat} {ds rest : List Char} {t : Instant}

/-- A reader that has read its part hands the rest on. -/
theorem bind_scan {scan : Scan α} {next : α → Scan β} {a : α} {front : List Char}
    (read : scan front = some (a, rest)) : (scan >>= next) front = next a rest := by
  change (scan front).bind (fun read => next read.1 read.2) = next a rest
  rw [read]
  rfl

/-! ## Fields -/

/-- What follows a field of digits does not begin with a digit. -/
def EndsDigits (rest : List Char) : Prop :=
  ∀ c ∈ rest.head?, c.isDigit = false

theorem endsDigits_cons {c : Char} (other : c.isDigit = false) : EndsDigits (c :: rest) := by
  rintro _ ⟨⟩
  exact other

theorem takeDigits_append (all : ∀ c ∈ ds, c.isDigit = true) (fits : ds.length ≤ most)
    (ends : EndsDigits rest) : takeDigits most (ds ++ rest) = (ds, rest) := by
  induction ds generalizing most with
  | nil =>
    cases most with
    | zero => rfl
    | succ most =>
      cases rest with
      | nil => rfl
      | cons c rest =>
        rw [List.nil_append, takeDigits, if_neg (Bool.eq_false_iff.mp (ends c rfl))]
  | cons d ds ih =>
    obtain ⟨digit, all⟩ := List.forall_mem_cons.mp all
    cases most with
    | zero => cases fits
    | succ most =>
      rw [List.cons_append, takeDigits, if_pos digit, ih all (Nat.le_of_succ_le_succ fits)]

theorem number_zeroPadded (fits : (zeroPadded width n).length ≤ most) (ends : EndsDigits rest) :
    number most (zeroPadded width n ++ rest) = some (n, rest) := by
  have taken := takeDigits_append (fun _ => isDigit_of_mem_zeroPadded) fits ends
  rw [number, taken]
  split
  · next _ none => exact absurd (congrArg Prod.fst none) (zeroPadded_ne_nil width n)
  · next _ _ _ some =>
    obtain ⟨rfl, rfl⟩ := Prod.mk.inj some
    rw [digitsValue_zeroPadded]

theorem blanks_zeroPadded :
    blanks (zeroPadded width n ++ rest) = some ((), zeroPadded width n ++ rest) := by
  rw [blanks, trimStart_digits (zeroPadded_ne_nil width n) fun _ => isDigit_of_mem_zeroPadded]

theorem twoDigits_zeroPadded (within : low ≤ n ∧ n ≤ high) (short : high < 100)
    (ends : EndsDigits rest) : twoDigits low high (zeroPadded 2 n ++ rest) = some (n, rest) := by
  have length : (zeroPadded 2 n).length = 2 := length_zeroPadded (by omega) (by decide)
  rw [twoDigits, bind_scan blanks_zeroPadded, bind_scan (number_zeroPadded (by omega) ends),
    if_pos within]
  rfl

theorem blanks_cons {c : Char} (stands : isBlank c = false) :
    blanks (c :: rest) = some ((), c :: rest) := by
  rw [blanks, trimStart, List.dropWhile_cons_of_neg (Bool.eq_false_iff.mp stands)]

theorem separator_cons {c : Char} (stands : isBlank c = false) :
    separator c (c :: rest) = some ((), rest) := by
  rw [separator, bind_scan (blanks_cons stands), literal, if_pos rfl]

theorem isDigit_of_front {c : Char} {more : List Char}
    (front : zeroPadded width n ++ rest = c :: more) :
    c.isDigit = true := by
  obtain ⟨d, ds, same⟩ := List.exists_cons_of_ne_nil (zeroPadded_ne_nil width n)
  rw [same, List.cons_append] at front
  rw [← (List.cons.inj front).1]
  exact isDigit_of_mem_zeroPadded (same ▸ List.mem_cons_self ..)

/-- A year is read as its four digits, or with its sign. -/
theorem year_yearText (y : Int) (ends : EndsDigits rest) :
    year (yearText y ++ rest) = some (y, rest) := by
  rw [yearText]
  split
  · have length : (zeroPadded 4 y.toNat).length = 4 := length_zeroPadded (by omega) (by decide)
    have read := number_zeroPadded (Nat.le_of_eq length) ends
    rw [year, bind_scan blanks_zeroPadded]
    split
    · next front => cases isDigit_of_front front
    · next front => cases isDigit_of_front front
    · rw [read, Option.map_some]
      exact congrArg some (Prod.ext (by simp only; omega) rfl)
  · have room : (zeroPadded 4 y.natAbs).length ≤ (zeroPadded 4 y.natAbs ++ rest).length := by
      rw [List.length_append]
      omega
    have read := number_zeroPadded room ends
    split
    · rw [List.cons_append, year, bind_scan (blanks_cons rfl)]
      simp only [read, Option.map_some]
      exact congrArg some (Prod.ext (by simp only; omega) rfl)
    · rw [List.cons_append, year, bind_scan (blanks_cons rfl)]
      simp only [read, Option.map_some]
      exact congrArg some (Prod.ext (by simp only; omega) rfl)

/-! ## The part of a second -/

theorem fraction_zeroPadded (fits : n < 10 ^ width) (positive : 0 < width)
    (short : width ≤ 9) (ends : EndsDigits rest) :
    fraction ('.' :: (zeroPadded width n ++ rest)) = some (n * 10 ^ (9 - width), rest) := by
  have length := length_zeroPadded fits positive
  have taken : takeDigits 9 (zeroPadded width n ++ rest) = (zeroPadded width n, rest) :=
    takeDigits_append (fun _ => isDigit_of_mem_zeroPadded) (by omega) ends
  have onward : rest.dropWhile Char.isDigit = rest := by
    cases rest with
    | nil => rfl
    | cons c rest => exact List.dropWhile_cons_of_neg (Bool.eq_false_iff.mp (ends c rfl))
  rw [fraction, taken]
  split
  · next none => exact absurd (congrArg Prod.fst none) (zeroPadded_ne_nil width n)
  · next some =>
    obtain ⟨rfl, rfl⟩ := Prod.mk.inj some
    rw [digitsValue_zeroPadded, length, onward]
    rfl

/-- The part of a second is read up to what follows it. -/
theorem fraction_fractionText (t : Instant) {c : Char} (ends : c.isDigit = false)
    (other : c ≠ '.') :
    fraction (fractionText t ++ c :: rest) = some (t.nano % 1000000000, c :: rest) := by
  have digitless : EndsDigits (c :: rest) := endsDigits_cons ends
  rw [fractionText]
  split
  · next none =>
    rw [List.nil_append, none, fraction]
    rintro _ same
    exact other (List.cons.inj same).1
  split
  · rw [List.cons_append, fraction_zeroPadded (by omega) (by decide) (by decide) digitless]
    exact congrArg some (Prod.ext (by simp only; omega) rfl)
  split
  · rw [List.cons_append, fraction_zeroPadded (by omega) (by decide) (by decide) digitless]
    exact congrArg some (Prod.ext (by simp only; omega) rfl)
  · rw [List.cons_append, fraction_zeroPadded (by omega) (by decide) (by decide) digitless]
    exact congrArg some (Prod.ext (by simp only; omega) rfl)

theorem endsDigits_fractionText {c : Char} (ends : c.isDigit = false) :
    EndsDigits (fractionText t ++ c :: rest) := by
  rw [fractionText]
  split
  · exact endsDigits_cons ends
  split
  · exact endsDigits_cons rfl
  split
  · exact endsDigits_cons rfl
  · exact endsDigits_cons rfl

/-! ## Times -/

/-- The second 60 stands for the last second of a minute, and a thousand million nanoseconds. -/
theorem clock_parts {t : Instant} (leap : t.nano < 1000000000 ∨ t.second % 60 = 59) :
    let s := (t.second % 86400).toNat
    let second := s % 60 + t.nano / 1000000000
    second ≤ 60 ∧
      ((s / 3600 * 3600 + s / 60 % 60 * 60 + (if second = 60 then 59 else second) : Nat) : Int) =
        t.second % 86400 ∧
      (if second = 60 then 1000000000 else 0) + t.nano % 1000000000 = t.nano := by
  have nano := t.nano_lt
  intro s second
  refine ⟨by omega, ?_, ?_⟩
  · split <;> omega
  · split <;> omega

/-- A time is read from its own text. -/
theorem instant_plainText (writable : t.IsWritable) :
    instant (plainText t ++ ['Z']) = some (t, []) := by
  obtain ⟨inside, leap⟩ := writable
  obtain ⟨d, date⟩ : ∃ d, d = Date.ofDays (t.second / 86400) := ⟨_, rfl⟩
  obtain ⟨s, clock⟩ : ∃ s, s = (t.second % 86400).toNat := ⟨_, rfl⟩
  have valid : d.isValid = true := date ▸ Date.isValid_ofDays _
  have years : Date.inCalendar d.year = true := date ▸ Date.inCalendar_ofDays inside
  have days : d.toDays = t.second / 86400 := date ▸ Date.toDays_ofDays _
  obtain ⟨second, sum, nano⟩ := clock_parts leap
  have length := daysInMonth_le d.year d.month
  have ranges := valid
  simp only [Date.isValid, Bool.and_eq_true, decide_eq_true_eq] at ranges
  simp only [← clock] at second sum nano
  simp only [plainText, dateText, clockText, ← date, ← clock, List.append_assoc, List.cons_append]
  rw [instant, bind_scan (year_yearText _ (endsDigits_cons rfl)), bind_scan (separator_cons rfl),
    bind_scan (twoDigits_zeroPadded (by omega) (by decide) (endsDigits_cons rfl)),
    bind_scan (separator_cons rfl),
    bind_scan (twoDigits_zeroPadded (by omega) (by decide) (endsDigits_cons rfl)),
    bind_scan (by rfl : dateEnd _ = some ((), _)),
    bind_scan (twoDigits_zeroPadded (by omega) (by decide) (endsDigits_cons rfl)),
    bind_scan (separator_cons rfl),
    bind_scan (twoDigits_zeroPadded (by omega) (by decide) (endsDigits_cons rfl)),
    bind_scan (separator_cons rfl),
    bind_scan (twoDigits_zeroPadded ⟨by omega, second⟩ (by decide) (endsDigits_fractionText rfl)),
    bind_scan (fraction_fractionText t rfl (by decide)),
    bind_scan (blanks_cons rfl), bind_scan (by rfl : offset ['Z'] = some (0, []))]
  have utc : d.toDays * 86400 + (((s / 3600 * 3600 + s / 60 % 60 * 60 +
      (if s % 60 + t.nano / 1000000000 = 60 then 59 else s % 60 + t.nano / 1000000000) : Nat) :
        Int)) - 0 = t.second := by
    omega
  simp only [nano, utc]
  rw [if_pos ⟨valid, years⟩, dif_pos t.nano_lt, if_pos inside]
  rfl

/-- A time is what its text says. -/
theorem read?_text (writable : t.IsWritable) : read? (text t) = some t := by
  rw [read?, text, String.toList_ofList, instant_plainText writable]
  rfl

/-! ## Times that have been read -/

section Read

variable {text : List Char}

/-- A reader of two parts has read both. -/
theorem scan_of_bind {scan : Scan α} {next : α → Scan β} {read : β × List Char}
    (done : (scan >>= next) text = some read) :
    ∃ a rest, scan text = some (a, rest) ∧ next a rest = some read := by
  obtain ⟨⟨a, rest⟩, first, second⟩ := Option.bind_eq_some_iff.mp done
  exact ⟨a, rest, first, second⟩

theorem takeDigits_digits (taken : takeDigits most text = (ds, rest)) :
    ds.length ≤ most ∧ ∀ c ∈ ds, c.isDigit = true := by
  induction most generalizing text ds with
  | zero =>
    cases taken
    exact ⟨Nat.le_refl 0, nofun⟩
  | succ most ih =>
    cases text with
    | nil =>
      cases taken
      exact ⟨Nat.zero_le _, nofun⟩
    | cons c text =>
      rw [takeDigits] at taken
      split at taken
      · next digit =>
        obtain ⟨rfl, rfl⟩ := Prod.mk.inj taken
        have taken : takeDigits most text = (_, (takeDigits most text).2) := rfl
        obtain ⟨short, all⟩ := ih taken
        exact ⟨Nat.succ_le_succ short, List.forall_mem_cons.mpr ⟨digit, all⟩⟩
      · cases taken
        exact ⟨Nat.zero_le _, nofun⟩

theorem fraction_lt {nano : Nat} (read : fraction text = some (nano, rest)) :
    nano < 1000000000 := by
  rw [fraction.eq_def] at read
  split at read
  · split at read
    · cases read
    · next ds _ _ taken =>
      obtain ⟨short, all⟩ := takeDigits_digits taken
      obtain ⟨rfl, -⟩ := Prod.mk.inj (Option.some.inj read)
      have bound := digitsValue_lt all
      calc digitsValue ds * Nat.pow 10 (9 - ds.length)
          < 10 ^ ds.length * 10 ^ (9 - ds.length) :=
            Nat.mul_lt_mul_of_pos_right bound (Nat.pow_pos (by decide))
        _ = 10 ^ (ds.length + (9 - ds.length)) := (Nat.pow_add ..).symm
        _ = 1000000000 := by rw [Nat.add_sub_cancel' short]; rfl
  · cases read
    decide

theorem offsetSize_minutes {size : Int} (read : offsetSize text = some (size, rest)) :
    size % 60 = 0 := by
  obtain ⟨hours, text, -, read⟩ := scan_of_bind read
  obtain ⟨-, text, -, read⟩ := scan_of_bind read
  obtain ⟨minutes, text, -, read⟩ := scan_of_bind read
  dsimp only at read
  split at read
  · cases read
    omega
  · cases read

theorem offset_minutes {size : Int} (read : offset text = some (size, rest)) : size % 60 = 0 := by
  rw [offset.eq_def] at read
  split at read
  · cases read
    rfl
  next =>
  split at read
  · cases read
    rfl
  · cases read
    rfl
  · exact offsetSize_minutes read
  · obtain ⟨⟨n, rest⟩, size, same⟩ := Option.map_eq_some_iff.mp read
    cases same
    have whole := offsetSize_minutes size
    omega
  · obtain ⟨⟨n, rest⟩, size, same⟩ := Option.map_eq_some_iff.mp read
    cases same
    have whole := offsetSize_minutes size
    omega
  · cases read

/-- A time that is read can be written: the second 60 is the last of a minute, since offsets are
whole minutes. -/
theorem isWritable_of_instant (read : instant text = some (t, rest)) : t.IsWritable := by
  obtain ⟨y, text, -, read⟩ := scan_of_bind read
  obtain ⟨-, text, -, read⟩ := scan_of_bind read
  obtain ⟨month, text, -, read⟩ := scan_of_bind read
  obtain ⟨-, text, -, read⟩ := scan_of_bind read
  obtain ⟨day, text, -, read⟩ := scan_of_bind read
  obtain ⟨-, text, -, read⟩ := scan_of_bind read
  obtain ⟨hour, text, -, read⟩ := scan_of_bind read
  obtain ⟨-, text, -, read⟩ := scan_of_bind read
  obtain ⟨minute, text, -, read⟩ := scan_of_bind read
  obtain ⟨-, text, -, read⟩ := scan_of_bind read
  obtain ⟨second, text, -, read⟩ := scan_of_bind read
  obtain ⟨nano, text, part, read⟩ := scan_of_bind read
  obtain ⟨-, text, -, read⟩ := scan_of_bind read
  obtain ⟨off, text, zone, read⟩ := scan_of_bind read
  have small := fraction_lt part
  have minutes := offset_minutes zone
  dsimp only at read
  generalize clock : (if second = 60 then 59 else second) = last at read
  generalize size : (if second = 60 then 1000000000 else 0) + nano = whole at read
  split at read
  · split at read
    · split at read
      · next inside =>
        cases read
        refine ⟨inside, ?_⟩
        dsimp only
        by_cases leap : second = 60
        · rw [if_pos leap] at clock size
          right
          omega
        · rw [if_neg leap] at size
          left
          omega
      · cases read
    · cases read
  · cases read

theorem isWritable_of_read? {given : String} (read : read? given = some t) : t.IsWritable := by
  rw [read?] at read
  split at read
  · next found =>
    split at read
    · cases read
      exact isWritable_of_instant found
    · cases read
  · cases read

end Read

end Rfc3339

end Calendar

end ChassisCooling
