import Mathlib.Data.List.Basic
import Mathlib.Data.List.TakeWhile
import ChassisCooling.Proofs.Requests
import ChassisCooling.Proofs.Segments
import ChassisCooling.Proofs.Times
import ChassisCooling.Sensors.Nvidia

/-! # Listings of cards

A listing is read back as the cards that are written in it, however it is laid out: blanks may stand
around every field, numbers may have decimals, absent values count as zero, and between the lines of
the cards there may be any others that hold none.
-/

namespace ChassisCooling

namespace Text

variable {text blanks before after word ds rest : List Char} {c : Char} {n : Int}

/-! ## Trimming -/

theorem trimEnd_append (blank : ∀ c ∈ blanks, isBlank c = true) :
    trimEnd (text ++ blanks) = trimEnd text := by
  rw [trimEnd, List.reverse_append,
    List.dropWhile_append_of_pos fun c among => blank c (List.mem_reverse.mp among), trimEnd]

/-- Blanks around a text do not alter what is left when it is trimmed. -/
theorem trim_around (blankBefore : ∀ c ∈ before, isBlank c = true)
    (blankAfter : ∀ c ∈ after, isBlank c = true) : trim (before ++ text ++ after) = trim text := by
  have start : trimStart (before ++ (text ++ after)) = trimStart (text ++ after) :=
    List.dropWhile_append_of_pos blankBefore
  rw [List.append_assoc, trim, start, trim, trimStart, List.dropWhile_append]
  split
  · next nothing =>
    rw [trimStart, List.isEmpty_iff.mp nothing, List.dropWhile_eq_nil_iff.mpr blankAfter]
  · exact trimEnd_append blankAfter

/-- Nothing is trimmed from a text with something other than a blank at both ends. -/
theorem trim_eq_self (filled : text ≠ []) (first : isBlank (text.head filled) = false)
    (last : isBlank (text.getLast filled) = false) : trim text = text := by
  have trimmed := @trim_append _ [] filled first last nofun
  rwa [List.append_nil] at trimmed

/-! ## Parts -/

theorem split_append_cons {separator : Char} (inside : separator ∉ text) :
    split separator (text ++ separator :: rest) = text :: split separator rest := by
  rw [split_eq_splitOn, List.splitOn_append_cons_self_of_not_mem inside, split_eq_splitOn]

theorem split_eq_singleton {separator : Char} (inside : separator ∉ text) :
    split separator text = [text] := by
  rw [split_eq_splitOn, List.splitOn_eq_singleton inside]

theorem length_split (separator : Char) (text : List Char) :
    (split separator text).length = text.count separator + 1 := by
  have from_ : ∀ begun, (splitFrom separator begun text).length = text.count separator + 1 := by
    induction text with
    | nil =>
      intro begun
      rfl
    | cons c text ih =>
      intro begun
      rw [splitFrom]
      split
      · next same => rw [same, List.length_cons, List.count_cons_self, ih]
      · next other => rw [ih, List.count_cons_of_ne other]
  exact from_ []

/-- A blank at the end of a text adds nothing to its parts when they are trimmed. -/
theorem map_trim_split_concat {separator : Char} (other : c ≠ separator)
    (blank : isBlank c = true) :
    (split separator (text ++ [c])).map trim = (split separator text).map trim := by
  have from_ : ∀ begun, (splitFrom separator begun (text ++ [c])).map trim =
      (splitFrom separator begun text).map trim := by
    induction text with
    | nil =>
      intro begun
      have same : trim ([] ++ begun.reverse ++ [c]) = trim begun.reverse :=
        trim_around nofun (List.forall_mem_singleton.mpr blank)
      have one : splitFrom separator begun [c] = [begun.reverse ++ [c]] := by
        rw [splitFrom, if_neg other, splitFrom, List.reverse_cons]
      rw [List.nil_append, one, splitFrom]
      exact congrArg (fun part => [part]) same
    | cons d text ih =>
      intro begun
      rw [List.cons_append, splitFrom, splitFrom]
      split
      · rw [List.map_cons, List.map_cons, ih]
      · exact ih _
  exact from_ []

/-! ## Numbers -/

/-- A whole number is written with a digit in front, or a minus sign before one. -/
theorem integerText_cases (n : Int) :
    (∃ m, n = (m : Nat) ∧ integerText n = digits m) ∨
      ∃ m, n = -(m : Nat) ∧ integerText n = '-' :: digits m := by
  cases n with
  | ofNat m => exact .inl ⟨m, rfl, rfl⟩
  | negSucc m => exact .inr ⟨m + 1, rfl, rfl⟩

theorem isDigit_or_minus_of_mem_integerText (among : c ∈ integerText n) :
    c.isDigit = true ∨ c = '-' := by
  rcases integerText_cases n with ⟨m, -, text⟩ | ⟨m, -, text⟩
  · rw [text] at among
    exact .inl (isDigit_of_mem_digits among)
  · rw [text] at among
    rcases List.mem_cons.mp among with minus | digit
    · exact .inr minus
    · exact .inl (isDigit_of_mem_digits digit)

theorem integerText_ne_nil (n : Int) : integerText n ≠ [] := by
  rcases integerText_cases n with ⟨m, -, text⟩ | ⟨m, -, text⟩
  · rw [text]
    exact digits_ne_nil m
  · rw [text]
    exact List.cons_ne_nil _ _

/-- A whole number is read as what is written. -/
theorem readSigned?_integerText (n : Int) : readSigned? (integerText n) = some n := by
  rcases integerText_cases n with ⟨m, rfl, text⟩ | ⟨m, rfl, text⟩
  · have read := readDigits?_digits m
    obtain ⟨d, ds, shape⟩ := List.exists_cons_of_ne_nil (digits_ne_nil m)
    have digit : d.isDigit = true := isDigit_of_mem_digits (shape ▸ List.mem_cons_self ..)
    rw [text]
    rw [shape] at read ⊢
    have noMinus : d ≠ '-' := by
      rintro rfl
      cases digit
    have noPlus : d ≠ '+' := by
      rintro rfl
      cases digit
    rw [readSigned?.eq_2 _ fun rest same => noMinus (List.cons.inj same).1,
      readUnsigned?.eq_2 _ fun rest same => noPlus (List.cons.inj same).1, read]
    rfl
  · rw [text, readSigned?, readDigits?_digits]
    rfl

theorem isBlank_of_mem_integerText (among : c ∈ integerText n) : isBlank c = false := by
  rcases isDigit_or_minus_of_mem_integerText among with digit | rfl
  · exact isBlank_of_isDigit digit
  · rfl

end Text

namespace Sensors.Nvidia

open Text

variable {text line rest word field fraction : List Char} {ds : List GpuDevice} {d : GpuDevice}
  {n : Int}

/-! ## How cards are listed -/

/-- How a number is written: in full, or with digits behind a point; and zero also by one of the
words for a value that a card does not have. -/
inductive Writes : Int → List Char → Prop
  | whole (n : Int) : Writes n (integerText n)
  | decimal (n : Int) (fraction : List Char) (digits : ∀ c ∈ fraction, c.isDigit = true) :
    Writes n (integerText n ++ '.' :: fraction)
  | absent (word : String) (listed : word ∈ ["", "N/A", "[N/A]", "[Not Supported]"]) :
    Writes 0 word.toList

/-- A word with blanks around it. -/
inductive IsField (word : List Char) : List Char → Prop
  | around {before after : List Char} (blankBefore : ∀ c ∈ before, isBlank c = true)
      (blankAfter : ∀ c ∈ after, isBlank c = true) : IsField word (before ++ word ++ after)

/-- A number with blanks around it. -/
def IsNumber (n : Int) (field : List Char) : Prop :=
  ∃ word, Writes n word ∧ IsField word field

/-- The line of a card: its seven fields between commas, and further ones. -/
inductive IsRow (d : GpuDevice) : List Char → Prop
  | fields {index name temp utilization used total power : List Char} {further : List (List Char)}
      (index_is : IsNumber d.index.toNat index)
      (name_is : IsField d.name.toList name)
      (name_trimmed : trim d.name.toList = d.name.toList)
      (name_apart : ',' ∉ d.name.toList)
      (temp_is : IsNumber d.temp.toInt temp)
      (utilization_is : IsNumber d.utilization.toInt utilization)
      (used_is : IsNumber d.memoryUsed.toInt used)
      (total_is : IsNumber d.memoryTotal.toInt total)
      (power_is : IsNumber d.powerDraw.toInt power)
      (further_apart : ∀ field ∈ further, ',' ∉ field) :
      IsRow d (join ',' (index :: name :: temp :: utilization :: used :: total :: power :: further))

/-- A line, and the card on it: a line that is blank, or has fewer than seven fields between its
commas, holds none. -/
inductive IsLine : List Char → List GpuDevice → Prop
  | card {d : GpuDevice} {line : List Char} (row : IsRow d line) : IsLine line [d]
  | blank (line : List Char) (blanks : ∀ c ∈ line, isBlank c = true) : IsLine line []
  | short (line : List Char) (few : line.count ',' < 6) : IsLine line []

/-- A listing of cards, line by line. The last line need not be ended. -/
inductive Lists : List Char → List GpuDevice → Prop
  | last {line : List Char} {ds : List GpuDevice} (isLine : IsLine line ds) (whole : '\n' ∉ line) :
    Lists line ds
  | line {line rest : List Char} {ds ds' : List GpuDevice} (isLine : IsLine line ds)
      (whole : '\n' ∉ line) (later : Lists rest ds') : Lists (line ++ '\n' :: rest) (ds ++ ds')

/-! ## Fields -/

theorem IsField.trim_eq (isField : IsField word field) : trim field = trim word := by
  obtain ⟨blankBefore, blankAfter⟩ := isField
  exact trim_around blankBefore blankAfter

theorem isBlank_comma : isBlank ',' = false :=
  rfl

theorem IsField.comma_not_mem (isField : IsField word field) (apart : ',' ∉ word) :
    ',' ∉ field := by
  obtain ⟨blankBefore, blankAfter⟩ := isField
  intro among
  rw [List.mem_append, List.mem_append] at among
  rcases among with (among | among) | among
  · cases (blankBefore _ among).symm.trans isBlank_comma
  · exact apart among
  · cases (blankAfter _ among).symm.trans isBlank_comma

theorem Writes.comma_not_mem (written : Writes n word) : ',' ∉ word := by
  have whole : ∀ n, ',' ∉ integerText n := by
    intro n among
    rcases isDigit_or_minus_of_mem_integerText among with digit | minus
    · cases digit
    · cases minus
  cases written with
  | whole => exact whole n
  | decimal _ fraction digits =>
    intro among
    rcases List.mem_append.mp among with among | among
    · exact whole n among
    · rcases List.mem_cons.mp among with point | digit
      · cases point
      · cases digits _ digit
  | absent word listed =>
    revert word
    decide

theorem Writes.trim_eq (written : Writes n word) : trim word = word := by
  cases written with
  | whole =>
    have filled := integerText_ne_nil n
    exact trim_eq_self filled (isBlank_of_mem_integerText (List.head_mem filled))
      (isBlank_of_mem_integerText (List.getLast_mem filled))
  | decimal _ fraction digits =>
    have filled := integerText_ne_nil n
    have longer : integerText n ++ '.' :: fraction ≠ [] :=
      List.append_ne_nil_of_left_ne_nil filled _
    refine trim_eq_self longer ?_ ?_
    · rw [List.head_append_of_ne_nil filled]
      exact isBlank_of_mem_integerText (List.head_mem filled)
    · rw [List.getLast_append_of_ne_nil _ (List.cons_ne_nil '.' fraction)]
      rcases List.mem_cons.mp (List.getLast_mem (List.cons_ne_nil '.' fraction)) with point | digit
      · rw [point]
        rfl
      · exact isBlank_of_isDigit (digits _ digit)
  | absent word listed =>
    revert word
    decide

/-! ## Values -/

theorem exists_cons_of_integerText (n : Int) :
    ∃ c cs, integerText n = c :: cs ∧ (c.isDigit = true ∨ c = '-') := by
  obtain ⟨c, cs, shape⟩ := List.exists_cons_of_ne_nil (integerText_ne_nil n)
  refine ⟨c, cs, shape, ?_⟩
  apply isDigit_or_minus_of_mem_integerText (n := n)
  rw [shape]
  exact List.mem_cons_self ..

/-- No word for an absent value begins as a number does. -/
theorem not_absent (n : Int) (more : List Char) :
    absentWords.contains (integerText n ++ more) = false := by
  obtain ⟨c, cs, shape, first⟩ := exists_cons_of_integerText n
  have noLetter : c ≠ 'N' := by
    rintro rfl
    rcases first with digit | minus
    · cases digit
    · cases minus
  have noBracket : c ≠ '[' := by
    rintro rfl
    rcases first with digit | minus
    · cases digit
    · cases minus
  rw [shape, List.cons_append]
  simp [absentWords, noLetter, noBracket]

theorem takeWhile_integerText (n : Int) (more : List Char) :
    (integerText n ++ more).takeWhile (fun c => c != '.') =
      integerText n ++ more.takeWhile fun c => c != '.' := by
  apply List.takeWhile_append_of_pos
  intro c among
  rcases isDigit_or_minus_of_mem_integerText among with digit | rfl
  · apply bne_iff_ne.mpr
    rintro rfl
    cases digit
  · rfl

theorem value_of_whole (more : List Char) (low : -9223372036854775808 ≤ n)
    (high : n ≤ 9223372036854775807) (point : more.takeWhile (fun c => c != '.') = []) :
    value (integerText n ++ more) = n := by
  rw [value, not_absent, if_neg Bool.false_ne_true, takeWhile_integerText, point, List.append_nil,
    readSigned?_integerText]
  exact if_pos ⟨low, high⟩

/-- A number of 64 bits is read from whatever it is written as. -/
theorem Writes.value_eq (written : Writes n word) (low : -9223372036854775808 ≤ n)
    (high : n ≤ 9223372036854775807) : value word = n := by
  cases written with
  | whole =>
    have read := value_of_whole [] low high rfl
    rwa [List.append_nil] at read
  | decimal => exact value_of_whole _ low high rfl
  | absent word listed =>
    revert word
    decide

/-! ## Lines -/

theorem IsNumber.value_eq (number : IsNumber n field) (low : -9223372036854775808 ≤ n)
    (high : n ≤ 9223372036854775807) : value (trim field) = n := by
  obtain ⟨word, written, isField⟩ := number
  rw [isField.trim_eq, written.trim_eq, written.value_eq low high]

theorem IsNumber.value_int32 {n : Int32} (number : IsNumber n.toInt field) :
    Int32.ofInt (value (trim field)) = n := by
  have low := n.le_toInt
  have high := n.toInt_lt
  rw [number.value_eq (by omega) (by omega), Int32.ofInt_toInt]

theorem IsNumber.value_int64 {n : Int64} (number : IsNumber n.toInt field) :
    Int64.ofInt (value (trim field)) = n := by
  have low := n.le_toInt
  have high := n.toInt_lt
  rw [number.value_eq (by omega) (by omega), Int64.ofInt_toInt]

theorem IsNumber.value_uint32 {n : UInt32} (number : IsNumber n.toNat field) :
    UInt32.ofNat (value (trim field)).toNat = n := by
  have high := n.toNat_lt
  rw [number.value_eq (by omega) (by omega), Int.toNat_natCast, UInt32.ofNat_toNat]

theorem IsNumber.comma_not_mem (number : IsNumber n field) : ',' ∉ field := by
  obtain ⟨word, written, isField⟩ := number
  exact isField.comma_not_mem written.comma_not_mem

/-- The card on a line is read from it. -/
theorem IsRow.device?_eq (row : IsRow d line) : device? line = some d := by
  obtain ⟨index, name, trimmed, apart, temp, utilization, used, total, power, furtherApart⟩ := row
  rename_i _ _ _ _ _ _ _ further
  have parts := @split_join ',' (_ :: _ :: _ :: _ :: _ :: _ :: _ :: further)
    (by
      simp only [List.forall_mem_cons]
      exact ⟨index.comma_not_mem, name.comma_not_mem apart, temp.comma_not_mem,
        utilization.comma_not_mem, used.comma_not_mem, total.comma_not_mem, power.comma_not_mem,
        furtherApart⟩)
    (List.cons_ne_nil _ _)
  rw [device?, parts]
  simp only [List.map_cons, index.value_uint32, name.trim_eq, trimmed, String.ofList_toList,
    temp.value_int32, utilization.value_int32, used.value_int64, total.value_int64,
    power.value_int32]

theorem device?_of_short (few : line.count ',' < 6) : device? line = none := by
  have size : ((split ',' line).map trim).length < 7 := by
    rw [List.length_map, length_split]
    omega
  rw [device?]
  split
  · next shape =>
    rw [shape] at size
    simp only [List.length_cons] at size
    omega
  · rfl

theorem device?_of_blank (blank : ∀ c ∈ line, isBlank c = true) : device? line = none := by
  apply device?_of_short
  have none : line.count ',' = 0 := by
    apply List.count_eq_zero_of_not_mem
    intro among
    cases (blank _ among).symm.trans isBlank_comma
  omega

theorem IsLine.device?_eq (isLine : IsLine line ds) : (device? line).toList = ds := by
  cases isLine with
  | card row => rw [row.device?_eq, Option.toList_some]
  | blank _ blanks => rw [device?_of_blank blanks, Option.toList_none]
  | short _ few => rw [device?_of_short few, Option.toList_none]

/-! ## Listings -/

/-- A carriage return at the end of a line does not matter. -/
theorem device?_dropReturn (begun : List Char) :
    device? (dropReturn '\r' begun).reverse = device? begun.reverse := by
  cases begun with
  | nil => rfl
  | cons c begun =>
    rw [dropReturn]
    split
    · next same =>
      rw [beq_iff_eq.mp same, List.reverse_cons, device?, device?,
        map_trim_split_concat (by decide) rfl]
    · rfl

/-- The cards in a listing are those between its line feeds. -/
theorem devices_eq (listing : String) :
    devices listing = (split '\n' listing.toList).filterMap device? := by
  have blank : ∀ lines : List (List Char),
      (lines.filter fun line => !line.all isBlank).filterMap device? = lines.filterMap device? := by
    intro lines
    rw [List.filterMap_filter]
    apply List.filterMap_congr
    intro line _
    split
    · rfl
    · next blank =>
      rw [Bool.not_eq_true', Bool.not_eq_false, List.all_eq_true] at blank
      rw [device?_of_blank blank]
  have from_ : ∀ begun text, (linesFrom '\n' '\r' begun text).filterMap device? =
      (splitFrom '\n' begun text).filterMap device? := by
    intro begun text
    induction text generalizing begun with
    | nil =>
      rw [linesFrom, splitFrom]
      split
      · next nothing =>
        rw [List.isEmpty_iff.mp nothing]
        rfl
      · rfl
    | cons c text ih =>
      rw [linesFrom, splitFrom]
      by_cases ended : c = '\n'
      · rw [if_pos (beq_iff_eq.mpr ended), if_pos ended, List.filterMap_cons, List.filterMap_cons,
          device?_dropReturn, ih]
      · rw [if_neg (mt beq_iff_eq.mp ended), if_neg ended, ih]
  rw [devices, blank]
  exact from_ [] listing.toList

theorem Lists.split_eq (listed : Lists text ds) : (split '\n' text).filterMap device? = ds := by
  induction listed with
  | last isLine whole =>
    rw [split_eq_singleton whole, ← isLine.device?_eq, List.filterMap_cons, List.filterMap_nil]
    cases device? _ <;> rfl
  | line isLine whole _ ih =>
    rw [split_append_cons whole, ← isLine.device?_eq, List.filterMap_cons, ih]
    cases device? _ <;> rfl

/-- A listing of cards is read back as the cards, in order, and the highest temperature in the
reading is the highest of theirs, or 0 without a card. -/
theorem listed_cards_read {listing : String} {ds : List GpuDevice}
    (listed : Lists listing.toList ds) :
    devices listing = ds ∧ (GpuReading.ofDevices (devices listing)).devices = ds ∧
      (ds = [] → (GpuReading.ofDevices (devices listing)).max = 0) ∧
      (ds ≠ [] → (∃ d ∈ ds, d.temp = (GpuReading.ofDevices (devices listing)).max) ∧
        ∀ d ∈ ds, d.temp ≤ (GpuReading.ofDevices (devices listing)).max) := by
  have read : devices listing = ds := by rw [devices_eq, listed.split_eq]
  rw [read, GpuReading.ofDevices]
  refine ⟨rfl, rfl, ?_, ?_⟩
  · rintro rfl
    rfl
  · intro filled
    obtain ⟨among, above⟩ := hottest_greatest (mt List.map_eq_nil_iff.mp filled)
    constructor
    · exact List.mem_map.mp among
    · intro d listed
      exact above d.temp (List.mem_map_of_mem listed)

/-- A card without sensors for its load and its power draw. -/
def passiveCard : GpuDevice :=
  ⟨1, "Tesla T4", -3, 0, 0, 15360, 0⟩

def passiveRow : String :=
  " 1 ,\tTesla T4 ,-3.5,[N/A],,15360, [Not Supported],Default"

/-- The card in a listing with lines of other kinds. -/
def cardListing : String :=
  "retrying ...\n" ++ passiveRow ++ "\n \t"

theorem isField_around (before word after : List Char)
    (blank : (before ++ after).all isBlank = true) : IsField word (before ++ word ++ after) := by
  rw [List.all_append, Bool.and_eq_true, List.all_eq_true, List.all_eq_true] at blank
  exact .around blank.1 blank.2

theorem isRow_passiveRow : IsRow passiveCard passiveRow.toList := by
  have row := @IsRow.fields passiveCard _ _ _ _ _ _ _ ["Default".toList]
    ⟨_, .whole _, isField_around [' '] _ [' '] rfl⟩ (isField_around ['\t'] _ [' '] rfl)
    (by decide +kernel) (by decide +kernel)
    ⟨_, .decimal passiveCard.temp.toInt ['5'] (List.forall_mem_singleton.mpr rfl),
      isField_around [] _ [] rfl⟩
    ⟨_, .absent "[N/A]" (by decide), isField_around [] _ [] rfl⟩
    ⟨_, .absent "" (by decide), isField_around [] _ [] rfl⟩
    ⟨_, .whole _, isField_around [] _ [] rfl⟩
    ⟨_, .absent "[Not Supported]" (by decide), isField_around [' '] _ [] rfl⟩
    (by decide +kernel)
  exact cast (congrArg (IsRow _) (by decide +kernel)) row

theorem cardListing_read :
    devices cardListing = [passiveCard] ∧
      (GpuReading.ofDevices (devices cardListing)).max = -3 := by
  have listed : Lists cardListing.toList [passiveCard] :=
    cast (congrArg (fun text => Lists text _) (by decide +kernel))
      (Lists.line (.short "retrying ...".toList (by decide +kernel)) (by decide +kernel)
        (.line (.card isRow_passiveRow) (by decide +kernel)
          (.last (.blank " \t".toList (List.all_eq_true.mp rfl)) (by decide +kernel))))
  obtain ⟨read, -, -, greatest⟩ := listed_cards_read listed
  obtain ⟨⟨d, among, same⟩, -⟩ := greatest (List.cons_ne_nil _ _)
  rw [List.mem_singleton.mp among] at same
  exact ⟨read, same.symm⟩

end Sensors.Nvidia

end ChassisCooling
