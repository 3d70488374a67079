import Mathlib.Data.List.Infix
import ChassisCooling.Sensors.Ipmi

/-! # Rows that count

The bare rows of a listing decide: as long as one of them has a temperature, the other rows may be
any, and any number, wherever they stand. Only where no bare row has a temperature do all rows
count. What is read is plausible in both cases, so the highest temperature tells whether anything
was read.
-/

namespace ChassisCooling

namespace Text

/-- A text occurs in another if the other has it somewhere between a beginning and an end. -/
theorem occursIn_iff {needle text : List Char} : occursIn needle text = true ↔ needle <:+: text := by
  induction text with
  | nil => rw [occursIn, List.isEmpty_iff, List.infix_nil]
  | cons c text ih => rw [occursIn, Bool.or_eq_true, List.isPrefixOf_iff_prefix, ih,
      List.infix_cons_iff]

/-- A word stands in a text, whatever the case of the letters A to Z there. -/
def Mentions (word text : List Char) : Prop :=
  ∃ part, part <:+: text ∧ part.map lowerAscii = word

theorem occursIn_lowered_iff {word text : List Char} :
    occursIn word (text.map lowerAscii) = true ↔ Mentions word text := by
  rw [occursIn_iff, List.infix_map_iff, Mentions]
  simp only [eq_comm]

end Text

namespace Sensors.Ipmi

open Text

variable {row : List Char} {rows rows' front back : List (List Char)} {t : Int32}

/-! ## Bare rows -/

/-- Blanks apart, a bare row begins with `Temp`, and it has neither word for a place in the airflow,
in whatever case. -/
structure IsBareRow (row : List Char) : Prop where
  named : ['T', 'e', 'm', 'p'] <+: trimStart row
  notInlet : ¬ Mentions ['i', 'n', 'l', 'e', 't'] row
  notExhaust : ¬ Mentions ['e', 'x', 'h', 'a', 'u', 's', 't'] row

theorem isBare_iff : isBare row = true ↔ IsBareRow row := by
  simp only [isBare, Bool.and_eq_true, Bool.not_eq_true', ← Bool.not_eq_true,
    occursIn_lowered_iff, List.isPrefixOf_iff_prefix]
  constructor
  · rintro ⟨⟨notInlet, notExhaust⟩, named⟩
    exact ⟨named, notInlet, notExhaust⟩
  · rintro ⟨named, notInlet, notExhaust⟩
    exact ⟨⟨notInlet, notExhaust⟩, named⟩

instance : DecidablePred IsBareRow :=
  fun _ => decidable_of_iff _ isBare_iff

/-- Rows that are not bare have been put in and taken out, anywhere. -/
inductive Edited (rows : List (List Char)) : List (List Char) → Prop
  | same : Edited rows rows
  | insert {front back : List (List Char)} {row : List Char} (before : Edited rows (front ++ back))
      (other : ¬ IsBareRow row) : Edited rows (front ++ row :: back)
  | delete {front back : List (List Char)} {row : List Char}
      (before : Edited rows (front ++ row :: back)) (other : ¬ IsBareRow row) :
      Edited rows (front ++ back)

theorem filter_isBare_insert (other : ¬ IsBareRow row) :
    (front ++ row :: back).filter isBare = (front ++ back).filter isBare := by
  rw [List.filter_append, List.filter_cons_of_neg (mt isBare_iff.mp other), List.filter_append]

/-- Such a change leaves the bare rows as they are, in their order. -/
theorem Edited.filter_isBare (edited : Edited rows rows') :
    rows'.filter isBare = rows.filter isBare := by
  induction edited with
  | same => rfl
  | insert _ other ih => rw [filter_isBare_insert other, ih]
  | delete _ other ih => rw [← filter_isBare_insert other, ih]

/-! ## What a listing gives -/

/-- The temperatures of the bare rows, in order. -/
def bareTemps (rows : List (List Char)) : List Int32 :=
  (rows.filter IsBareRow).filterMap plausibleTemp?

theorem filter_isBareRow (rows : List (List Char)) : rows.filter IsBareRow = rows.filter isBare := by
  apply List.filter_congr
  intro row _
  rw [Bool.eq_iff_iff, decide_eq_true_iff, isBare_iff]

theorem bareTemps_eq_nil_iff :
    bareTemps rows = [] ↔ ∀ row ∈ rows, IsBareRow row → plausibleTemp? row = none := by
  rw [bareTemps, List.filterMap_eq_nil_iff]
  simp only [List.mem_filter, decide_eq_true_eq, and_imp]

theorem temperatures_eq (listing : String) : temperatures listing =
    if bareTemps (lines listing.toList) = [] then
      (lines listing.toList).filterMap plausibleTemp?
    else bareTemps (lines listing.toList) := by
  rw [bareTemps, filter_isBareRow, temperatures]
  split
  · next nothing => rw [if_pos nothing]
  · next something => rw [if_neg something]

theorem plausibleTemp?_bounds (read : plausibleTemp? row = some t) : 1 ≤ t ∧ t ≤ 119 := by
  obtain ⟨n, -, given⟩ := Option.bind_eq_some_iff.mp read
  split at given
  · next inside =>
    obtain rfl := Option.some.inj given
    have all : ∀ n : Fin maxPlausible, 0 < n.val →
        1 ≤ Int32.ofNat n.val ∧ Int32.ofNat n.val ≤ 119 := by decide
    exact all ⟨n, inside.2⟩ inside.1
  · cases given

theorem exists_row_of_mem {listing : String} (among : t ∈ temperatures listing) :
    ∃ row ∈ lines listing.toList, plausibleTemp? row = some t := by
  rw [temperatures_eq] at among
  split at among
  · exact List.mem_filterMap.mp among
  · obtain ⟨row, listed, read⟩ := List.mem_filterMap.mp among
    exact ⟨row, (List.mem_filter.mp listed).1, read⟩

theorem temperatures_eq_nil_iff {listing : String} : temperatures listing = [] ↔
    ∀ row ∈ lines listing.toList, plausibleTemp? row = none := by
  rw [temperatures_eq]
  split
  · exact List.filterMap_eq_nil_iff
  · next something =>
    constructor
    · intro nothing
      exact absurd nothing something
    · intro unread
      exact bareTemps_eq_nil_iff.mpr fun row listed _ => unread row listed

theorem bareTemps_ne_nil_iff : bareTemps rows ≠ [] ↔
    ∃ row ∈ rows, IsBareRow row ∧ (plausibleTemp? row).isSome = true := by
  simp only [ne_eq, bareTemps_eq_nil_iff, Option.isSome_iff_ne_none, not_forall, exists_prop]

theorem Edited.bareTemps_eq (edited : Edited rows rows') : bareTemps rows' = bareTemps rows := by
  rw [bareTemps, bareTemps, filter_isBareRow, filter_isBareRow, edited.filter_isBare]

/-- What is read is plausible, so the highest temperature tells whether anything was read. -/
theorem max_ofTemps_temperatures (listing : String) :
    0 ≤ (CpuReading.ofTemps (temperatures listing)).max ∧
      (CpuReading.ofTemps (temperatures listing)).max ≤ 119 ∧
      ((CpuReading.ofTemps (temperatures listing)).max = 0 ↔ temperatures listing = []) := by
  rw [CpuReading.ofTemps]
  by_cases nothing : temperatures listing = []
  · rw [nothing]
    decide
  · obtain ⟨among, -⟩ := hottest_greatest nothing
    obtain ⟨row, -, read⟩ := exists_row_of_mem among
    obtain ⟨low, high⟩ := plausibleTemp?_bounds read
    refine ⟨Int32.le_trans (by decide) low, high, ?_⟩
    constructor
    · intro zero
      rw [show hottest (temperatures listing) = 0 from zero] at low
      exact absurd low (by decide)
    · intro empty
      exact absurd empty nothing

/-- If a bare row has a temperature, exactly the temperatures of the bare rows are read, and no
change of other rows alters that; if none has one, those of all rows are read. Each lies between 1
and 119 degrees, and the highest of them is 0 exactly if no row has one. -/
theorem bare_rows_decide (listing : String) :
    ((∃ row ∈ lines listing.toList, IsBareRow row ∧ (plausibleTemp? row).isSome = true) →
      temperatures listing = ((lines listing.toList).filter IsBareRow).filterMap plausibleTemp? ∧
      ∀ listing', Edited (lines listing.toList) (lines listing'.toList) →
        temperatures listing' = temperatures listing) ∧
    ((¬ ∃ row ∈ lines listing.toList, IsBareRow row ∧ (plausibleTemp? row).isSome = true) →
      temperatures listing = (lines listing.toList).filterMap plausibleTemp?) ∧
    (∀ t ∈ temperatures listing, 1 ≤ t ∧ t ≤ 119) ∧
    0 ≤ (CpuReading.ofTemps (temperatures listing)).max ∧
    (CpuReading.ofTemps (temperatures listing)).max ≤ 119 ∧
    ((CpuReading.ofTemps (temperatures listing)).max = 0 ↔
      ∀ row ∈ lines listing.toList, plausibleTemp? row = none) := by
  obtain ⟨low, high, none_iff⟩ := max_ofTemps_temperatures listing
  refine ⟨?bare, ?all, ?each, low, high, none_iff.trans temperatures_eq_nil_iff⟩
  case bare =>
    intro readable
    have something := bareTemps_ne_nil_iff.mpr readable
    have read : temperatures listing = bareTemps (lines listing.toList) := by
      rw [temperatures_eq, if_neg something]
    refine ⟨read, ?_⟩
    intro listing' edited
    rw [temperatures_eq listing', edited.bareTemps_eq, if_neg something, read]
  case all =>
    intro unreadable
    have nothing := not_not.mp (mt bareTemps_ne_nil_iff.mp unreadable)
    rw [temperatures_eq, if_pos nothing]
  case each =>
    intro t among
    obtain ⟨row, -, read⟩ := exists_row_of_mem among
    exact plausibleTemp?_bounds read

/-- A listing of a board with two processors. -/
def boardListing : String :=
  "Inlet Temp | 20 degrees C\nTemp | 33 degrees C\r\n Temp | 35 degrees C"

theorem boardListing_read :
    temperatures boardListing = [33, 35] ∧
      ∀ listing', Edited (lines boardListing.toList) (lines listing'.toList) →
        temperatures listing' = [33, 35] := by
  have temps : ((lines boardListing.toList).filter IsBareRow).filterMap plausibleTemp? =
      [33, 35] := by decide +kernel
  obtain ⟨read, kept⟩ := (bare_rows_decide boardListing).1 (by decide +kernel)
  rw [temps] at read
  refine ⟨read, ?_⟩
  intro listing' edited
  rw [kept listing' edited, read]

end Sensors.Ipmi

end ChassisCooling
