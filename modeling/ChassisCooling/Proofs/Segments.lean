import ChassisCooling.Files.Path

/-! # Paths beside each other

A path is determined by its segments, and its segments by the path. The path with another ending has
all its segments in common with the old one, apart from the last.
-/

namespace ChassisCooling.Text

variable {separator : Char} {text : List Char} {parts : List (List Char)}

theorem split_eq_splitOn (separator : Char) (text : List Char) :
    split separator text = text.splitOn separator := by
  have from_ : ∀ begun, splitFrom separator begun text =
      text.splitOnPPrepend (· == separator) begun := by
    induction text with
    | nil => exact fun _ => rfl
    | cons c rest ih =>
      intro begun
      rw [splitFrom, List.splitOnPPrepend_cons_eq_if, ih, ih]
      simp only [beq_iff_eq, List.splitOnPPrepend_nil_right]
  exact from_ []

theorem join_eq_intercalate (separator : Char) (parts : List (List Char)) :
    join separator parts = [separator].intercalate parts := by
  induction parts with
  | nil => rfl
  | cons part rest ih =>
    cases rest with
    | nil => exact (List.append_nil part).symm
    | cons next rest =>
      rw [join, ih, List.intercalate_cons_cons, List.append_assoc]
      · rfl
      · exact List.cons_ne_nil next rest

theorem join_split (separator : Char) (text : List Char) :
    join separator (split separator text) = text := by
  rw [split_eq_splitOn, join_eq_intercalate, List.intercalate_splitOn]

theorem split_join (apart : ∀ part ∈ parts, separator ∉ part) (some : parts ≠ []) :
    split separator (join separator parts) = parts := by
  rw [split_eq_splitOn, join_eq_intercalate, List.splitOn_intercalate separator apart some]

theorem split_ne_nil (separator : Char) (text : List Char) : split separator text ≠ [] := by
  rw [split_eq_splitOn]
  exact List.splitOn_ne_nil separator text

theorem separator_not_mem_split (separator : Char) (text : List Char) :
    ∀ part ∈ split separator text, separator ∉ part := by
  have from_ : ∀ begun, separator ∉ begun →
      ∀ part ∈ splitFrom separator begun text, separator ∉ part := by
    induction text with
    | nil =>
      intro begun apart part among
      rw [List.mem_singleton.mp among]
      exact mt List.mem_reverse.mp apart
    | cons c rest ih =>
      intro begun apart part among
      rw [splitFrom] at among
      split at among
      · rcases List.mem_cons.mp among with rfl | later
        · exact mt List.mem_reverse.mp apart
        · exact ih [] List.not_mem_nil part later
      · next other =>
        refine ih (c :: begun) (fun inside => ?_) part among
        rcases List.mem_cons.mp inside with same | inside
        · exact other same.symm
        · exact apart inside
  exact from_ [] List.not_mem_nil

theorem join_concat (separator : Char) (parts : List (List Char)) (last : List Char) :
    join separator (parts ++ [last]) = parts.flatMap (· ++ [separator]) ++ last := by
  induction parts with
  | nil => rfl
  | cons part rest ih =>
    rw [List.cons_append, join, ih, List.flatMap_cons, List.append_assoc, List.append_assoc]
    · rfl
    · exact List.append_ne_nil_of_right_ne_nil rest (List.cons_ne_nil last [])

end ChassisCooling.Text

namespace ChassisCooling.Files.Path

variable {path : Path} {front : List String} {name : String}

/-! ## Segments -/

/-- A segment that stands between slashes. -/
def IsSegment (segment : String) : Prop :=
  '/' ∉ segment.toList

theorem ofSegments_segments (path : Path) : ofSegments path.segments = path := by
  have same : (segments path).map String.toList = Text.split '/' path.toList := by
    rw [segments, List.map_map, String.toList_comp_ofList, List.map_id]
  rw [ofSegments, same, Text.join_split, String.ofList_toList]

theorem isSegment_of_mem {segment : String} (among : segment ∈ segments path) :
    IsSegment segment := by
  obtain ⟨part, parts, rfl⟩ := List.mem_map.mp among
  rw [IsSegment, String.toList_ofList]
  exact Text.separator_not_mem_split '/' path.toList part parts

theorem segments_ofSegments {given : List String} (apart : ∀ segment ∈ given, IsSegment segment)
    (some : given ≠ []) : segments (ofSegments given) = given := by
  have parts : ∀ part ∈ given.map String.toList, '/' ∉ part := by
    intro part among
    obtain ⟨segment, listed, rfl⟩ := List.mem_map.mp among
    exact apart segment listed
  rw [segments, ofSegments, String.toList_ofList, Text.split_join parts (mt List.map_eq_nil_iff.mp some),
    List.map_map, String.ofList_comp_toList, List.map_id]

theorem exists_segments (path : Path) : ∃ front last, segments path = front ++ [last] := by
  have some : segments path ≠ [] := mt List.map_eq_nil_iff.mp (Text.split_ne_nil '/' path.toList)
  exact ⟨_, _, (List.dropLast_concat_getLast some).symm⟩

theorem toList_of_segments {last : String} (split : segments path = front ++ [last]) :
    path.toList = (front.map String.toList).flatMap (· ++ ['/']) ++ last.toList := by
  have joined := ofSegments_segments path
  rw [split, ofSegments, List.map_append, List.map_singleton, Text.join_concat] at joined
  rw [← joined, String.toList_ofList]

theorem isAbsolute_of_segments {last : String} (split : segments path = front ++ [last]) :
    isAbsolute path = (front.head? == some "") := by
  have noSlash : ∀ segment ∈ front ++ [last], segment.toList.head? ≠ some '/' :=
    fun segment among begins => isSegment_of_mem (split ▸ among) (List.mem_of_head? begins)
  rw [isAbsolute, toList_of_segments split]
  cases front with
  | nil => exact beq_eq_false_iff_ne.mpr (noSlash last (List.mem_singleton_self last))
  | cons first rest =>
    rw [List.map_cons, List.flatMap_cons, List.append_assoc, List.append_assoc, List.head?_cons]
    cases begins : first.toList with
    | nil =>
      rw [String.toList_eq_nil_iff.mp begins]
      rfl
    | cons c more =>
      have other : some c ≠ some '/' := by
        have first := noSlash first (List.mem_append_left _ List.mem_cons_self)
        rwa [begins] at first
      have named : some first ≠ some "" := by
        rintro ⟨⟩
        cases begins
      exact (beq_eq_false_iff_ne.mpr other).trans (beq_eq_false_iff_ne.mpr named).symm

/-- A path that ends in no slash has a last segment that is more than nothing, if it has any name. -/
theorem last_segment_ne_empty {last : String} (split : segments path = front ++ [last])
    (unslashed : endsInSlash path = false) (some : names path ≠ []) : last ≠ "" := by
  rintro rfl
  rw [endsInSlash, toList_of_segments split] at unslashed
  cases List.eq_nil_or_concat front with
  | inl none =>
    subst none
    rw [names, split] at some
    exact some rfl
  | inr more =>
    obtain ⟨before, segment, rfl⟩ := more
    rw [List.concat_eq_append, List.map_append, List.flatMap_append] at unslashed
    simp at unslashed

theorem names_of_segments {last : String} (split : segments path = front ++ [last])
    (filled : last ≠ "") : names path = front.filter (fun s => !s.isEmpty) ++ [last] := by
  have kept : [last].filter (fun s => !s.isEmpty) = [last] := by simpa using filled
  rw [names, split, List.filter_append, kept]

theorem isBlank_eq_false (filled : name ≠ "") (noDot : name ≠ ".") : isBlank name = false := by
  rw [isBlank, beq_eq_false_iff_ne.mpr filled, beq_eq_false_iff_ne.mpr noDot]
  rfl

/-- The last name of a path that ends in no slash is its last segment. -/
theorem segments_of_last (unslashed : endsInSlash path = false)
    (last : (names path).getLast? = some name) :
    ∃ front, segments path = front ++ [name] ∧ name ≠ "" := by
  obtain ⟨front, final, split⟩ := exists_segments path
  have some : names path ≠ [] := List.ne_nil_of_mem (List.mem_of_getLast? last)
  have filled := last_segment_ne_empty split unslashed some
  rw [names_of_segments split filled, List.getLast?_concat] at last
  cases last
  exact ⟨front, split, filled⟩

/-! ## Another ending -/

theorem trimBlanks_of_last (filled : isBlank name = false) :
    trimBlanks (front ++ [name]) = front ++ [name] := by
  cases front with
  | nil =>
    rw [List.nil_append, trimBlanks]
    simp [filled]
  | cons first rest =>
    have trimmed : (rest ++ [name]).reverse.dropWhile isBlank = (rest ++ [name]).reverse := by
      rw [List.reverse_append, List.reverse_singleton, List.singleton_append]
      exact List.dropWhile_cons_of_neg (by rw [filled]; nofun)
    have more : (rest ++ [name]).isEmpty = false := by simp
    rw [List.cons_append, trimBlanks]
    simp only [trimmed, List.reverse_reverse, more, Bool.false_and, Bool.false_eq_true, ↓reduceIte]

theorem isSegment_stem (segment : IsSegment name) : IsSegment (stem name) := by
  rw [stem]
  split
  · exact segment
  · rw [IsSegment, String.toList_ofList, List.mem_reverse]
    intro inside
    refine segment (List.mem_reverse.mp ?_)
    exact (List.dropWhile_sublist _).subset ((List.drop_sublist 1 _).subset inside)

theorem isSegment_append {s t : String} (first : IsSegment s) (second : IsSegment t) :
    IsSegment (s ++ t) := by
  rw [IsSegment, String.toList_append, List.mem_append]
  exact not_or.mpr ⟨first, second⟩

/-- Another ending is put on the last segment, and where only a dot would be left the segment becomes
two dots. -/
theorem withExtension_eq (split : segments path = front ++ [name]) (filled : isBlank name = false)
    (noDots : name ≠ "..") (ending : String) : ∃ last,
      (last = ".." ∨ last = stem name ++ "." ++ ending) ∧
        withExtension path ending = ofSegments (front ++ [last]) := by
  have final : (trimBlanks (segments path)).getLast? = some name := by
    rw [split, trimBlanks_of_last filled, List.getLast?_concat]
  obtain ⟨notEmpty, notDot⟩ := Bool.or_eq_false_iff.mp filled
  have named : ¬ (name == "" || name == "." || name == "..") = true := by
    rw [notEmpty, notDot, beq_eq_false_iff_ne.mpr noDots]
    nofun
  rw [withExtension]
  simp only [final]
  rw [if_neg named, split, trimBlanks_of_last filled, List.dropLast_concat]
  split
  · exact ⟨"..", .inl rfl, rfl⟩
  · exact ⟨_, .inr rfl, rfl⟩

theorem withExtension_dots (split : segments path = front ++ [".."]) (ending : String) :
    withExtension path ending = path := by
  rw [withExtension, split, trimBlanks_of_last (by decide), List.getLast?_concat]
  rfl

/-- Another ending changes the last segment alone. -/
theorem segments_withExtension (split : segments path = front ++ [name])
    (filled : isBlank name = false) (noDots : name ≠ "..") {ending : String}
    (segment : IsSegment ending) : ∃ last,
      (last = ".." ∨ last = stem name ++ "." ++ ending) ∧ last ≠ "" ∧
        segments (withExtension path ending) = front ++ [last] := by
  have named : IsSegment name := isSegment_of_mem (split ▸ List.mem_append_right _ List.mem_cons_self)
  have apart : ∀ last, IsSegment last → segments (ofSegments (front ++ [last])) = front ++ [last] := by
    intro last isSegment
    refine segments_ofSegments (fun segment among => ?_) (by simp)
    rcases List.mem_append.mp among with before | final
    · exact isSegment_of_mem (split ▸ List.mem_append_left _ before)
    · exact List.mem_singleton.mp final ▸ isSegment
  obtain ⟨last, rfl | rfl, same⟩ := withExtension_eq split filled noDots ending
  · exact ⟨"..", .inl rfl, by decide, same ▸ apart ".." (by simp [IsSegment])⟩
  · refine ⟨_, .inr rfl, ?_, same ▸ apart _ ?_⟩
    · intro none
      have length := congrArg String.length none
      simp at length
    · exact isSegment_append (isSegment_append (isSegment_stem named) (by simp [IsSegment])) segment

/-- Two paths that have all names but the last in common. -/
structure Beside (source path : Path) : Prop where
  absolute : isAbsolute source = isAbsolute path
  front : (names source).dropLast = (names path).dropLast

/-- The path with another ending lies beside the old one. -/
theorem beside_withExtension {ending : String} (segment : IsSegment ending)
    (unslashed : endsInSlash path = false) (last : (names path).getLast? = some name)
    (noDot : name ≠ ".") : Beside (withExtension path ending) path := by
  obtain ⟨front, split, filled⟩ := segments_of_last unslashed last
  by_cases dots : name = ".."
  · subst dots
    rw [withExtension_dots split]
    exact ⟨rfl, rfl⟩
  · obtain ⟨other, -, filled', split'⟩ :=
      segments_withExtension split (isBlank_eq_false filled noDot) dots segment
    refine ⟨?_, ?_⟩
    · rw [isAbsolute_of_segments split, isAbsolute_of_segments split']
    · rw [names_of_segments split filled, names_of_segments split' filled', List.dropLast_concat,
        List.dropLast_concat]

/-- The name without its ending, if more than the ending is left. -/
theorem stem_of_cut {before : List Char}
    (cut : (name.toList.reverse.dropWhile fun c => c != '.').drop 1 = before) (more : before ≠ []) :
    stem name = String.ofList before.reverse := by
  rw [stem]
  simp only [cut]
  exact if_neg (mt List.isEmpty_iff.mp more)

/-- Two endings in place of one make another name. -/
theorem stem_append_ne (name body ending : String) (noDot : '.' ∉ ending.toList) :
    stem name ++ "." ++ (body ++ "." ++ ending) ≠ name := by
  intro same
  have reversed : name.toList.reverse =
      ending.toList.reverse ++ '.' :: (body.toList.reverse ++ '.' :: (stem name).toList.reverse) := by
    have text := congrArg (fun s => s.toList.reverse) same
    simpa using text.symm
  have cut : (name.toList.reverse.dropWhile fun c => c != '.').drop 1 =
      body.toList.reverse ++ '.' :: (stem name).toList.reverse := by
    rw [reversed, List.dropWhile_append_of_pos, List.dropWhile_cons_of_neg]
    · rfl
    · simp
    · intro c among
      rw [bne_iff_ne]
      rintro rfl
      exact noDot (List.mem_reverse.mp among)
  have length := congrArg String.length (stem_of_cut cut (by simp))
  simp at length

/-- The path with two endings in place of one ends in another name. -/
theorem getLast?_withExtension_ne (unslashed : endsInSlash path = false)
    (last : (names path).getLast? = some name) (noDot : name ≠ ".") (noDots : name ≠ "..")
    {body ending : String} (segment : IsSegment (body ++ "." ++ ending))
    (plain : '.' ∉ ending.toList) :
    (names (withExtension path (body ++ "." ++ ending))).getLast? ≠ some name := by
  obtain ⟨front, split, filled⟩ := segments_of_last unslashed last
  obtain ⟨other, isOne, filled', split'⟩ :=
    segments_withExtension split (isBlank_eq_false filled noDot) noDots segment
  rw [names_of_segments split' filled', List.getLast?_concat]
  rintro ⟨⟩
  rcases isOne with dots | same
  · exact noDots dots
  · exact stem_append_ne name body ending plain same.symm

end ChassisCooling.Files.Path
