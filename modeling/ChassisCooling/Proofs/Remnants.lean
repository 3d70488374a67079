import ChassisCooling.Proofs.Documents

/-! # Documents behind a remnant

When a line begins with what is left of another one, be it even a whole document, an object behind
it is lost: only blanks before a document leave it readable. A reader that has met anything else
has begun a string, a word or a number, which the object does not go on with, or has a container
open that the object does not close, or has its document already.
-/

namespace ChassisCooling.Json

namespace Reader

/-! ## What a reader has begun -/

/-- Every open container but the innermost waits for a value. -/
inductive IsNested : List Frame → Prop
  | nil : IsNested []
  | cons {frames : List Frame} (frame : Frame) (place : IsPlace frames) (nested : IsNested frames) :
    IsNested (frame :: frames)

/-- A key may come next. -/
inductive TakesKey : Awaiting → Prop
  | keyOrClose : TakesKey .keyOrClose
  | key : TakesKey .key

/-- What may come next fits the innermost open container. -/
inductive Fits : List Frame → Awaiting → Prop
  | value {frames : List Frame} (place : IsPlace frames) : Fits frames .value
  | itemOrClose (items : List Json) (frames : List Frame) :
    Fits (.array items :: frames) .itemOrClose
  | key {awaiting : Awaiting} (members : List (Option String × Json)) (frames : List Frame)
    (takes : TakesKey awaiting) : Fits (.object members :: frames) awaiting
  | colon (members : List (Option String × Json)) (key : Option String) (frames : List Frame) :
    Fits (.member members key :: frames) .colon
  | afterItem (items : List Json) (frames : List Frame) :
    Fits (.array items :: frames) .commaOrClose
  | afterMember (members : List (Option String × Json)) (frames : List Frame) :
    Fits (.object members :: frames) .commaOrClose

/-- A string has begun. -/
def IsString : Lexeme → Prop
  | .literal _ | .escape _ | .unit _ _ _ => True
  | .none | .numeral _ | .word _ _ => False

/-- A string, a number, or a word that goes on with no brace has begun. -/
def IsScalar : Lexeme → Prop
  | .none => False
  | .word letters _ => '{' ∉ letters
  | .literal _ | .escape _ | .unit _ _ _ | .numeral _ => True

/-- A reader that has met more than blanks and may still come to a document. -/
inductive IsBusy : Reader → Prop
  | inside {frames : List Frame} {awaiting : Awaiting} (fits : Fits frames awaiting)
    (nested : IsNested frames) (opened : frames ≠ []) : IsBusy ⟨frames, awaiting, .none, none⟩
  | value {frames : List Frame} {awaiting : Awaiting} {lexeme : Lexeme} (place : IsPlace frames)
    (nested : IsNested frames) (takes : TakesValue awaiting) (scalar : IsScalar lexeme) :
    IsBusy ⟨frames, awaiting, lexeme, none⟩
  | key {frames : List Frame} {awaiting : Awaiting} {lexeme : Lexeme}
    (members : List (Option String × Json)) (nested : IsNested (.object members :: frames))
    (takes : TakesKey awaiting) (string : IsString lexeme) :
    IsBusy ⟨.object members :: frames, awaiting, lexeme, none⟩
  | done (j : Json) : IsBusy ⟨[], .commaOrClose, .none, some j⟩

variable {r next : Reader} {c : Char} {text : List Char} {frames : List Frame} {frame : Frame}
  {awaiting : Awaiting} {lexeme : Lexeme} {j : Json}

theorem IsPlace.isBusy_deliver (place : IsPlace frames) (nested : IsNested frames) :
    IsBusy (Reader.deliver ⟨frames, awaiting, lexeme, none⟩ j) := by
  cases place with
  | outside => exact .done j
  | array items frames =>
    cases nested with
    | cons _ place nested => exact .inside (.afterItem ..) (.cons _ place nested) nofun
  | member members key frames =>
    cases nested with
    | cons _ place nested => exact .inside (.afterMember ..) (.cons _ place nested) nofun

theorem Fits.isPlace (fits : Fits frames awaiting) (takes : TakesValue awaiting) :
    IsPlace frames := by
  cases fits with
  | value place => exact place
  | itemOrClose items frames => exact .array items frames
  | key members frames takesKey => cases takesKey <;> cases takes
  | colon | afterItem | afterMember => cases takes

theorem takesValue_of_canStart (starts : Reader.canStart ⟨frames, awaiting, lexeme, none⟩ = true) :
    TakesValue awaiting := by
  cases awaiting with
  | value => exact .value
  | itemOrClose => exact .itemOrClose
  | keyOrClose | key | colon | commaOrClose => cases starts

theorem takesKey_of_canStartKey
    (starts : Reader.canStartKey ⟨frames, awaiting, lexeme, none⟩ = true) : TakesKey awaiting := by
  cases awaiting with
  | keyOrClose => exact .keyOrClose
  | key => exact .key
  | value | itemOrClose | colon | commaOrClose => cases starts

/-! ## Between strings, numbers and words -/

section Between

variable (fits : Fits frames awaiting) (nested : IsNested frames)

include fits nested

theorem isBusy_begin (made : Reader.begin ⟨frames, awaiting, .none, none⟩ lexeme = some next)
    (scalar : IsScalar lexeme) : IsBusy next := by
  rw [begin] at made
  split at made
  · next starts =>
    cases made
    have takes := takesValue_of_canStart starts
    exact .value (fits.isPlace takes) nested takes scalar
  · cases made

theorem isBusy_openFrame {opened : Awaiting} (inner : Fits (frame :: frames) opened)
    (made : Reader.openFrame ⟨frames, awaiting, .none, none⟩ frame opened = some next) :
    IsBusy next := by
  rw [openFrame] at made
  split at made
  · next starts =>
    cases made
    have place := fits.isPlace (takesValue_of_canStart starts)
    exact .inside inner (.cons frame place nested) nofun
  · cases made

theorem isBusy_closeArray
    (made : Reader.closeArray ⟨frames, awaiting, .none, none⟩ = some next) : IsBusy next := by
  cases fits with
  | itemOrClose items frames | afterItem items frames =>
    cases made
    cases nested with
    | cons _ place nested => exact place.isBusy_deliver nested
  | key members frames takes => cases takes <;> cases made
  | value | colon | afterMember => cases made

theorem isBusy_closeObject
    (made : Reader.closeObject ⟨frames, awaiting, .none, none⟩ = some next) : IsBusy next := by
  cases fits with
  | key members frames takes =>
    cases takes with
    | keyOrClose =>
      cases made
      cases nested with
      | cons _ place nested => exact place.isBusy_deliver nested
    | key => cases made
  | afterMember members frames =>
    cases made
    cases nested with
    | cons _ place nested => exact place.isBusy_deliver nested
  | value | itemOrClose | colon | afterItem => cases made

theorem isBusy_comma
    (made : Reader.comma ⟨frames, awaiting, .none, none⟩ = some next) : IsBusy next := by
  cases fits with
  | afterItem items frames =>
    cases made
    exact .inside (.value (.array items frames)) nested nofun
  | afterMember members frames =>
    cases made
    exact .inside (.key members frames .key) nested nofun
  | key members frames takes => cases takes <;> cases made
  | value | itemOrClose | colon => cases made

theorem isBusy_colon
    (made : Reader.colon ⟨frames, awaiting, .none, none⟩ = some next) : IsBusy next := by
  cases fits with
  | colon members key frames =>
    cases made
    exact .inside (.value (.member _ _ _)) nested nofun
  | key members frames takes => cases takes <;> cases made
  | value | itemOrClose | afterItem | afterMember => cases made

theorem isBusy_key (takes : TakesKey awaiting) (string : IsString lexeme) :
    IsBusy ⟨frames, awaiting, lexeme, none⟩ := by
  cases fits with
  | key members frames => exact .key members nested takes string
  | value | itemOrClose | colon | afterItem | afterMember => cases takes

/-- The blanks that may stand between the parts of a document. -/
def isSpace (c : Char) : Bool :=
  c == ' ' || c == '\t' || c == '\n' || c == '\r'

/-- Outside of strings, numbers and words, whatever is no blank makes a reader busy. -/
theorem isBusy_between (filled : isSpace c = false)
    (made : Reader.between ⟨frames, awaiting, .none, none⟩ c = some next) : IsBusy next := by
  unfold between at made
  split at made
  · cases filled
  · cases filled
  · cases filled
  · cases filled
  · exact isBusy_openFrame fits nested (.itemOrClose _ _) made
  · exact isBusy_closeArray fits nested made
  · exact isBusy_openFrame fits nested (.key _ _ .keyOrClose) made
  · exact isBusy_closeObject fits nested made
  · exact isBusy_comma fits nested made
  · exact isBusy_colon fits nested made
  · split at made
    · next starts =>
      cases made
      exact isBusy_key fits nested (takesKey_of_canStartKey starts) trivial
    · exact isBusy_begin fits nested made trivial
  · exact isBusy_begin fits nested made (show '{' ∉ ['r', 'u', 'e'] by decide)
  · exact isBusy_begin fits nested made (show '{' ∉ ['a', 'l', 's', 'e'] by decide)
  · exact isBusy_begin fits nested made (show '{' ∉ ['u', 'l', 'l'] by decide)
  · split at made
    · exact isBusy_begin fits nested made trivial
    · cases made

end Between

theorem between_space (space : isSpace c = true) : r.between c = some r := by
  simp only [isSpace, Bool.or_eq_true, beq_iff_eq] at space
  rcases space with ((rfl | rfl) | rfl) | rfl
  all_goals rfl

/-- A document that has been read is followed by blanks only. -/
theorem between_done (filled : isSpace c = false) :
    Reader.between ⟨[], .commaOrClose, .none, some j⟩ c = none := by
  unfold between
  split
  all_goals first
    | rfl
    | cases filled
    | split <;> rfl

theorem IsBusy.between (busy : IsBusy r) (nothing : r.lexeme = .none)
    (made : r.between c = some next) : IsBusy next := by
  cases filled : isSpace c with
  | true =>
    rw [between_space filled] at made
    cases made
    exact busy
  | false =>
    cases busy with
    | inside fits nested => exact isBusy_between fits nested filled made
    | value place nested takes scalar =>
      subst nothing
      cases scalar
    | key members nested takes string =>
      subst nothing
      cases string
    | done j =>
      rw [between_done filled] at made
      cases made

/-! ## Any step -/

/-- A string goes on, or it is closed. -/
theorem step_string (string : IsString lexeme)
    (made : Reader.step ⟨frames, awaiting, lexeme, none⟩ c = some next) :
    (∃ goesOn, IsString goesOn ∧ next = ⟨frames, awaiting, goesOn, none⟩) ∨
      ∃ l, next = Reader.closeLiteral ⟨frames, awaiting, lexeme, none⟩ l := by
  cases lexeme with
  | none | numeral | word => cases string
  | literal l =>
    rw [step] at made
    simp only at made
    split at made
    · cases made
      exact .inr ⟨l, rfl⟩
    split at made
    · cases made
      exact .inl ⟨.escape l, trivial, rfl⟩
    split at made
    · cases made
    · cases made
      exact .inl ⟨.literal (l.push c), trivial, rfl⟩
  | escape l =>
    rw [step] at made
    simp only at made
    split at made
    · cases made
      exact .inl ⟨.unit l 4 0, trivial, rfl⟩
    · obtain ⟨e, -, rfl⟩ := Option.map_eq_some_iff.mp made
      exact .inl ⟨.literal (l.push e), trivial, rfl⟩
  | unit l left value =>
    obtain ⟨d, -, rfl⟩ := Option.map_eq_some_iff.mp made
    refine .inl ?_
    split
    · exact ⟨.literal _, trivial, rfl⟩
    · exact ⟨.unit _ _ _, trivial, rfl⟩

theorem IsString.isScalar (string : IsString lexeme) : IsScalar lexeme := by
  cases lexeme with
  | literal | escape | unit => trivial
  | none | numeral | word => cases string

theorem closeLiteral_value (takes : TakesValue awaiting) (l : Literal) :
    Reader.closeLiteral ⟨frames, awaiting, lexeme, none⟩ l =
      Reader.deliver ⟨frames, awaiting, lexeme, none⟩ (.string l.close) := by
  cases takes <;> rfl

theorem closeLiteral_key {members : List (Option String × Json)} (takes : TakesKey awaiting)
    (l : Literal) : Reader.closeLiteral ⟨.object members :: frames, awaiting, lexeme, none⟩ l =
      ⟨.member members l.close :: frames, .colon, .none, none⟩ := by
  cases takes <;> rfl

theorem IsBusy.step (busy : IsBusy r) (made : r.step c = some next) : IsBusy next := by
  cases busy with
  | inside fits nested opened =>
    rw [step_eq_between rfl] at made
    exact IsBusy.between (.inside fits nested opened) rfl made
  | done j =>
    rw [step_eq_between rfl] at made
    exact IsBusy.between (.done j) rfl made
  | key members nested takes string =>
    rcases step_string string made with ⟨goesOn, string, rfl⟩ | ⟨l, rfl⟩
    · exact .key members nested takes string
    · rw [closeLiteral_key takes]
      cases nested with
      | cons _ place nested => exact .inside (.colon ..) (.cons _ place nested) nofun
  | @value frames awaiting lexeme place nested takes scalar =>
    have string : IsString lexeme → IsBusy next := by
      intro string
      rcases step_string string made with ⟨goesOn, string, rfl⟩ | ⟨l, rfl⟩
      · exact .value place nested takes string.isScalar
      · rw [closeLiteral_value takes]
        exact place.isBusy_deliver nested
    cases lexeme with
    | none => cases scalar
    | literal | escape | unit => exact string trivial
    | numeral chars =>
      rw [Reader.step] at made
      simp only at made
      split at made
      · cases made
        exact .value place nested takes trivial
      · obtain ⟨n, -, made⟩ := Option.bind_eq_some_iff.mp made
        exact (place.isBusy_deliver nested).between (by cases place <;> rfl) made
    | word letters value =>
      rw [Reader.step] at made
      simp only at made
      split at made
      · cases made
      · split at made
        · cases made
          exact place.isBusy_deliver nested
        · cases made
      · split at made
        · cases made
          exact .value place nested takes (fun among => scalar (List.mem_cons_of_mem _ among))
        · cases made

theorem IsBusy.foldlM (busy : IsBusy r) (made : text.foldlM Reader.step r = some next) :
    IsBusy next := by
  induction text generalizing r with
  | nil =>
    cases made
    exact busy
  | cons c text ih =>
    rw [List.foldlM_cons] at made
    obtain ⟨between, first, later⟩ := Option.bind_eq_some_iff.mp made
    exact ih (busy.step first) later

/-- A reader that has met more than blanks is busy. -/
theorem isBusy_of_remnant (made : text.foldlM Reader.step start = some next)
    (filled : ∃ c ∈ text, isSpace c = false) : IsBusy next := by
  induction text with
  | nil =>
    obtain ⟨c, among, -⟩ := filled
    cases among
  | cons c text ih =>
    rw [List.foldlM_cons] at made
    obtain ⟨between, first, later⟩ := Option.bind_eq_some_iff.mp made
    rw [step_eq_between rfl] at first
    cases known : isSpace c with
    | false => exact (isBusy_between (.value .outside) .nil known first).foldlM later
    | true =>
      rw [between_space known] at first
      cases first
      obtain ⟨c', among, filled⟩ := filled
      rcases List.mem_cons.mp among with rfl | among
      · rw [known] at filled
        cases filled
      · exact ih later ⟨c', among, filled⟩

/-! ## An object that comes too late -/

theorem run?_eq_none (failed : r.step c = none) : r.run? (c :: text) = none := by
  rw [run?, List.foldlM_cons, failed]
  rfl

theorem step_word_deliver (place : IsPlace frames) :
    (Reader.deliver ⟨frames, awaiting, lexeme, none⟩ j).step 't' = none := by
  cases place <;> rfl

theorem between_brace_deliver (place : IsPlace frames) :
    (Reader.deliver ⟨frames, awaiting, lexeme, none⟩ j).between '{' = none := by
  cases place <;> rfl

/-- The beginning of an object closes a string that has begun, and cannot go on then. -/
theorem run?_string (string : IsString lexeme)
    (closed : ∀ (inner : Lexeme) (l : Literal),
      (Reader.closeLiteral ⟨frames, awaiting, inner, none⟩ l).step 't' = none) :
    Reader.run? ⟨frames, awaiting, lexeme, none⟩ ('{' :: '"' :: 't' :: text) = none := by
  cases lexeme with
  | none | numeral | word => cases string
  | literal l =>
    have brace : Reader.step ⟨frames, awaiting, .literal l, none⟩ '{' =
        some ⟨frames, awaiting, .literal (l.push '{'), none⟩ := rfl
    have quote : Reader.step ⟨frames, awaiting, .literal (l.push '{'), none⟩ '"' =
        some (Reader.closeLiteral ⟨frames, awaiting, .literal (l.push '{'), none⟩ (l.push '{')) :=
      rfl
    rw [run?_cons brace, run?_cons quote]
    exact run?_eq_none (closed _ _)
  | escape l => exact run?_eq_none rfl
  | unit l left value => exact run?_eq_none rfl

/-- A busy reader comes to no document by an object with a key that begins with a letter. -/
theorem IsBusy.run?_object (busy : IsBusy r) (reads : Reads ('{' :: '"' :: 't' :: text) j) :
    r.run? ('{' :: '"' :: 't' :: text) = none := by
  cases busy with
  | done => exact run?_eq_none rfl
  | @inside frames awaiting fits nested opened =>
    by_cases takes : TakesValue awaiting
    · have read := reads frames awaiting [] (fits.isPlace takes) takes nofun
      rw [List.append_nil] at read
      refine read.trans ?_
      cases fits.isPlace takes with
      | outside => exact absurd rfl opened
      | array | member => rfl
    · refine run?_eq_none ?_
      cases awaiting with
      | value => exact absurd .value takes
      | itemOrClose => exact absurd .itemOrClose takes
      | keyOrClose | key | colon | commaOrClose => rfl
  | key members nested takes string =>
    refine run?_string string fun inner l => ?_
    rw [closeLiteral_key takes]
    rfl
  | @value frames awaiting lexeme place nested takes scalar =>
    have string : IsString lexeme → Reader.run? ⟨frames, awaiting, lexeme, none⟩
        ('{' :: '"' :: 't' :: text) = none := by
      intro string
      refine run?_string string fun inner l => ?_
      rw [closeLiteral_value takes]
      exact step_word_deliver place
    cases lexeme with
    | none => cases scalar
    | literal | escape | unit => exact string trivial
    | numeral chars =>
      refine run?_eq_none ?_
      cases written : Numeral.parse? chars.reverse with
      | none => simp [Reader.step, Numeral.isPart, written]
      | some n => simp [Reader.step, Numeral.isPart, written, between_brace_deliver place]
    | word letters value =>
      refine run?_eq_none ?_
      cases letters with
      | nil => rfl
      | cons letter letters =>
        have other : ('{' == letter) = false :=
          beq_false_of_ne fun same => scalar (same ▸ List.mem_cons_self ..)
        cases letters <;> simp [Reader.step, other]

end Reader

open Reader

variable {c : Char} {text rest : List Char} {j : Json}

theorem read?_append (text rest : List Char) :
    read? (text ++ rest) = (text.foldlM Reader.step start).bind fun r => r.run? rest := by
  rw [read?, List.foldlM_append]
  cases text.foldlM Reader.step start <;> rfl

/-- Blanks before a document are passed over. -/
theorem read?_spaces (blank : ∀ c ∈ text, isSpace c = true) (rest : List Char) :
    read? (text ++ rest) = read? rest := by
  induction text with
  | nil => rfl
  | cons c text ih =>
    obtain ⟨here, later⟩ := List.forall_mem_cons.mp blank
    have passed : start.step c = some start := by
      rw [step_eq_between rfl, between_space here]
    exact (run?_cons passed).trans (ih later)

/-- An object behind more than blanks is lost, and so is what it stands behind. -/
theorem read?_remnant (filled : ∃ c ∈ text, isSpace c = false)
    (reads : Reads ('{' :: '"' :: 't' :: rest) j) :
    read? (text ++ '{' :: '"' :: 't' :: rest) = none := by
  rw [read?_append]
  cases made : text.foldlM Reader.step start with
  | none => rfl
  | some r => exact (isBusy_of_remnant made filled).run?_object reads

end ChassisCooling.Json
