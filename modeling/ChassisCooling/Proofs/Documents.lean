import ChassisCooling.Json.Writer
import ChassisCooling.Json.Reader
import ChassisCooling.Proofs.Numerals

/-! # Documents on one line

A document written on one line is read back as it is. The statement about a value says what becomes
of the text behind it: the reader goes on there as if the value had just been delivered, provided
that the text behind a number cannot go on with it. So it composes, and the parts of a container are
read one after another.
-/

namespace ChassisCooling.Json

/-- A document made of texts and of numbers of a form. -/
inductive IsMadeOf (form : Numeral → Prop) : Json → Prop
  | null : IsMadeOf form .null
  | bool (b : Bool) : IsMadeOf form (.bool b)
  | number {n : Numeral} (formed : form n) : IsMadeOf form (.number n)
  | string (text : String) : IsMadeOf form (.string (some text))
  | array {items : List Json} (each : ∀ item ∈ items, IsMadeOf form item) :
    IsMadeOf form (.array items)
  | object {members : List (Option String × Json)} (keys : ∀ m ∈ members, m.1.isSome = true)
    (values : ∀ m ∈ members, IsMadeOf form m.2) : IsMadeOf form (.object members)

namespace Reader

/-- What the rest of a text leads to. -/
def run? (r : Reader) (text : List Char) : Option Json :=
  (text.foldlM step r).bind finish

variable {r next : Reader} {c : Char} {text rest : List Char} {frames : List Frame}
  {awaiting : Awaiting} {lexeme : Lexeme} {j : Json}

theorem run?_cons (made : r.step c = some next) : r.run? (c :: text) = next.run? text := by
  rw [run?, List.foldlM_cons, made]
  rfl

/-- A reader between two characters outside of strings, numbers and words, inside a document. -/
def inside (frames : List Frame) (awaiting : Awaiting) : Reader :=
  ⟨frames, awaiting, .none, none⟩

/-- The innermost open container takes a value: it is no object whose next key is to come. -/
inductive IsPlace : List Frame → Prop
  | outside : IsPlace []
  | array (items : List Json) (frames : List Frame) : IsPlace (.array items :: frames)
  | member (members : List (Option String × Json)) (key : Option String) (frames : List Frame) :
    IsPlace (.member members key :: frames)

/-- A value may come next. -/
inductive TakesValue : Awaiting → Prop
  | value : TakesValue .value
  | itemOrClose : TakesValue .itemOrClose

/-- The reader that has just read a value. -/
def delivered (frames : List Frame) (j : Json) : Reader :=
  (inside frames .value).deliver j

theorem deliver_eq (place : IsPlace frames) :
    Reader.deliver ⟨frames, awaiting, lexeme, none⟩ j = delivered frames j := by
  cases place <;> rfl

theorem lexeme_delivered (place : IsPlace frames) : (delivered frames j).lexeme = .none := by
  cases place <;> rfl

theorem step_eq_between (nothing : r.lexeme = .none) : r.step c = r.between c := by
  rw [step, nothing]

theorem begin_inside (takes : TakesValue awaiting) :
    (inside frames awaiting).begin lexeme = some ⟨frames, awaiting, lexeme, none⟩ := by
  cases takes <;> rfl

end Reader

/-- What comes next cannot go on with a number. -/
def EndsNumber (rest : List Char) : Prop :=
  ∀ c ∈ rest.head?, Numeral.isPart c = false

/-- A text is read as a value wherever a value may stand. -/
def Reads (text : List Char) (j : Json) : Prop :=
  ∀ (frames : List Frame) (awaiting : Awaiting) (rest : List Char), Reader.IsPlace frames →
    Reader.TakesValue awaiting → EndsNumber rest →
    (Reader.inside frames awaiting).run? (text ++ rest) = (Reader.delivered frames j).run? rest

open Reader

variable {c : Char} {text rest : List Char} {frames : List Frame} {awaiting : Awaiting} {j : Json}

/-! ## Words -/

theorem run?_word (place : IsPlace frames) {letters : List Char} (filled : letters ≠ []) :
    Reader.run? ⟨frames, awaiting, .word letters j, none⟩ (letters ++ rest) =
      (delivered frames j).run? rest := by
  induction letters with
  | nil => exact absurd rfl filled
  | cons c letters ih =>
    cases letters with
    | nil =>
      rw [List.singleton_append, ← deliver_eq place]
      exact run?_cons (by rw [step]; exact if_pos (beq_self_eq_true c))
    | cons c' letters =>
      rw [List.cons_append, ← ih nofun]
      exact run?_cons (by rw [step]; exact if_pos (beq_self_eq_true c))

theorem reads_word {letters : List Char} (filled : letters ≠ [])
    (begins : ∀ r : Reader, r.between c = r.begin (.word letters j)) : Reads (c :: letters) j := by
  intro frames awaiting rest place takes ended
  have made : (inside frames awaiting).step c = some ⟨frames, awaiting, .word letters j, none⟩ := by
    rw [step_eq_between rfl, begins, begin_inside takes]
  rw [List.cons_append, run?_cons made, run?_word place filled]

theorem reads_null : Reads nullText .null :=
  reads_word nofun fun _ => rfl

theorem reads_bool (b : Bool) : Reads (boolText b) (.bool b) := by
  cases b with
  | false => exact reads_word nofun fun _ => rfl
  | true => exact reads_word nofun fun _ => rfl

/-! ## Numbers -/

theorem run?_numeral {parts chars : List Char} (all : ∀ c ∈ parts, Numeral.isPart c = true) :
    Reader.run? ⟨frames, awaiting, .numeral chars, none⟩ (parts ++ rest) =
      Reader.run? ⟨frames, awaiting, .numeral (parts.reverse ++ chars), none⟩ rest := by
  induction parts generalizing chars with
  | nil => rfl
  | cons c parts ih =>
    obtain ⟨part, all⟩ := List.forall_mem_cons.mp all
    rw [List.cons_append, run?_cons (by rw [step]; exact if_pos part), ih all, List.reverse_cons,
      List.append_assoc]
    rfl

theorem run?_numeral_end {n : Numeral} (place : IsPlace frames) (written : n.IsWritten)
    (ended : EndsNumber rest) :
    Reader.run? ⟨frames, awaiting, .numeral n.text.reverse, none⟩ rest =
      (delivered frames (.number n)).run? rest := by
  have parsed : Numeral.parse? n.text.reverse.reverse = some n := by
    rw [List.reverse_reverse, Numeral.parse?_text written]
  cases rest with
  | nil =>
    cases place with
    | outside =>
      change (Numeral.parse? n.text.reverse.reverse).map Json.number = _
      rw [parsed]
      rfl
    | array | member => rfl
  | cons c rest =>
    have stop : Numeral.isPart c = false := ended c rfl
    have same : Reader.step ⟨frames, awaiting, .numeral n.text.reverse, none⟩ c =
        (delivered frames (.number n)).step c := by
      rw [step_eq_between (lexeme_delivered place), step]
      simp only [stop, Bool.false_eq_true, ↓reduceIte, parsed, Option.bind_some, deliver_eq place]
    rw [run?, run?, List.foldlM_cons, List.foldlM_cons, same]

/-- A digit or a minus sign begins a number. -/
theorem between_numeral (r : Reader) (first : c.isDigit = true ∨ c = '-') :
    r.between c = r.begin (.numeral [c]) := by
  have numeral : (c.isDigit || c == '-') = true := by
    rw [Bool.or_eq_true, beq_iff_eq]
    exact first
  rw [between, if_pos numeral]
  all_goals
    rintro rfl
    cases numeral

theorem reads_number {n : Numeral} (written : n.IsWritten) : Reads n.text (.number n) := by
  intro frames awaiting rest place takes ended
  obtain ⟨c, parts, same, first⟩ := Numeral.exists_cons_of_text written
  have made : (inside frames awaiting).step c = some ⟨frames, awaiting, .numeral [c], none⟩ := by
    rw [step_eq_between rfl, between_numeral _ first, begin_inside takes]
  have all : ∀ c ∈ parts, Numeral.isPart c = true := by
    intro c member
    refine written.isPart ?_
    rw [same]
    exact List.mem_cons_of_mem _ member
  rw [same, List.cons_append, run?_cons made, run?_numeral all, ← List.reverse_cons, ← same,
    run?_numeral_end place written ended]

/-! ## Strings -/

/-- A string literal in which characters stand, newest first. -/
def literal (chars : List Char) : Literal :=
  ⟨chars, none, false⟩

theorem close_literal (chars : List Char) :
    (literal chars).close = some (String.ofList chars.reverse) :=
  rfl

theorem hexDigit?_digitChar {d : Nat} (digit : d < 16) : hexDigit? d.digitChar = some d := by
  have all : ∀ d : Fin 16, hexDigit? d.val.digitChar = some d.val := by decide
  exact all ⟨d, digit⟩

/-- The reader in a string literal. -/
def inLiteral (frames : List Frame) (awaiting : Awaiting) (l : Literal) : Reader :=
  ⟨frames, awaiting, .literal l, none⟩

/-- Four hexadecimal digits after a backslash stand for the character below U+0020 that they
number. -/
theorem run?_control {chars : List Char} (control : c.toNat < 0x20) :
    (inLiteral frames awaiting (literal chars)).run?
        ('\\' :: 'u' :: '0' :: '0' :: hexPair c.toNat ++ rest) =
      (inLiteral frames awaiting (literal (c :: chars))).run? rest := by
  have upper := hexDigit?_digitChar (d := c.toNat / 16 % 16) (by omega)
  have lower := hexDigit?_digitChar (d := c.toNat % 16) (by omega)
  have value : c.toNat / 16 % 16 * 16 + c.toNat % 16 = c.toNat := by omega
  have pushed : (literal chars).pushUnit c.toNat = literal (c :: chars) := by
    rw [Literal.pushUnit, if_neg (by omega), if_neg (by omega), Char.ofNat_toNat]
    rfl
  have second : Reader.step ⟨frames, awaiting, .unit (literal chars) 2 0, none⟩
      (c.toNat / 16 % 16).digitChar =
        some ⟨frames, awaiting, .unit (literal chars) 1 (c.toNat / 16 % 16), none⟩ := by
    simp only [step, upper, Option.map_some, Nat.zero_mul, Nat.zero_add]
    rfl
  have last : Reader.step ⟨frames, awaiting, .unit (literal chars) 1 (c.toNat / 16 % 16), none⟩
      (c.toNat % 16).digitChar = some (inLiteral frames awaiting (literal (c :: chars))) := by
    simp only [step, lower, Option.map_some, value, pushed]
    rfl
  calc (inLiteral frames awaiting (literal chars)).run?
        ('\\' :: 'u' :: '0' :: '0' :: hexPair c.toNat ++ rest)
    _ = Reader.run? ⟨frames, awaiting, .unit (literal chars) 2 0, none⟩
          (hexPair c.toNat ++ rest) := rfl
    _ = _ := run?_cons second
    _ = _ := run?_cons last

/-- An escaped character is read as the character. -/
theorem run?_escape {chars : List Char} :
    (inLiteral frames awaiting (literal chars)).run? (escape c ++ rest) =
      (inLiteral frames awaiting (literal (c :: chars))).run? rest := by
  unfold escape
  split
  case h_8 _ quote backslash _ _ _ _ _ =>
    split
    · next control => exact run?_control control
    · next plain =>
      refine run?_cons ?_
      simp only [inLiteral, step, beq_eq_false_iff_ne.mpr quote,
        beq_eq_false_iff_ne.mpr backslash, plain, Bool.false_eq_true, ↓reduceIte]
      rfl
  all_goals rfl

theorem run?_escapes {text chars : List Char} :
    (inLiteral frames awaiting (literal chars)).run? (text.flatMap escape ++ rest) =
      (inLiteral frames awaiting (literal (text.reverse ++ chars))).run? rest := by
  induction text generalizing chars with
  | nil => rfl
  | cons c text ih =>
    rw [List.flatMap_cons, List.append_assoc, run?_escape, ih, List.reverse_cons, List.append_assoc]
    rfl

/-- A string literal is read up to its end, whatever it is read for. -/
theorem run?_quote {r : Reader} {text : List Char}
    (opens : r.step '"' = some (inLiteral frames awaiting (literal []))) :
    r.run? (quote text ++ rest) = Reader.run?
      ((inLiteral frames awaiting (literal text.reverse)).closeLiteral (literal text.reverse))
      rest := by
  rw [quote, List.cons_append, List.cons_append, List.append_assoc, run?_cons opens, run?_escapes,
    List.append_nil]
  exact run?_cons rfl

theorem reads_string (text : String) : Reads (quoteText (some text)) (.string (some text)) := by
  intro frames awaiting rest place takes ended
  have opens : (inside frames awaiting).step '"' =
      some (inLiteral frames awaiting (literal [])) := by
    cases takes <;> rfl
  have closed : (inLiteral frames awaiting (literal text.toList.reverse)).closeLiteral
      (literal text.toList.reverse) = delivered frames (.string (some text)) := by
    have plain : Reader.canStartKey (inLiteral frames awaiting (literal text.toList.reverse)) =
        false := by
      cases takes <;> rfl
    rw [closeLiteral, if_neg (Bool.eq_false_iff.mp plain), inLiteral, deliver_eq place,
      close_literal, List.reverse_reverse, String.ofList_toList]
  rw [quoteText, Option.getD_some, run?_quote opens, closed]

/-! ## Arrays -/

/-- The items of an array that are left, and its end. -/
theorem run?_items {item : Json} {items done : List Json} (place : IsPlace frames)
    (takes : TakesValue awaiting) (each : ∀ i ∈ item :: items, Reads (compact i) i) :
    (inside (.array done :: frames) awaiting).run? (compactItems (item :: items) ++ ']' :: rest) =
      (delivered frames (.array (done.reverse ++ item :: items))).run? rest := by
  induction items generalizing item done awaiting with
  | nil =>
    have first := each item (List.mem_cons_self ..)
    rw [compactItems, first _ _ _ (.array done frames) takes (by rintro c ⟨⟩; rfl),
      ← List.reverse_cons, ← deliver_eq place]
    exact run?_cons rfl
  | cons next items ih =>
    have first := each item (List.mem_cons_self ..)
    have comma : (delivered (.array done :: frames) item).step ',' =
        some (inside (.array (item :: done) :: frames) .value) := rfl
    have split : compactItems (item :: next :: items) =
        compact item ++ ',' :: compactItems (next :: items) := by
      rw [compactItems]
      nofun
    rw [split, List.append_assoc, first _ _ _ (.array done frames) takes (by rintro c ⟨⟩; rfl),
      List.cons_append, run?_cons comma,
      ih .value fun i member => each i (List.mem_cons_of_mem _ member), List.reverse_cons,
      List.append_assoc, List.singleton_append]

theorem reads_array {items : List Json} (each : ∀ i ∈ items, Reads (compact i) i) :
    Reads (compact (.array items)) (.array items) := by
  intro frames awaiting rest place takes ended
  have opens : (inside frames awaiting).step '[' =
      some (inside (.array [] :: frames) .itemOrClose) := by
    cases takes <;> rfl
  rw [compact, List.cons_append, List.cons_append, List.append_assoc, run?_cons opens]
  cases items with
  | nil =>
    rw [← deliver_eq place]
    exact run?_cons rfl
  | cons item items => exact run?_items place .itemOrClose each

/-! ## Objects -/

/-- A key of an object, and the colon after it. -/
theorem run?_key {done : List (Option String × Json)} (key : String)
    (takes : awaiting = .key ∨ awaiting = .keyOrClose) :
    (inside (.object done :: frames) awaiting).run? (quoteText (some key) ++ ':' :: rest) =
      (inside (.member done (some key) :: frames) .value).run? rest := by
  have opens : (inside (.object done :: frames) awaiting).step '"' =
      some (inLiteral (.object done :: frames) awaiting (literal [])) := by
    rcases takes with rfl | rfl <;> rfl
  have isKey : Reader.canStartKey (inLiteral (.object done :: frames) awaiting
      (literal key.toList.reverse)) = true := by
    rcases takes with rfl | rfl <;> rfl
  have text : (literal key.toList.reverse).close = some key := by
    rw [close_literal, List.reverse_reverse, String.ofList_toList]
  have closed : (inLiteral (.object done :: frames) awaiting
      (literal key.toList.reverse)).closeLiteral (literal key.toList.reverse) =
        inside (.member done (some key) :: frames) .colon := by
    rw [closeLiteral, if_pos isKey, text]
    rfl
  rw [quoteText, Option.getD_some, run?_quote opens, closed]
  exact run?_cons rfl

/-- A member of an object is read where a key may come next. -/
theorem run?_member {done : List (Option String × Json)} {key : Option String} {value : Json}
    (takes : awaiting = .key ∨ awaiting = .keyOrClose) (named : key.isSome = true)
    (reads : Reads (compact value) value) (ended : EndsNumber rest) :
    (inside (.object done :: frames) awaiting).run?
        (quoteText key ++ ':' :: compact value ++ rest) =
      (inside (.object ((key, value) :: done) :: frames) .commaOrClose).run? rest := by
  obtain ⟨key, rfl⟩ := Option.isSome_iff_exists.mp named
  rw [List.append_assoc, List.cons_append, run?_key key takes,
    reads _ _ _ (.member done _ frames) .value ended]
  rfl

/-- The members of an object that are left, and its end. -/
theorem run?_members {member : Option String × Json} {members done : List (Option String × Json)}
    (place : IsPlace frames) (takes : awaiting = .key ∨ awaiting = .keyOrClose)
    (named : ∀ m ∈ member :: members, m.1.isSome = true)
    (each : ∀ m ∈ member :: members, Reads (compact m.2) m.2) :
    (inside (.object done :: frames) awaiting).run?
        (compactMembers (member :: members) ++ '}' :: rest) =
      (delivered frames (.object (done.reverse ++ member :: members))).run? rest := by
  obtain ⟨key, value⟩ := member
  induction members generalizing key value done awaiting with
  | nil =>
    have first := each (key, value) (List.mem_cons_self ..)
    rw [compactMembers, run?_member takes (named _ (List.mem_cons_self ..)) first
      (by rintro c ⟨⟩; rfl), ← List.reverse_cons, ← deliver_eq place]
    exact run?_cons rfl
  | cons next members ih =>
    obtain ⟨key', value'⟩ := next
    have first := each (key, value) (List.mem_cons_self ..)
    have split : compactMembers ((key, value) :: (key', value') :: members) =
        quoteText key ++ ':' :: compact value ++
          ',' :: compactMembers ((key', value') :: members) := by
      rw [compactMembers]
      nofun
    have comma : (inside (.object ((key, value) :: done) :: frames) .commaOrClose).step ',' =
        some (inside (.object ((key, value) :: done) :: frames) .key) := rfl
    rw [split, List.append_assoc, run?_member takes (named _ (List.mem_cons_self ..)) first
      (by rintro c ⟨⟩; rfl), List.cons_append, run?_cons comma,
      ih (.inl rfl) _ _ (fun m member => named m (List.mem_cons_of_mem _ member))
        fun m member => each m (List.mem_cons_of_mem _ member), List.reverse_cons,
      List.append_assoc, List.singleton_append]

theorem reads_object {members : List (Option String × Json)}
    (named : ∀ m ∈ members, m.1.isSome = true) (each : ∀ m ∈ members, Reads (compact m.2) m.2) :
    Reads (compact (.object members)) (.object members) := by
  intro frames awaiting rest place takes ended
  have opens : (inside frames awaiting).step '{' =
      some (inside (.object [] :: frames) .keyOrClose) := by
    cases takes <;> rfl
  rw [compact, List.cons_append, List.cons_append, List.append_assoc, run?_cons opens]
  cases members with
  | nil =>
    rw [← deliver_eq place]
    exact run?_cons rfl
  | cons member members => exact run?_members place (.inr rfl) named each

/-! ## Documents -/

/-- Wherever a value may stand, the line of a document is read as the document. -/
theorem reads_compact (made : j.IsMadeOf Numeral.IsWritten) : Reads (compact j) j := by
  induction made with
  | null => exact reads_null
  | bool b => exact reads_bool b
  | number written => exact reads_number written
  | string text => exact reads_string text
  | array _ ih => exact reads_array ih
  | object named _ ih => exact reads_object named ih

/-- The line of a document is read as the document. -/
theorem read?_compact (made : j.IsMadeOf Numeral.IsWritten) : read? (compact j) = some j := by
  have read := reads_compact made [] .value [] .outside .value nofun
  rwa [List.append_nil] at read

/-- So it is with the end of the line behind it. -/
theorem read?_compact_lineFeed (made : j.IsMadeOf Numeral.IsWritten) :
    read? (compact j ++ ['\n']) = some j := by
  have ended : EndsNumber ['\n'] := by
    rintro c ⟨⟩
    rfl
  exact reads_compact made [] .value ['\n'] .outside .value ended

/-! ## No line feed inside -/

theorem lineFeed_not_mem_escape (c : Char) : '\n' ∉ escape c := by
  unfold escape
  split
  case h_8 _ _ _ _ _ lineFeed _ _ =>
    split
    · next control =>
      have digit : ∀ d : Fin 16, '\n' ≠ d.val.digitChar := by decide
      have upper := digit ⟨c.toNat / 16 % 16, by omega⟩
      have lower := digit ⟨c.toNat % 16, by omega⟩
      simp only [hexPair, List.mem_cons, List.not_mem_nil, or_false, upper, lower]
      decide
    · exact fun member => lineFeed (List.mem_singleton.mp member).symm
  all_goals decide

theorem lineFeed_not_mem_quote (text : List Char) : '\n' ∉ quote text := by
  intro member
  rw [quote, List.mem_append, List.mem_cons, List.mem_flatMap, List.mem_singleton] at member
  obtain (opened | ⟨c, -, escaped⟩) | closed := member
  · cases opened
  · exact lineFeed_not_mem_escape c escaped
  · cases closed

/-- What is written between commas. -/
theorem exists_of_mem_compactItems {items : List Json} (member : c ∈ compactItems items) :
    c = ',' ∨ ∃ item ∈ items, c ∈ compact item := by
  induction items with
  | nil => cases member
  | cons item items ih =>
    cases items with
    | nil => exact .inr ⟨item, List.mem_cons_self .., member⟩
    | cons next items =>
      rw [compactItems, List.mem_append, List.mem_cons] at member
      · obtain first | comma | later := member
        · exact .inr ⟨item, List.mem_cons_self .., first⟩
        · exact .inl comma
        · exact (ih later).imp_right fun ⟨i, among, inside⟩ =>
            ⟨i, List.mem_cons_of_mem _ among, inside⟩
      · nofun

theorem exists_of_mem_compactMembers {members : List (Option String × Json)}
    (member : c ∈ compactMembers members) :
    c = ',' ∨ c = ':' ∨ ∃ m ∈ members, c ∈ quoteText m.1 ∨ c ∈ compact m.2 := by
  induction members with
  | nil => cases member
  | cons m members ih =>
    obtain ⟨key, value⟩ := m
    have here : c ∈ quoteText key ++ ':' :: compact value →
        c = ',' ∨ c = ':' ∨ ∃ m ∈ (key, value) :: members, c ∈ quoteText m.1 ∨ c ∈ compact m.2 := by
      intro member
      rw [List.mem_append, List.mem_cons] at member
      obtain name | colon | inside := member
      · exact .inr (.inr ⟨_, List.mem_cons_self .., .inl name⟩)
      · exact .inr (.inl colon)
      · exact .inr (.inr ⟨_, List.mem_cons_self .., .inr inside⟩)
    cases members with
    | nil => exact here member
    | cons next members =>
      rw [compactMembers, List.mem_append, List.mem_cons] at member
      · obtain first | comma | later := member
        · exact here first
        · exact .inl comma
        · exact (ih later).imp_right <| .imp_right fun ⟨m, among, inside⟩ =>
            ⟨m, List.mem_cons_of_mem _ among, inside⟩
      · nofun

/-- A document is written on one line. -/
theorem lineFeed_not_mem_compact (made : j.IsMadeOf Numeral.IsPlain) : '\n' ∉ compact j := by
  induction made with
  | null => decide
  | bool b => cases b <;> decide
  | number plain =>
    intro member
    cases plain.isPart member
  | string text => exact lineFeed_not_mem_quote _
  | array _ ih =>
    intro member
    rw [compact, List.mem_append, List.mem_cons, List.mem_singleton] at member
    obtain (opened | inside) | closed := member
    · cases opened
    · obtain comma | ⟨item, among, inside⟩ := exists_of_mem_compactItems inside
      · cases comma
      · exact ih item among inside
    · cases closed
  | object named _ ih =>
    intro member
    rw [compact, List.mem_append, List.mem_cons, List.mem_singleton] at member
    obtain (opened | inside) | closed := member
    · cases opened
    · obtain comma | colon | ⟨m, among, name | inside⟩ := exists_of_mem_compactMembers inside
      · cases comma
      · cases colon
      · exact lineFeed_not_mem_quote _ name
      · exact ih m among inside
    · cases closed

end ChassisCooling.Json
