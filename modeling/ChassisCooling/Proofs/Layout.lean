import ChassisCooling.Proofs.Remnants

/-! # Documents on lines of their own

A document written with each item and each member on a line of its own is read back as it is. Between
two characters outside of strings, numbers and words a reader passes over blanks, so the parts of a
container are read one after another as on one line.
-/

namespace ChassisCooling.Json

open Reader

variable {c : Char} {text rest : List Char} {frames : List Frame} {awaiting : Awaiting} {j : Json}
  {level : Nat}

/-! ## Blanks -/

theorem run?_spaces {r : Reader} (nothing : r.lexeme = .none)
    (blank : ∀ c ∈ text, isSpace c = true) (rest : List Char) :
    r.run? (text ++ rest) = r.run? rest := by
  induction text with
  | nil => rfl
  | cons c text ih =>
    obtain ⟨here, later⟩ := List.forall_mem_cons.mp blank
    have passed : r.step c = some r := by
      rw [step_eq_between nothing, between_space here]
    exact (run?_cons passed).trans (ih later)

theorem isSpace_of_mem_newline (among : c ∈ newline level) : isSpace c = true := by
  rcases List.mem_cons.mp among with rfl | blank
  · rfl
  · rw [List.eq_of_mem_replicate blank]
    rfl

/-- A new line between two characters is passed over. -/
theorem run?_newline {r : Reader} (nothing : r.lexeme = .none) (level : Nat) (rest : List Char) :
    r.run? (newline level ++ rest) = r.run? rest :=
  run?_spaces nothing (fun _ => isSpace_of_mem_newline) rest

theorem endsNumber_newline (level : Nat) (rest : List Char) :
    EndsNumber (newline level ++ rest) := by
  rintro c ⟨⟩
  rfl

/-! ## Arrays -/

/-- The items of an array that are left, and its end on a line of its own. -/
theorem run?_indentedItems {item : Json} {items done : List Json} (outer : Nat)
    (place : IsPlace frames) (takes : TakesValue awaiting)
    (each : ∀ i ∈ item :: items, Reads (indented level i) i) :
    (inside (.array done :: frames) awaiting).run?
        (indentedItems level (item :: items) ++ (newline outer ++ ']' :: rest)) =
      (delivered frames (.array (done.reverse ++ item :: items))).run? rest := by
  induction items generalizing item done awaiting with
  | nil =>
    have first := each item (List.mem_cons_self ..)
    rw [indentedItems, List.append_assoc, run?_newline rfl,
      first _ _ _ (.array done frames) takes (endsNumber_newline outer _), run?_newline rfl,
      ← List.reverse_cons, ← deliver_eq place]
    exact run?_cons rfl
  | cons next items ih =>
    have first := each item (List.mem_cons_self ..)
    have comma : (delivered (.array done :: frames) item).step ',' =
        some (inside (.array (item :: done) :: frames) .value) := rfl
    have split : indentedItems level (item :: next :: items) =
        newline level ++ (indented level item ++ ',' :: indentedItems level (next :: items)) := by
      rw [indentedItems, List.append_assoc]
      nofun
    rw [split, List.append_assoc, run?_newline rfl, List.append_assoc,
      first _ _ _ (.array done frames) takes (by rintro c ⟨⟩; rfl), List.cons_append,
      run?_cons comma,
      ih .value fun i member => each i (List.mem_cons_of_mem _ member), List.reverse_cons,
      List.append_assoc, List.singleton_append]

theorem reads_indented_array {items : List Json}
    (each : ∀ i ∈ items, Reads (indented (level + 1) i) i) :
    Reads (indented level (.array items)) (.array items) := by
  intro frames awaiting rest place takes ended
  have opens : (inside frames awaiting).step '[' =
      some (inside (.array [] :: frames) .itemOrClose) := by
    cases takes <;> rfl
  cases items with
  | nil =>
    rw [indented, List.cons_append, run?_cons opens, ← deliver_eq place]
    exact run?_cons rfl
  | cons item items =>
    rw [indented, List.append_assoc, List.append_assoc, List.cons_append, run?_cons opens]
    exact run?_indentedItems level place .itemOrClose each

/-! ## Objects -/

/-- A member of an object on a line of its own. -/
theorem run?_indentedMember {done : List (Option String × Json)} {key : Option String} {value : Json}
    (takes : awaiting = .key ∨ awaiting = .keyOrClose) (named : key.isSome = true)
    (reads : Reads (indented level value) value) (ended : EndsNumber rest) :
    (inside (.object done :: frames) awaiting).run?
        (newline level ++ quoteText key ++ ':' :: ' ' :: indented level value ++ rest) =
      (inside (.object ((key, value) :: done) :: frames) .commaOrClose).run? rest := by
  obtain ⟨key, rfl⟩ := Option.isSome_iff_exists.mp named
  have blank : (inside (.member done (some key) :: frames) .value).step ' ' =
      some (inside (.member done (some key) :: frames) .value) := rfl
  rw [List.append_assoc, List.append_assoc, run?_newline rfl, List.cons_append, run?_key key takes,
    List.cons_append, run?_cons blank, reads _ _ _ (.member done _ frames) .value ended]
  rfl

/-- The members of an object that are left, and its end on a line of its own. -/
theorem run?_indentedMembers {member : Option String × Json}
    {members done : List (Option String × Json)} (outer : Nat) (place : IsPlace frames)
    (takes : awaiting = .key ∨ awaiting = .keyOrClose)
    (named : ∀ m ∈ member :: members, m.1.isSome = true)
    (each : ∀ m ∈ member :: members, Reads (indented level m.2) m.2) :
    (inside (.object done :: frames) awaiting).run?
        (indentedMembers level (member :: members) ++ (newline outer ++ '}' :: rest)) =
      (delivered frames (.object (done.reverse ++ member :: members))).run? rest := by
  obtain ⟨key, value⟩ := member
  induction members generalizing key value done awaiting with
  | nil =>
    have first := each (key, value) (List.mem_cons_self ..)
    rw [indentedMembers,
      run?_indentedMember takes (named _ (List.mem_cons_self ..)) first (endsNumber_newline outer _),
      run?_newline rfl, ← List.reverse_cons, ← deliver_eq place]
    exact run?_cons rfl
  | cons next members ih =>
    obtain ⟨key', value'⟩ := next
    have first := each (key, value) (List.mem_cons_self ..)
    have split : indentedMembers level ((key, value) :: (key', value') :: members) =
        newline level ++ quoteText key ++ ':' :: ' ' :: indented level value ++
          ',' :: indentedMembers level ((key', value') :: members) := by
      rw [indentedMembers]
      nofun
    have comma : (inside (.object ((key, value) :: done) :: frames) .commaOrClose).step ',' =
        some (inside (.object ((key, value) :: done) :: frames) .key) := rfl
    rw [split, List.append_assoc,
      run?_indentedMember takes (named _ (List.mem_cons_self ..)) first (by rintro c ⟨⟩; rfl),
      List.cons_append, run?_cons comma,
      ih (.inl rfl) _ _ (fun m member => named m (List.mem_cons_of_mem _ member))
        fun m member => each m (List.mem_cons_of_mem _ member), List.reverse_cons,
      List.append_assoc, List.singleton_append]

theorem reads_indented_object {members : List (Option String × Json)}
    (named : ∀ m ∈ members, m.1.isSome = true)
    (each : ∀ m ∈ members, Reads (indented (level + 1) m.2) m.2) :
    Reads (indented level (.object members)) (.object members) := by
  intro frames awaiting rest place takes ended
  have opens : (inside frames awaiting).step '{' =
      some (inside (.object [] :: frames) .keyOrClose) := by
    cases takes <;> rfl
  cases members with
  | nil =>
    rw [indented, List.cons_append, run?_cons opens, ← deliver_eq place]
    exact run?_cons rfl
  | cons member members =>
    rw [indented, List.append_assoc, List.append_assoc, List.cons_append, run?_cons opens]
    exact run?_indentedMembers level place (.inr rfl) named each

/-! ## Documents -/

/-- Wherever a value may stand, the lines of a document are read as the document. -/
theorem reads_indented (made : j.IsMadeOf Numeral.IsWritten) (level : Nat) :
    Reads (indented level j) j := by
  induction made generalizing level with
  | null => exact reads_null
  | bool b => exact reads_bool b
  | number written => exact reads_number written
  | string text => exact reads_string text
  | array _ ih => exact reads_indented_array fun i member => ih i member _
  | object named _ ih => exact reads_indented_object named fun m member => ih m member _

/-- The lines of a document are read as the document. -/
theorem read?_indented (made : j.IsMadeOf Numeral.IsWritten) : read? (indented 0 j) = some j := by
  have read := reads_indented made 0 [] .value [] .outside .value nofun
  rwa [List.append_nil] at read

end ChassisCooling.Json
