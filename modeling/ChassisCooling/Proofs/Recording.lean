import ChassisCooling.History.Store
import ChassisCooling.Proofs.OpenFiles
import ChassisCooling.Proofs.Records
import ChassisCooling.Proofs.Remnants
import ChassisCooling.Proofs.Reread
import ChassisCooling.Proofs.Utf8

/-! # What becomes of recorded points

A recorded point goes to the end of the file, whatever an earlier writer has left there. The first
row so stands on the line that has begun, if there is one, and a query reads them as one line; all
other rows stand on lines of their own. Nothing is read as long as one line of the file is no text.
-/

namespace ChassisCooling.Text

section Lines

variable {α : Type} [BEq α] [LawfulBEq α] {lf cr : α} {begun front line rest : List α}

theorem linesFrom_append_lineFeed : linesFrom lf cr begun (front ++ lf :: rest) =
    linesFrom lf cr begun (front ++ [lf]) ++ linesFrom lf cr [] rest := by
  induction front generalizing begun with
  | nil => simp [linesFrom]
  | cons a front ih =>
    rw [List.cons_append, List.cons_append, linesFrom, linesFrom]
    split
    · rw [ih, List.cons_append]
    · exact ih

theorem linesFrom_append (inside : lf ∉ line) :
    linesFrom lf cr begun (line ++ rest) = linesFrom lf cr (line.reverse ++ begun) rest := by
  induction line generalizing begun with
  | nil => rfl
  | cons a line ih =>
    obtain ⟨here, later⟩ := not_or.mp (mt List.mem_cons.mpr inside)
    have other : ¬ (a == lf) = true := fun same => here (beq_iff_eq.mp same).symm
    rw [List.cons_append, linesFrom, if_neg other, ih later, List.reverse_cons, List.append_assoc]
    rfl

theorem length_linesFrom_lineFeed (lf cr : α) (begun front : List α) :
    (linesFrom lf cr begun (front ++ [lf])).length = front.count lf + 1 := by
  induction front generalizing begun with
  | nil => simp [linesFrom]
  | cons a front ih =>
    rw [List.cons_append, linesFrom, List.count_cons]
    split
    · rw [List.length_cons, ih]
    · exact ih _

theorem dropReturn_of_head? (other : begun.head? ≠ some cr) : dropReturn cr begun = begun := by
  cases begun with
  | nil => rfl
  | cons a begun => exact if_neg fun same => other (congrArg some (beq_iff_eq.mp same))

/-- A line without a carriage return at its end. -/
theorem linesFrom_line (inside : lf ∉ line) (ended : line.getLast? ≠ some cr) :
    linesFrom lf cr [] (line ++ lf :: rest) = line :: linesFrom lf cr [] rest := by
  rw [List.getLast?_eq_head?_reverse] at ended
  rw [linesFrom_append inside, List.append_nil, linesFrom, if_pos (beq_self_eq_true lf),
    dropReturn_of_head? ended, List.reverse_reverse]

end Lines

/-- The lines that have been ended. -/
def finished (bytes : List UInt8) : List UInt8 :=
  (bytes.reverse.dropWhile (· != 0x0A)).reverse

/-- What stands behind the end of the last line. -/
def unfinished (bytes : List UInt8) : List UInt8 :=
  (bytes.reverse.takeWhile (· != 0x0A)).reverse

variable {bytes rest : List UInt8}

theorem finished_append_unfinished (bytes : List UInt8) :
    finished bytes ++ unfinished bytes = bytes := by
  rw [finished, unfinished, ← List.reverse_append, List.takeWhile_append_dropWhile,
    List.reverse_reverse]

theorem lineFeed_not_mem_unfinished (bytes : List UInt8) : 0x0A ∉ unfinished bytes := by
  intro member
  have other := List.all_eq_true.mp List.all_takeWhile 0x0A (List.mem_reverse.mp member)
  exact bne_iff_ne.mp other rfl

theorem byteLines_finished (bytes rest : List UInt8) :
    byteLines (finished bytes ++ rest) = byteLines (finished bytes) ++ byteLines rest := by
  rw [finished]
  cases ended : bytes.reverse.dropWhile (· != 0x0A) with
  | nil => rfl
  | cons a front =>
    have first := List.head?_dropWhile_not (· != 0x0A) bytes.reverse
    rw [ended, List.head?_cons] at first
    obtain rfl : a = 0x0A := bne_eq_false_iff_eq.mp first
    rw [List.reverse_cons, List.append_assoc]
    exact linesFrom_append_lineFeed

theorem byteLines_unfinished (bytes : List UInt8) : byteLines (unfinished bytes) =
    if (unfinished bytes).isEmpty then [] else [unfinished bytes] := by
  have one : byteLines (unfinished bytes ++ []) = linesFrom 0x0A 0x0D _ [] :=
    linesFrom_append (lineFeed_not_mem_unfinished bytes)
  rw [List.append_nil] at one
  rw [one, linesFrom, List.append_nil, List.reverse_reverse, List.isEmpty_reverse]

theorem length_byteLines_finished (bytes : List UInt8) :
    (byteLines (finished bytes)).length = (finished bytes).count 0x0A := by
  rw [finished]
  cases ended : bytes.reverse.dropWhile (· != 0x0A) with
  | nil => rfl
  | cons a front =>
    have first := List.head?_dropWhile_not (· != 0x0A) bytes.reverse
    rw [ended, List.head?_cons] at first
    obtain rfl : a = 0x0A := bne_eq_false_iff_eq.mp first
    rw [List.reverse_cons, byteLines, length_linesFrom_lineFeed, List.count_append,
      List.count_singleton_self]

/-- There is a line for each line feed, and one more if it has been begun. -/
theorem length_byteLines (bytes : List UInt8) : (byteLines bytes).length =
    bytes.count 0x0A + if unfinished bytes = [] then 0 else 1 := by
  have none : (unfinished bytes).count 0x0A = 0 :=
    List.count_eq_zero.mpr (lineFeed_not_mem_unfinished bytes)
  have lines := byteLines_finished bytes (unfinished bytes)
  rw [finished_append_unfinished, byteLines_unfinished] at lines
  have feeds : bytes.count 0x0A = (finished bytes).count 0x0A := by
    conv_lhs => rw [← finished_append_unfinished bytes, List.count_append, none, Nat.add_zero]
  rw [lines, List.length_append, length_byteLines_finished, feeds]
  simp only [List.isEmpty_iff]
  split <;> rfl

end ChassisCooling.Text

namespace ChassisCooling.History.Store

open Calendar Files Text

variable {bytes old front : List UInt8} {text : List Char} {p : Point} {ps : List Point}

/-! ## What is read -/

/-- Every line is a text. -/
def IsText (bytes : List UInt8) : Prop :=
  ∀ line ∈ byteLines bytes, (Utf8.decode? line).isSome = true

instance (bytes : List UInt8) : Decidable (IsText bytes) :=
  inferInstanceAs (Decidable (∀ line ∈ byteLines bytes, (Utf8.decode? line).isSome = true))

/-- The point on a line of bytes, if there is one. -/
def pointIn? (line : List UInt8) : Option Point :=
  (Utf8.decode? line).bind pointOf?

/-- The points on the lines that can be read. -/
def readable (bytes : List UInt8) : List Point :=
  (byteLines bytes).filterMap pointIn?

theorem mapM_decode? (lines : List (List UInt8)) :
    (lines.mapM Utf8.decode?).map (·.filterMap pointOf?) =
      if ∀ line ∈ lines, (Utf8.decode? line).isSome = true then some (lines.filterMap pointIn?)
      else none := by
  induction lines with
  | nil => rfl
  | cons line lines ih =>
    rw [List.mapM_cons]
    cases decoded : Utf8.decode? line with
    | none => simp [decoded]
    | some text =>
      have here : pointIn? line = pointOf? text := by rw [pointIn?, decoded, Option.bind_some]
      simp only [List.forall_mem_cons, decoded, Option.isSome_some, true_and,
        List.filterMap_cons, here]
      split at ih
      · next clean =>
        obtain ⟨texts, others, points⟩ := Option.map_eq_some_iff.mp ih
        rw [others, if_pos clean, ← points]
        rfl
      · next broken =>
        rw [Option.map_eq_none_iff.mp ih, if_neg broken]
        rfl

theorem pointsOf_eq (bytes : List UInt8) : pointsOf bytes =
    if IsText bytes then .ok (readable bytes) else .error (.system .notUtf8) := by
  have read := mapM_decode? (byteLines bytes)
  rw [pointsOf]
  split
  · next broken =>
    rw [broken] at read
    split at read
    · cases read
    · next unread => exact (if_neg unread).symm
  · next texts decoded =>
    rw [decoded] at read
    split at read
    · next clean => exact (congrArg Except.ok (Option.some.inj read)).trans (if_pos clean).symm
    · cases read

/-! ## What a begun line holds -/

/-- A line with nothing but blanks: what a document may stand behind. -/
def IsMargin (line : List UInt8) : Prop :=
  ∃ text, Utf8.decode? line = some text ∧ ∀ c ∈ text, Json.Reader.isSpace c = true

instance (line : List UInt8) : Decidable (IsMargin line) :=
  decidable_of_iff ((Utf8.decode? line).any (·.all Json.Reader.isSpace) = true) <| by
    rw [Option.any_eq_true, IsMargin]
    simp only [List.all_eq_true]

theorem isBlank_of_isSpace {c : Char} (space : Json.Reader.isSpace c = true) :
    isBlank c = true := by
  simp only [Json.Reader.isSpace, Bool.or_eq_true, beq_iff_eq] at space
  rcases space with ((rfl | rfl) | rfl) | rfl
  all_goals rfl

theorem pointIn?_margin (margin : IsMargin front) : pointIn? front = none := by
  obtain ⟨text, decoded, spaces⟩ := margin
  have blank : text.all isBlank = true :=
    List.all_eq_true.mpr fun c among => isBlank_of_isSpace (spaces c among)
  rw [pointIn?, decoded, Option.bind_some, pointOf?, if_pos blank]

theorem byteLines_split (bytes rest : List UInt8) : byteLines (bytes ++ rest) =
    byteLines (finished bytes) ++ byteLines (unfinished bytes ++ rest) := by
  rw [← byteLines_finished, ← List.append_assoc, finished_append_unfinished]

/-- What has been begun counts as a line. -/
theorem readable_eq (bytes : List UInt8) :
    readable bytes = readable (finished bytes) ++ (pointIn? (unfinished bytes)).toList := by
  have lines := byteLines_split bytes []
  rw [List.append_nil, List.append_nil, byteLines_unfinished] at lines
  rw [readable, lines, List.filterMap_append, readable]
  split
  · next nothing =>
    rw [List.isEmpty_iff.mp nothing]
    rfl
  · cases read : pointIn? (unfinished bytes) <;> simp [read]

theorem isText_iff (bytes : List UInt8) : IsText bytes ↔
    IsText (finished bytes) ∧ (Utf8.decode? (unfinished bytes)).isSome = true := by
  have lines := byteLines_split bytes []
  rw [List.append_nil, List.append_nil, byteLines_unfinished] at lines
  rw [IsText, lines, List.forall_mem_append, ← IsText]
  refine and_congr_right fun _ => ?_
  split
  · next nothing =>
    rw [List.isEmpty_iff.mp nothing]
    exact iff_of_true nofun rfl
  · exact List.forall_mem_singleton

/-! ## Rows -/

/-- The bytes of a point, without the end of its line. -/
def lineOf (p : Point) : List UInt8 :=
  Utf8.encode p.toJson.compact

theorem rowOf_eq (p : Point) : rowOf p = lineOf p ++ [0x0A] := by
  rw [rowOf, Utf8.encode_append]
  rfl

theorem compact_toJson (p : Point) : ∃ rest, p.toJson.compact = '{' :: '"' :: 't' :: rest :=
  ⟨_, rfl⟩

theorem getLast?_lineOf (p : Point) : (lineOf p).getLast? = some 0x7D := by
  have closed : ∃ text, p.toJson.compact = text ++ ['}'] := ⟨_, rfl⟩
  obtain ⟨text, closed⟩ := closed
  rw [lineOf, closed, Utf8.encode_append]
  exact List.getLast?_concat ..

theorem lineFeed_not_mem_lineOf (p : Point) : 0x0A ∉ lineOf p := by
  intro member
  have inside : '\n' ∈ p.toJson.compact :=
    (Utf8.mem_encode_iff (c := '\n') (by decide) _).mp member
  exact Json.lineFeed_not_mem_compact p.isMadeOf_toJson inside

/-- A row ends the line that it stands on. -/
theorem byteLines_row (inside : 0x0A ∉ front) (p : Point) (rest : List UInt8) :
    byteLines (front ++ rowOf p ++ rest) = (front ++ lineOf p) :: byteLines rest := by
  have whole : 0x0A ∉ front ++ lineOf p := by
    rw [List.mem_append]
    exact not_or.mpr ⟨inside, lineFeed_not_mem_lineOf p⟩
  have ended : (front ++ lineOf p).getLast? ≠ some 0x0D := by
    rw [List.getLast?_append, getLast?_lineOf, Option.some_or]
    decide
  rw [rowOf_eq, byteLines, ← List.append_assoc, List.append_assoc]
  exact linesFrom_line whole ended

theorem byteLines_rows (ps : List Point) : byteLines (ps.flatMap rowOf) = ps.map lineOf := by
  induction ps with
  | nil => rfl
  | cons p ps ih =>
    rw [List.flatMap_cons, ← List.nil_append (rowOf p), byteLines_row List.not_mem_nil, ih]
    rfl

theorem byteLines_recorded (old : List UInt8) (p : Point) (ps : List Point) :
    byteLines (old ++ (p :: ps).flatMap rowOf) =
      byteLines (finished old) ++ (unfinished old ++ lineOf p) :: ps.map lineOf := by
  rw [byteLines_split, List.flatMap_cons, ← List.append_assoc,
    byteLines_row (lineFeed_not_mem_unfinished old), byteLines_rows]

/-- Text or not: that is left to what the row stands behind. -/
theorem decode?_lineOf (front : List UInt8) (p : Point) : Utf8.decode? (front ++ lineOf p) =
    (Utf8.decode? front).map (· ++ p.toJson.compact) := by
  obtain ⟨rest, opened⟩ := compact_toJson p
  rw [lineOf, opened]
  exact Utf8.decode?_append_encode (by decide) front _

theorem pointIn?_append (decoded : Utf8.decode? front = some text) (p : Point) :
    pointIn? (front ++ lineOf p) = (Json.read? (text ++ p.toJson.compact)).bind Point.ofJson? := by
  have filled : ¬ (text ++ p.toJson.compact).all isBlank = true := by
    obtain ⟨rest, opened⟩ := compact_toJson p
    rw [opened, List.all_append]
    simp [show isBlank '{' = false from rfl]
  rw [pointIn?, decode?_lineOf, decoded, Option.map_some, Option.bind_some, pointOf?,
    if_neg filled]

/-- A row behind blanks is read as its point. -/
theorem pointIn?_of_margin (margin : IsMargin front) (writable : p.timestamp.IsWritable) :
    pointIn? (front ++ lineOf p) = some p := by
  obtain ⟨text, decoded, spaces⟩ := margin
  rw [pointIn?_append decoded, Json.read?_spaces spaces, Json.read?_compact p.isMadeOf_toJson,
    Option.bind_some, Point.ofJson?_toJson writable]

/-- A row behind anything else is lost with it. -/
theorem pointIn?_of_not_margin (decoded : Utf8.decode? front = some text)
    (torn : ¬ IsMargin front) : pointIn? (front ++ lineOf p) = none := by
  have filled : ∃ c ∈ text, Json.Reader.isSpace c = false := by
    by_cases some : ∃ c ∈ text, Json.Reader.isSpace c = false
    · exact some
    · refine absurd ⟨text, decoded, fun c among => ?_⟩ torn
      exact Bool.not_eq_false _ ▸ fun other => some ⟨c, among, other⟩
  obtain ⟨rest, opened⟩ := compact_toJson p
  have made : p.toJson.IsMadeOf Json.Numeral.IsWritten := p.isMadeOf_toJson
  have reads := opened ▸ Json.reads_compact made
  rw [pointIn?_append decoded, opened, Json.read?_remnant filled reads]
  rfl

/-! ## Parts of rows -/

theorem count_lineOf (p : Point) : (lineOf p).count 0x0A = 0 :=
  List.count_eq_zero.mpr (lineFeed_not_mem_lineOf p)

theorem count_rowOf (p : Point) : (rowOf p).count 0x0A = 1 := by
  rw [rowOf_eq, List.count_append, count_lineOf, List.count_singleton_self]

theorem count_rows (ps : List Point) : (ps.flatMap rowOf).count 0x0A = ps.length := by
  induction ps with
  | nil => rfl
  | cons p ps ih =>
    rw [List.flatMap_cons, List.count_append, ih, count_rowOf, List.length_cons, Nat.add_comm]

/-- Not all rows are ended in a part of them. -/
theorem count_take_lt {index : Nat} (inside : index < (ps.flatMap rowOf).length) :
    ((ps.flatMap rowOf).take index).count 0x0A < ps.length := by
  rcases List.eq_nil_or_concat ps with rfl | ⟨front, p, rfl⟩
  · cases inside
  rw [List.concat_eq_append] at inside ⊢
  have rows : (front ++ [p]).flatMap rowOf = (front.flatMap rowOf ++ lineOf p) ++ [0x0A] := by
    rw [List.flatMap_append, List.flatMap_singleton, rowOf_eq, List.append_assoc]
  have feeds : (front.flatMap rowOf ++ lineOf p).count 0x0A = front.length := by
    rw [List.count_append, count_rows, count_lineOf, Nat.add_zero]
  rw [rows, List.length_append, List.length_singleton] at inside
  rw [rows, List.take_append_of_le_length (Nat.le_of_lt_succ inside), List.length_append,
    List.length_singleton]
  have part := (List.take_sublist index (front.flatMap rowOf ++ lineOf p)).count_le 0x0A
  omega

theorem length_readable_le (bytes : List UInt8) :
    (readable bytes).length ≤ bytes.count 0x0A + if unfinished bytes = [] then 0 else 1 :=
  length_byteLines bytes ▸ List.length_filterMap_le ..

/-! ## The file after recording -/

theorem pointIn?_lineOf (writable : p.timestamp.IsWritable) : pointIn? (lineOf p) = some p := by
  have margin : IsMargin [] := ⟨[], rfl, nofun⟩
  have read := pointIn?_of_margin margin writable
  rwa [List.nil_append] at read

theorem filterMap_lineOf (writable : ∀ p ∈ ps, p.timestamp.IsWritable) :
    (ps.map lineOf).filterMap pointIn? = ps := by
  induction ps with
  | nil => rfl
  | cons p ps ih =>
    obtain ⟨first, others⟩ := List.forall_mem_cons.mp writable
    rw [List.map_cons, List.filterMap_cons_some (pointIn?_lineOf first), ih others]

/-- No row makes text of what is none, or spoils a text. -/
theorem isText_recorded (old : List UInt8) (ps : List Point) :
    IsText (old ++ ps.flatMap rowOf) ↔ IsText old := by
  cases ps with
  | nil => rw [List.flatMap_nil, List.append_nil]
  | cons p ps =>
    have rows : ∀ line ∈ ps.map lineOf, (Utf8.decode? line).isSome = true := by
      intro line among
      obtain ⟨q, -, rfl⟩ := List.mem_map.mp among
      rw [lineOf, Utf8.decode?_encode]
      rfl
    rw [isText_iff old, IsText, byteLines_recorded, List.forall_mem_append, List.forall_mem_cons,
      ← IsText, decode?_lineOf, Option.isSome_map]
    exact and_congr_right fun _ => and_iff_left rows

theorem readable_of_margin (margin : IsMargin (unfinished old))
    (writable : ∀ p ∈ ps, p.timestamp.IsWritable) :
    readable (old ++ ps.flatMap rowOf) = readable old ++ ps := by
  cases ps with
  | nil => rw [List.flatMap_nil, List.append_nil, List.append_nil]
  | cons p ps =>
    obtain ⟨first, others⟩ := List.forall_mem_cons.mp writable
    rw [readable, byteLines_recorded, List.filterMap_append,
      List.filterMap_cons_some (pointIn?_of_margin margin first), filterMap_lineOf others,
      readable_eq old, pointIn?_margin margin, Option.toList_none, List.append_nil, readable]

/-- The first row is lost, and so is what it stands behind. -/
theorem readable_of_not_margin (clean : IsText old) (torn : ¬ IsMargin (unfinished old))
    (writable : ∀ p ∈ ps, p.timestamp.IsWritable) :
    readable (old ++ (p :: ps).flatMap rowOf) = readable (finished old) ++ ps := by
  obtain ⟨text, decoded⟩ := Option.isSome_iff_exists.mp ((isText_iff old).mp clean).2
  rw [readable, byteLines_recorded, List.filterMap_append,
    List.filterMap_cons_none (pointIn?_of_not_margin decoded torn), filterMap_lineOf writable,
    readable]

/-! ## Recording -/

variable {store : Store} {d d₀ : Disk} {path : Path}

/-- Adds points one after another. -/
def recordAll (store : Store) (d : Disk) (ps : List Point) : Disk :=
  ps.foldl store.record d

/-- Rows go to the end of the open file, and to nothing else. -/
theorem recordAll_appends (held : store.handle < d.contents.length) (ps : List Point) :
    (store.recordAll d ps).bytes store.handle = d.bytes store.handle ++ ps.flatMap rowOf ∧
      (store.recordAll d ps).nodes = d.nodes ∧ (store.recordAll d ps).aboves = d.aboves := by
  induction ps generalizing d with
  | nil => exact ⟨(List.append_nil _).symm, rfl, rfl⟩
  | cons p ps ih =>
    have same : (store.record d p).contents.length = d.contents.length := List.length_set
    obtain ⟨written, nodes, aboves⟩ := ih (same ▸ held)
    refine ⟨?_, nodes, aboves⟩
    rw [recordAll, List.foldl_cons, ← recordAll, written, record, Disk.bytes_appendTo held,
      List.flatMap_cons, List.append_assoc]

theorem openAppend_of_opened (opened : (d.openAppend path).mapError (cannotOpen path) >>=
      (fun found => .ok (⟨path, found.1⟩, found.2)) = Except.ok (store, d₀)) :
    store.path = path ∧ d.openAppend path = .ok (store.handle, d₀) := by
  obtain ⟨found, reached, opened⟩ := ok_of_bind opened
  cases opened
  exact ⟨rfl, ok_of_mapError reached⟩

theorem open?_cases (sound : d.IsSound) (opened : open? d path = .ok (store, d₀)) :
    store.path = path ∧ ∃ d₁ : Disk, d₁.IsSound ∧
      d₁.openAppend path = .ok (store.handle, d₀) := by
  rw [open?] at opened
  split at opened
  · obtain ⟨same, reached⟩ := openAppend_of_opened opened
    exact ⟨same, d, sound, reached⟩
  · obtain ⟨d₁, made, opened⟩ := ok_of_bind opened
    obtain ⟨same, reached⟩ := openAppend_of_opened opened
    exact ⟨same, d₁, sound.ensurePath (ok_of_mapError made), reached⟩

/-- A query reads what was there when the file was opened, and the recorded rows behind it. -/
theorem points_recordAll (sound : d.IsSound) (opened : open? d path = .ok (store, d₀))
    (ps : List Point) : store.points (store.recordAll d₀ ps) =
      pointsOf (d₀.bytes store.handle ++ ps.flatMap rowOf) := by
  obtain ⟨rfl, d₁, sound, opened⟩ := open?_cases sound opened
  obtain ⟨written, nodes, aboves⟩ :=
    recordAll_appends (Disk.lt_of_openAppend sound opened) ps
  have found := Disk.lookup_of_openAppend opened aboves nodes
  rw [points, Disk.read, found, ← written]
  rfl

/-! ## The answers after recording -/

variable {now cutoff : Instant} {window : Span}

/-- The time that a query goes back to. -/
def cutoff? (now : Instant) (window : Span) : Except OutOfCalendar Instant := do
  (← Clock.system.read now).sub window

theorem history_eq (store : Store) (d : Disk) (now : Instant) (window : Span) :
    store.history d now window = (cutoff? now window).map fun cutoff =>
      (store.points d).map fun points => inOrder (after cutoff points) := by
  rw [history, cutoff?]
  cases Clock.system.read now with
  | error cause => rfl
  | ok t =>
    change (t.sub window >>= _) = (t.sub window).map _
    cases t.sub window <;> rfl

theorem count_inOrder (points : List Point) (young : cutoff < p.timestamp) :
    (inOrder (after cutoff points)).count p = points.count p := by
  rw [inOrder, (List.mergeSort_perm _ _).count_eq, after]
  exact List.count_filter (decide_eq_true young)

/-- Points of which the first has been lost are all there only if the first was there before. -/
theorem count_le_iff (before : List Point) :
    (∀ q : Point, cutoff < q.timestamp → (p :: ps).count q ≤ (before ++ ps).count q) ↔
      (cutoff < p.timestamp → p ∈ before) := by
  constructor
  · intro all young
    have enough := all p young
    rw [List.count_cons_self, List.count_append] at enough
    exact List.count_pos_iff.mp (by omega)
  · intro there q young
    rw [List.count_append, List.count_cons]
    split
    · next same =>
      obtain rfl := beq_iff_eq.mp same
      have listed := List.count_pos_iff.mpr (there young)
      omega
    · omega

/-- A query succeeds, and every recorded point that is young enough is in its answer as often as it
was recorded. -/
def Recalls (store : Store) (d : Disk) (ps : List Point) (now : Instant) (window : Span) : Prop :=
  ∃ cutoff points, cutoff? now window = .ok cutoff ∧
    store.history (store.recordAll d ps) now window = .ok (.ok points) ∧
    ∀ p, cutoff < p.timestamp → ps.count p ≤ points.count p

theorem recalls_iff_of_history {points : List Point} (shown : cutoff? now window = .ok cutoff)
    (answered : store.history (store.recordAll d₀ ps) now window =
      .ok (.ok (inOrder (after cutoff points)))) :
    store.Recalls d₀ ps now window ↔
      ∀ p : Point, cutoff < p.timestamp → ps.count p ≤ points.count p := by
  constructor
  · rintro ⟨cutoff', points', shown', answered', all⟩ p young
    obtain rfl := Except.ok.inj (shown.symm.trans shown')
    obtain rfl := Except.ok.inj (Except.ok.inj (answered.symm.trans answered'))
    exact count_inOrder points young ▸ all p young
  · intro all
    refine ⟨cutoff, _, shown, answered, fun p young => ?_⟩
    exact (count_inOrder points young).symm ▸ all p young

section Answers

variable (sound : d.IsSound) (opened : open? d path = .ok (store, d₀))
  (held : d₀.bytes store.handle = old)

include sound opened held

theorem history_recordAll (shown : cutoff? now window = .ok cutoff) (ps : List Point) :
    store.history (store.recordAll d₀ ps) now window =
      .ok ((pointsOf (old ++ ps.flatMap rowOf)).map fun points =>
        inOrder (after cutoff points)) := by
  rw [history_eq, shown, points_recordAll sound opened, held]
  rfl

/-- Behind the end of a line, or behind blanks, every recorded point is found, and so is what could
be read before. -/
theorem history_of_margin (shown : cutoff? now window = .ok cutoff) (clean : IsText old)
    (margin : IsMargin (unfinished old)) (writable : ∀ p ∈ ps, p.timestamp.IsWritable) :
    store.history (store.recordAll d₀ ps) now window =
      .ok (.ok (inOrder (after cutoff (readable old ++ ps)))) := by
  rw [history_recordAll sound opened held shown, pointsOf_eq,
    if_pos ((isText_recorded old ps).mpr clean), readable_of_margin margin writable]
  rfl

/-- Behind anything else the first recorded point is lost, and all others are found. -/
theorem history_of_not_margin (shown : cutoff? now window = .ok cutoff) (clean : IsText old)
    (torn : ¬ IsMargin (unfinished old)) (writable : ∀ p ∈ ps, p.timestamp.IsWritable)
    (p : Point) : store.history (store.recordAll d₀ (p :: ps)) now window =
      .ok (.ok (inOrder (after cutoff (readable (finished old) ++ ps)))) := by
  rw [history_recordAll sound opened held shown, pointsOf_eq,
    if_pos ((isText_recorded old (p :: ps)).mpr clean),
    readable_of_not_margin clean torn writable]
  rfl

/-- Behind a line that is no text nothing is found. -/
theorem history_of_not_text (shown : cutoff? now window = .ok cutoff) (broken : ¬ IsText old)
    (ps : List Point) : store.history (store.recordAll d₀ ps) now window =
      .ok (.error (.system .notUtf8)) := by
  rw [history_recordAll sound opened held shown, pointsOf_eq,
    if_neg (mt (isText_recorded old ps).mp broken)]
  rfl

/-- Only the first recorded point can be missed, and only behind a line that has begun. -/
theorem recalls_iff (shown : cutoff? now window = .ok cutoff)
    (writable : ∀ p ∈ ps, p.timestamp.IsWritable) :
    store.Recalls d₀ ps now window ↔ IsText old ∧ (IsMargin (unfinished old) ∨
      ∀ p ∈ ps.head?, cutoff < p.timestamp → p ∈ readable (finished old)) := by
  by_cases clean : IsText old
  · rw [and_iff_right clean]
    by_cases margin : IsMargin (unfinished old)
    · have answered := history_of_margin sound opened held shown clean margin writable
      rw [recalls_iff_of_history shown answered]
      refine iff_of_true (fun p _ => ?_) (.inl margin)
      rw [List.count_append]
      exact Nat.le_add_left ..
    · rw [or_iff_right margin]
      cases ps with
      | nil =>
        have answered := history_recordAll sound opened held shown []
        rw [pointsOf_eq, if_pos ((isText_recorded old []).mpr clean)] at answered
        rw [recalls_iff_of_history shown answered]
        exact iff_of_true (fun p _ => Nat.zero_le _) nofun
      | cons p ps =>
        have others := (List.forall_mem_cons.mp writable).2
        have answered := history_of_not_margin sound opened held shown clean margin others p
        rw [recalls_iff_of_history shown answered, count_le_iff]
        simp
  · refine iff_of_false ?_ fun found => clean found.1
    rintro ⟨_, _, -, answered, -⟩
    rw [history_of_not_text sound opened held shown clean ps] at answered
    cases answered

end Answers

/-- Points that are recorded behind old bytes are recalled exactly when every old line is a text and
the last one has been ended, or holds blanks only, or the first point is no loss. What else the
answer holds is what could be read before. -/
theorem recorded_recalled_iff (sound : d.IsSound) (opened : open? d path = .ok (store, d₀))
    (held : d₀.bytes store.handle = old) (writable : ∀ p ∈ ps, p.timestamp.IsWritable) :
    (store.Recalls d₀ ps now window ↔ ∃ cutoff, cutoff? now window = .ok cutoff ∧ IsText old ∧
      (IsMargin (unfinished old) ∨
        ∀ p ∈ ps.head?, cutoff < p.timestamp → p ∈ readable (finished old))) ∧
    ∀ cutoff, cutoff? now window = .ok cutoff →
      (IsText old → IsMargin (unfinished old) →
        store.history (store.recordAll d₀ ps) now window =
          .ok (.ok (inOrder (after cutoff (readable old ++ ps))))) ∧
      (IsText old → ¬ IsMargin (unfinished old) → ps ≠ [] →
        store.history (store.recordAll d₀ ps) now window =
          .ok (.ok (inOrder (after cutoff (readable (finished old) ++ ps.tail))))) ∧
      (¬ IsText old → store.history (store.recordAll d₀ ps) now window =
        .ok (.error (.system .notUtf8))) := by
  constructor
  · constructor
    · rintro ⟨cutoff, points, shown, recalled⟩
      refine ⟨cutoff, shown, ?_⟩
      exact (recalls_iff sound opened held shown writable).mp ⟨cutoff, points, shown, recalled⟩
    · rintro ⟨cutoff, shown, found⟩
      exact (recalls_iff sound opened held shown writable).mpr found
  · intro cutoff shown
    refine ⟨fun clean margin => ?_, fun clean torn filled => ?_, fun broken => ?_⟩
    · exact history_of_margin sound opened held shown clean margin writable
    · obtain ⟨p, rest, rfl⟩ := List.exists_cons_of_ne_nil filled
      have others := (List.forall_mem_cons.mp writable).2
      exact history_of_not_margin sound opened held shown clean torn others p
    · exact history_of_not_text sound opened held shown broken ps

/-! A log on a disk by itself: one that ends in a line that can take a row, and two that cannot. -/

def logName : Path := "h.jsonl"

def diskWith (bytes : List UInt8) : Disk :=
  ⟨[(⟨Disk.workingDirectory, logName⟩, .file 0)], [Disk.root, Disk.root], [[bytes]]⟩

theorem isSound_diskWith (bytes : List UInt8) : (diskWith bytes).IsSound := by
  intro named among id file
  obtain rfl := List.mem_singleton.mp among
  cases file
  exact Nat.zero_lt_one

theorem bytes_diskWith (bytes : List UInt8) : (diskWith bytes).bytes 0 = bytes :=
  List.append_nil bytes

/-- A log that is there is opened where it is. -/
theorem open?_logName {id : FileId} (found : d.openAppend logName = .ok (id, d)) :
    open? d logName = .ok (⟨logName, id⟩, d) := by
  have parent : Path.parent? logName = some "" := by decide +kernel
  have opened : (d.openAppend logName).mapError (cannotOpen logName) >>=
      (fun found => .ok (⟨logName, found.1⟩, found.2)) = Except.ok (Store.mk logName id, d) := by
    rw [found]
    rfl
  rw [open?, parent]
  exact opened

theorem open?_diskWith (bytes : List UInt8) :
    open? (diskWith bytes) logName = .ok (⟨logName, 0⟩, diskWith bytes) := by
  have names : Path.names logName = [logName] := by decide +kernel
  have slash : Path.endsInSlash logName = false := by decide +kernel
  have walked : (diskWith bytes).walk .file Disk.maxLinks false Disk.workingDirectory [logName] =
      .ok (.entry ⟨Disk.workingDirectory, logName⟩ false) := by
    rw [Disk.walk]
    rfl
  have located : (diskWith bytes).locate .file logName =
      .ok (.entry ⟨Disk.workingDirectory, logName⟩ false) := by
    rw [Disk.locate, names, slash]
    exact walked
  refine open?_logName ?_
  rw [Disk.openAppend, located]
  rfl

/-- Noon in June 2025, some seconds earlier. -/
def beforeNoon (seconds : Int) : Instant :=
  .ofMillis (1748779200000 - seconds * 1000)

def hour : Span := ⟨3600000000000⟩

/-- An unreadable row, and a begun line of two blanks. -/
def corruptLog : List UInt8 :=
  Utf8.encodeString "\x7b\"timestamp\": garbage\n  "

/-- What is left of a row that has not been written to its end. -/
def tornLog : List UInt8 :=
  Utf8.encodeString "\x7b\"timestamp\":"

/-- A row that is no text. -/
def garbledLog : List UInt8 :=
  [0xFF, 0x0A]

/-- A point of the last hour. -/
def sampleRow : Point :=
  ⟨beforeNoon 10, 52, 41, 25⟩

theorem isWritable_sampleRow : sampleRow.timestamp.IsWritable :=
  ⟨rfl, .inl (by decide)⟩

/-- A point of two hours ago, and one of the last hour that is recorded twice. -/
def sampleRows : List Point :=
  [⟨beforeNoon 7200, 41, 30, 20⟩, sampleRow, sampleRow]

theorem corruptLog_recalled :
    ∃ store d₀, (diskWith corruptLog).IsSound ∧
      open? (diskWith corruptLog) logName = .ok (store, d₀) ∧
      d₀.bytes store.handle = corruptLog ∧ (∀ p ∈ sampleRows, p.timestamp.IsWritable) ∧
      store.Recalls d₀ sampleRows (beforeNoon 0) hour ∧
      store.history (store.recordAll d₀ sampleRows) (beforeNoon 0) hour =
        .ok (.ok sampleRows.tail) := by
  have writable : ∀ p ∈ sampleRows, p.timestamp.IsWritable := by
    have calendar : ∀ p ∈ sampleRows, Instant.inCalendar p.timestamp.second = true := by
      decide +kernel
    have nano : ∀ p ∈ sampleRows, p.timestamp.nano < 1000000000 := by decide +kernel
    exact fun p among => ⟨calendar p among, .inl (nano p among)⟩
  have shown : cutoff? (beforeNoon 0) hour = .ok (beforeNoon 3600) := rfl
  have clean : IsText corruptLog := by decide +kernel
  have margin : IsMargin (unfinished corruptLog) := by decide +kernel
  have answer : inOrder (after (beforeNoon 3600) (readable corruptLog ++ sampleRows)) =
      sampleRows.tail := by
    have young : after (beforeNoon 3600) (readable corruptLog ++ sampleRows) = sampleRows.tail := by
      decide +kernel
    rw [young]
    exact List.mergeSort_of_pairwise (by decide +kernel)
  have sound := isSound_diskWith corruptLog
  obtain ⟨recalled, answers⟩ :=
    recorded_recalled_iff sound (open?_diskWith corruptLog) (bytes_diskWith corruptLog) writable
  refine ⟨_, _, sound, open?_diskWith corruptLog, bytes_diskWith corruptLog, writable, ?_, ?_⟩
  · exact recalled.mpr ⟨_, shown, clean, .inl margin⟩
  · exact answer ▸ (answers _ shown).1 clean margin

/-- The sample row is recorded in a log of old bytes, and a query that goes back an hour does not
find it. -/
def LosesRow (old : List UInt8) : Prop :=
  ∃ store d₀, open? (diskWith old) logName = .ok (store, d₀) ∧ d₀.bytes store.handle = old ∧
    ¬ store.Recalls d₀ [sampleRow] (beforeNoon 0) hour

theorem losesRow {old : List UInt8}
    (missed : ¬ (IsText old ∧ (IsMargin (unfinished old) ∨ sampleRow ∈ readable (finished old)))) :
    LosesRow old := by
  have shown : cutoff? (beforeNoon 0) hour = .ok (beforeNoon 3600) := rfl
  have young : beforeNoon 3600 < sampleRow.timestamp := by decide +kernel
  refine ⟨_, _, open?_diskWith old, bytes_diskWith old, fun recalled => missed ?_⟩
  have found := (recalls_iff (isSound_diskWith old) (open?_diskWith old) (bytes_diskWith old)
    shown (List.forall_mem_singleton.mpr isWritable_sampleRow)).mp recalled
  exact found.imp_right (.imp_right fun first => first sampleRow rfl young)

/-- A young point is missed when it is recorded behind a torn row, or in a log with bytes that are
no text. -/
theorem torn_and_garbled_lose_row : LosesRow tornLog ∧ LosesRow garbledLog := by
  constructor
  · exact losesRow (by decide +kernel)
  · exact losesRow (by decide +kernel)

end ChassisCooling.History.Store
