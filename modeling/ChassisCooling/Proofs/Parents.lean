import Mathlib.Data.List.DropRight
import ChassisCooling.Proofs.Replacing
import ChassisCooling.Proofs.Utf8

/-! # The directory that a path lies in

The names of the directory's path are the first names of the path, so where the path leads to a file
its directory is there. A path whose directory is missing leads to none.
-/

namespace ChassisCooling.Text

theorem join_prefix (separator : Char) (parts more : List (List Char)) :
    join separator parts <+: join separator (parts ++ more) := by
  rw [join_eq_intercalate, join_eq_intercalate]
  induction parts with
  | nil => exact List.nil_prefix
  | cons part parts ih =>
    cases parts with
    | nil =>
      cases more with
      | nil => exact List.prefix_rfl
      | cons next more =>
        rw [List.intercalate_singleton, List.singleton_append, List.intercalate_cons_cons,
          List.append_assoc]
        exact List.prefix_append part _
    | cons next parts =>
      rw [List.cons_append, List.cons_append, List.intercalate_cons_cons,
        List.intercalate_cons_cons]
      exact (List.prefix_append_right_inj _).mpr ih

end ChassisCooling.Text

namespace ChassisCooling.Files

namespace Path

variable {path parent : Path} {given front rest : List String}

/-! ## Segments of the directory -/

theorem trimBlanks_prefix (given : List String) : trimBlanks given <+: given := by
  cases given with
  | nil => exact List.prefix_rfl
  | cons segment rest =>
    rw [trimBlanks]
    split
    · split
      · exact List.prefix_append [segment] rest
      · exact List.nil_prefix
    · exact List.cons_prefix_cons.mpr ⟨rfl, List.rdropWhile_prefix isBlank rest⟩

/-- What is left behind the first segment ends in one that names something. -/
theorem exists_last_of_trimBlanks {first second : String} {more : List String}
    (trimmed : trimBlanks given = first :: second :: more) :
    ∃ front last, first :: second :: more = front ++ [last] ∧ isBlank last = false := by
  cases given with
  | nil => cases trimmed
  | cons segment rest =>
    rw [trimBlanks] at trimmed
    split at trimmed
    · split at trimmed <;> cases trimmed
    · obtain ⟨-, kept⟩ := List.cons.inj trimmed
      have kept : rest.rdropWhile isBlank = second :: more := kept
      have filled : rest.rdropWhile isBlank ≠ [] := kept ▸ List.cons_ne_nil second more
      refine ⟨first :: (rest.rdropWhile isBlank).dropLast, (rest.rdropWhile isBlank).getLast filled,
        ?_, Bool.eq_false_iff.mpr (List.rdropWhile_last_not isBlank rest filled)⟩
      rw [List.cons_append, List.dropLast_concat_getLast, kept]

/-- A path is absolute if nothing stands before its first slash. -/
theorem isAbsolute_iff :
    isAbsolute path = true ↔ ∃ rest, rest ≠ [] ∧ segments path = "" :: rest := by
  obtain ⟨front, last, split⟩ := exists_segments path
  rw [isAbsolute_of_segments split, beq_iff_eq, split]
  cases front with
  | nil =>
    constructor
    · intro begins
      cases begins
    · rintro ⟨rest, more, same⟩
      exact absurd (List.cons.inj same).2.symm more
  | cons first front =>
    constructor
    · intro begins
      rw [Option.some.inj begins]
      exact ⟨front ++ [last], by simp, rfl⟩
    · rintro ⟨rest, more, same⟩
      rw [(List.cons.inj same).1]
      rfl

/-- The path of the directory begins as the path does, and the path has further names. -/
structure LiesIn (path parent : Path) : Prop where
  absolute : isAbsolute parent = isAbsolute path
  text : parent.toList <+: path.toList
  names : ∃ rest, rest ≠ [] ∧ names path = names parent ++ rest

theorem liesIn_root (absolute : isAbsolute path = true) (named : names path ≠ []) :
    LiesIn path "/" := by
  refine ⟨absolute.symm, ?_, names path, named, rfl⟩
  rw [isAbsolute, beq_iff_eq] at absolute
  obtain ⟨rest, text⟩ := List.head?_eq_some_iff.mp absolute
  rw [text]
  exact List.prefix_append ['/'] rest

theorem liesIn_ofSegments (split : segments path = front ++ rest) (some : front ≠ [])
    (noRoot : front ≠ [""]) (named : ∃ last ∈ rest, last ≠ "") : LiesIn path (ofSegments front) := by
  have apart : ∀ segment ∈ front, IsSegment segment := fun segment among =>
    isSegment_of_mem (split ▸ List.mem_append_left rest among)
  have same := segments_ofSegments apart some
  refine ⟨?_, ?_, rest.filter (fun segment => !segment.isEmpty), ?_, ?_⟩
  · rw [Bool.eq_iff_iff, isAbsolute_iff, isAbsolute_iff, same, split]
    obtain ⟨first, front, rfl⟩ := List.exists_cons_of_ne_nil some
    constructor
    · rintro ⟨others, more, begins⟩
      obtain ⟨rfl, rfl⟩ := List.cons.inj begins
      exact ⟨front ++ rest, List.append_ne_nil_of_left_ne_nil more rest, rfl⟩
    · rintro ⟨others, more, begins⟩
      obtain ⟨rfl, -⟩ := List.cons.inj begins
      refine ⟨front, ?_, rfl⟩
      rintro rfl
      exact noRoot rfl
  · rw [ofSegments, String.toList_ofList, ← ofSegments_segments path, ofSegments,
      String.toList_ofList, split, List.map_append]
    exact Text.join_prefix '/' _ _
  · obtain ⟨last, among, filled⟩ := named
    apply List.ne_nil_of_mem (a := last)
    rw [List.mem_filter]
    exact ⟨among, by simpa using filled⟩
  · rw [names, split, List.filter_append, names, same]

theorem liesIn_of_parent? (found : parent? path = some parent) (filled : parent ≠ "") :
    LiesIn path parent := by
  rw [parent?] at found
  split at found
  · cases found
  · split at found
    · cases found
    · exact absurd (Option.some.inj found).symm filled
  next several one =>
  obtain ⟨body, last, shape, nonblank⟩ : ∃ body last,
      trimBlanks path.segments = body ++ [last] ∧ isBlank last = false := by
    cases trimmed : trimBlanks path.segments with
    | nil => exact absurd trimmed several
    | cons first others =>
      cases others with
      | nil => exact absurd trimmed (one first)
      | cons second more => exact exists_last_of_trimBlanks trimmed
  obtain ⟨tail, whole⟩ := trimBlanks_prefix path.segments
  obtain ⟨blanks, front⟩ := trimBlanks_prefix body
  have split : segments path = trimBlanks body ++ (blanks ++ last :: tail) := by
    rw [← whole, shape, ← List.append_assoc, front, List.append_assoc, List.singleton_append]
  have filledLast : last ≠ "" := by
    rintro rfl
    cases nonblank
  have among : last ∈ blanks ++ last :: tail := List.mem_append_right _ List.mem_cons_self
  have named : names path ≠ [] := by
    apply List.ne_nil_of_mem (a := last)
    rw [names, List.mem_filter, split]
    exact ⟨List.mem_append_right _ among, by simpa using filledLast⟩
  rw [shape, List.dropLast_concat] at found
  split at found
  · split at found
    · next absolute =>
      obtain rfl := Option.some.inj found
      exact liesIn_root absolute named
    · exact absurd (Option.some.inj found).symm filled
  next some =>
  split at found
  · next root =>
    obtain rfl := Option.some.inj found
    rw [beq_iff_eq.mp root] at split
    exact liesIn_root (isAbsolute_iff.mpr ⟨_, List.ne_nil_of_mem among, split⟩) named
  · next noRoot =>
    obtain rfl := Option.some.inj found
    exact liesIn_ofSegments split some (mt beq_iff_eq.mpr noRoot) ⟨last, among, filledLast⟩

end Path

namespace Disk

open Calendar

variable {d d' : Disk} {path parent : Path} {place : Place} {links : Nat} {slash slash' : Bool}
  {here : DirectoryId} {front rest : List String} {id : FileId}

/-! ## Walks to the directory -/

theorem walk_nil (d : Disk) (approach : Approach) (links : Nat) (slash : Bool)
    (here : DirectoryId) : d.walk approach links slash here [] = .ok (.directory here) := by
  rw [Disk.walk]

/-- The first names of a walk that comes to its end lead to a directory. -/
theorem walk_front (walked : d.walk .target links slash here (front ++ rest) = .ok place)
    (more : rest ≠ []) (slash' : Bool) : ∃ place' id,
      d.walk .target links slash' here front = .ok place' ∧
        d.look place' = .ok (some (.directory id)) := by
  suffices all : ∀ names, d.walk .target links slash here names = .ok place →
      ∀ front slash', front ++ rest = names → ∃ place' id,
        d.walk .target links slash' here front = .ok place' ∧
          d.look place' = .ok (some (.directory id)) from all _ walked front slash' rfl
  clear walked
  intro names walked
  fun_induction Disk.walk d .target links slash here names with
  | case1 =>
    intro front slash' whole
    exact absurd (List.append_eq_nil_iff.mp whole).2 more
  | case2 links slash here name others dot ih =>
    intro front slash' whole
    cases front with
    | nil => exact ⟨_, here, walk_nil .., rfl⟩
    | cons first front =>
      obtain ⟨rfl, same⟩ := List.cons.inj whole
      rw [Disk.walk, if_pos dot]
      exact ih walked front slash' same
  | case3 links slash here name others noDot dots ih =>
    intro front slash' whole
    cases front with
    | nil => exact ⟨_, here, walk_nil .., rfl⟩
    | cons first front =>
      obtain ⟨rfl, same⟩ := List.cons.inj whole
      rw [Disk.walk, if_neg noDot, if_pos dots]
      exact ih walked front slash' same
  | case4 links slash here name others last _ _ _ asEntry =>
    rw [show (Approach.target == .entry) = false from rfl, Bool.and_false] at asEntry
    cases asEntry
  | case7 links slash here name others last _ _ _ _ _ target _ stays =>
    rw [show Approach.target.followsLast slash = true from rfl, Bool.not_true,
      Bool.and_false] at stays
    cases stays
  | case9 slash here name others last place' noDot noDots _ _ target seen _ links slash₁ ih =>
    intro front slash' whole
    cases front with
    | nil => exact ⟨_, here, walk_nil .., rfl⟩
    | cons first front =>
      obtain ⟨rfl, rfl⟩ := List.cons.inj whole
      have seen : d.look (.entry ⟨here, first⟩ slash') = .ok (some (.symlink target)) := seen
      rw [walk_target noDot noDots seen]
      exact ih walked _ _ (List.append_assoc ..)
  | case10 links slash here name others last place' noDot noDots _ _ found _ _ ends =>
    intro front slash' whole
    cases front with
    | nil => exact ⟨_, here, walk_nil .., rfl⟩
    | cons first front =>
      obtain ⟨-, same⟩ := List.cons.inj whole
      rw [List.isEmpty_iff.mp ends] at same
      exact absurd (List.append_eq_nil_iff.mp same).2 more
  | case11 links slash here name others last place' noDot noDots _ _ goesOn id _ seen ih =>
    intro front slash' whole
    cases front with
    | nil => exact ⟨_, here, walk_nil .., rfl⟩
    | cons first front =>
      obtain ⟨rfl, same⟩ := List.cons.inj whole
      have seen : d.look (.entry ⟨here, first⟩ slash') = .ok (some (.directory id)) := seen
      rw [walk_target noDot noDots seen]
      cases front with
      | nil => exact ⟨_, id, rfl, seen⟩
      | cons second front => exact ih walked _ slash' same
  | case5 | case6 | case8 | case12 | case13 => cases walked

theorem encodeString_le_of_prefix {text whole : String} (part : text.toList <+: whole.toList) :
    (Text.Utf8.encodeString text).length ≤ (Text.Utf8.encodeString whole).length := by
  obtain ⟨rest, same⟩ := part
  rw [Text.Utf8.encodeString, Text.Utf8.encodeString, ← same, Text.Utf8.encode_append,
    List.length_append]
  exact Nat.le_add_right _ _

/-- Where a path leads to a file, the directory that it lies in is there. -/
theorem present_of_liesIn (lies : Path.LiesIn path parent) (filled : parent ≠ "")
    (found : d.lookup path = .ok (.file id)) : d.present parent = true := by
  obtain ⟨place, located, -⟩ := ok_of_bind found
  obtain ⟨rest, more, named⟩ := lies.names
  have walked := walk_of_locate located
  rw [named] at walked
  obtain ⟨place', there, led, seen⟩ := walk_front walked more (Path.endsInSlash parent)
  have begun : startOf parent workingDirectory = startOf path workingDirectory := by
    rw [startOf, startOf, lies.absolute]
  have located' : d.locate .target parent = .ok place' := by
    rw [locate] at located ⊢
    split at located
    · cases located
    split at located
    · cases located
    next text =>
    split at located
    · cases located
    next short =>
    have size := encodeString_le_of_prefix lies.text
    rw [if_neg, if_neg, if_neg, begun, led]
    · omega
    · intro inside
      apply text
      rw [List.contains_iff_mem] at inside ⊢
      exact lies.text.subset inside
    · rw [List.isEmpty_iff, String.toList_eq_nil_iff]
      exact filled
  rw [present, lookup, find, located']
  simp only [bind, Except.bind, seen]
  cases place' <;> rfl

/-! ## What is at a path -/

/-- The bytes at a path that leads to a file. -/
def content (d : Disk) (path : Path) : Option (List UInt8) :=
  (d.read path (fun cause => cause) fun cause => cause).toOption

theorem content_eq_some_iff {bytes : List UInt8} :
    d.content path = some bytes ↔ ∃ id, d.lookup path = .ok (.file id) ∧ d.bytes id = bytes := by
  rw [content, Disk.read]
  constructor
  · intro held
    split at held
    · next id found => exact ⟨id, found, Option.some.inj held⟩
    · cases held
    · cases held
    · cases held
  · rintro ⟨id, found, rfl⟩
    rw [found]
    rfl

/-- A path whose directory is missing leads to no file. -/
theorem content_of_missing (lies : Path.LiesIn path parent) (filled : parent ≠ "")
    (missing : d.present parent = false) : d.content path = none := by
  rw [Option.eq_none_iff_forall_ne_some]
  intro bytes held
  obtain ⟨id, found, -⟩ := content_eq_some_iff.mp held
  rw [present_of_liesIn lies filled found] at missing
  cases missing

/-! ## Directories that are made -/

/-- All directories of a disk have a number below that of the next one, and lie in such. -/
structure IsGrounded (d : Disk) : Prop where
  working : workingDirectory < d.aboves.length
  above : ∀ id, d.above id < d.aboves.length
  places : ∀ named ∈ d.nodes, named.1.directory < d.aboves.length
  directories : ∀ named ∈ d.nodes, ∀ id, named.2 = .directory id → id < d.aboves.length

/-- Some first names of a path lead to a directory that nothing is in. -/
def OpensEmpty (d : Disk) (path : Path) : Prop :=
  ∃ n front rest id, Path.names path = front ++ rest ∧
    d.Goes n (startOf path workingDirectory, front) (id, []) ∧ ∀ name, d.node? ⟨id, name⟩ = none

variable {n : Nat} {p q : Position} {e : Entry} {node : Node}

theorem startOf_lt (grounded : d.IsGrounded) (inside : here < d.aboves.length) (path : Path) :
    startOf path here < d.aboves.length := by
  rw [startOf]
  split
  · exact Nat.lt_of_le_of_lt (Nat.zero_le _) grounded.working
  · exact inside

theorem mem_of_node? (held : d.node? e = some node) : (e, node) ∈ d.nodes := by
  obtain ⟨named, found, rfl⟩ := Option.map_eq_some_iff.mp held
  have same : named.1 = e := by simpa using List.find?_some found
  exact same ▸ List.mem_of_find?_eq_some found

theorem node?_eq_none (grounded : d.IsGrounded) (outside : d.aboves.length ≤ e.directory) :
    d.node? e = none := by
  rw [Option.eq_none_iff_forall_ne_some]
  intro node held
  exact Nat.not_lt_of_le outside (grounded.places _ (mem_of_node? held))

theorem lead_lt (grounded : d.IsGrounded) (inside : e.directory < d.aboves.length)
    (led : d.lead e = some q) : q.1 < d.aboves.length := by
  rw [lead] at led
  split at led
  · cases led
    exact inside
  split at led
  · cases led
    exact grounded.above _
  split at led
  · cases led
    exact startOf_lt grounded inside _
  · next held =>
    cases led
    exact grounded.directories _ (mem_of_node? held) _ rfl
  · cases led

theorem above_newDirectory (known : here < d.aboves.length) :
    (d.newDirectory e).above here = d.above here := by
  rw [Disk.above, Disk.newDirectory, List.getElem?_append_left known, Disk.above]

section NewDirectory

variable (grounded : d.IsGrounded) (inside : e.directory < d.aboves.length)

include grounded inside

theorem IsGrounded.newDirectory : (d.newDirectory e).IsGrounded := by
  have longer : (d.newDirectory e).aboves.length = d.aboves.length + 1 := List.length_append
  refine ⟨?_, ?_, ?_, ?_⟩
  · rw [longer]
    exact Nat.lt_succ_of_lt grounded.working
  · intro id
    rw [longer]
    rcases Nat.lt_trichotomy id d.aboves.length with known | rfl | beyond
    · rw [above_newDirectory known]
      exact Nat.lt_succ_of_lt (grounded.above id)
    · rw [Disk.above, Disk.newDirectory, List.getElem?_concat_length, Option.getD_some]
      exact Nat.lt_succ_of_lt inside
    · rw [Disk.above, List.getElem?_eq_none (by omega), Option.getD_none]
      exact Nat.succ_pos _
  · intro named among
    rw [longer]
    rcases List.mem_cons.mp among with rfl | among
    · exact Nat.lt_succ_of_lt inside
    · exact Nat.lt_succ_of_lt (grounded.places named (List.mem_filter.mp among).1)
  · intro named among id directory
    rw [longer]
    rcases List.mem_cons.mp among with rfl | among
    · cases directory
      exact Nat.lt_succ_self _
    · exact Nat.lt_succ_of_lt
        (grounded.directories named (List.mem_filter.mp among).1 id directory)

end NewDirectory

/-- Names go on to lead where they led. -/
theorem lead_newDirectory (missing : d.node? e = none) {other : Entry}
    (known : other.directory < d.aboves.length) (led : d.lead other = some q) :
    (d.newDirectory e).lead other = some q := by
  have kept : ∀ node, d.node? other = some node → (d.newDirectory e).node? other = some node := by
    intro node held
    have apart : other ≠ e := by
      rintro rfl
      cases missing.symm.trans held
    exact ((node?_put d e other _).trans (if_neg apart)).trans held
  rw [lead, above_newDirectory known]
  rw [lead] at led
  split at led
  · next dot => rw [if_pos dot, led]
  next noDot =>
  rw [if_neg noDot]
  split at led
  · next dots => rw [if_pos dots, led]
  next noDots =>
  rw [if_neg noDots]
  split at led
  · next link =>
    rw [kept _ link]
    exact led
  · next directory =>
    rw [kept _ directory]
    exact led
  · cases led

theorem Goes.newDirectory (grounded : d.IsGrounded) (missing : d.node? e = none)
    (goes : d.Goes n p q) (known : p.1 < d.aboves.length) : (d.newDirectory e).Goes n p q := by
  induction goes with
  | stay p => exact .stay p
  | @step n p q r stepped _ ih =>
    obtain ⟨here, names⟩ := p
    cases names with
    | nil => cases stepped
    | cons name rest =>
      obtain ⟨led, leads, rfl⟩ := Option.map_eq_some_iff.mp stepped
      have inside : led.1 < d.aboves.length := lead_lt grounded known leads
      refine .step ?_ (ih inside)
      rw [next, lead_newDirectory missing known leads, Option.map_some]

theorem Goes.lt (grounded : d.IsGrounded) (goes : d.Goes n p q) (known : p.1 < d.aboves.length) :
    q.1 < d.aboves.length := by
  induction goes with
  | stay => exact known
  | @step n p q r stepped _ ih =>
    obtain ⟨here, names⟩ := p
    cases names with
    | nil => cases stepped
    | cons name rest =>
      obtain ⟨led, leads, rfl⟩ := Option.map_eq_some_iff.mp stepped
      have inside : led.1 < d.aboves.length := lead_lt grounded known leads
      exact ih inside

theorem vacancy_inversion {isDirectory : Bool} (vacant : d.vacancy path isDirectory = .ok e) :
    ∃ slash, d.locate .entry path = .ok (.entry e slash) ∧ d.node? e = none := by
  obtain ⟨place, located, vacant⟩ := ok_of_bind vacant
  obtain ⟨found, seen, vacant⟩ := ok_of_bind vacant
  split at vacant
  · split at vacant
    · cases vacant
    · cases vacant
      exact ⟨_, located, look_entry seen⟩
  · cases vacant

/-- A directory that is made is empty. -/
theorem opensEmpty_of_makeDirectory (grounded : d.IsGrounded)
    (made : d.makeDirectory path = .ok d') : d'.IsGrounded ∧ d'.OpensEmpty path := by
  obtain ⟨e, vacant, rfl⟩ : ∃ e, d.vacancy path true = .ok e ∧ d.newDirectory e = d' := by
    rw [makeDirectory] at made
    cases vacant : d.vacancy path true with
    | error cause =>
      rw [vacant] at made
      cases made
    | ok e =>
      rw [vacant] at made
      exact ⟨e, rfl, Except.ok.inj made⟩
  obtain ⟨slash, located, missing⟩ := vacancy_inversion vacant
  have walked := walk_of_locate located
  obtain ⟨isName, -⟩ := goes_of_walk walked
  obtain ⟨-, ending, n, goes⟩ := goes_of_walk_entry walked
  have known := startOf_lt grounded grounded.working path
  have inside : e.directory < d.aboves.length := goes.lt grounded known
  refine ⟨grounded.newDirectory inside, ?_⟩
  obtain ⟨front, split⟩ := List.getLast?_eq_some_iff.mp ending
  have here : (d.newDirectory e).node? e = some (.directory d.aboves.length) :=
    (node?_put d e e _).trans (if_pos rfl)
  have way := (goes.newDirectory grounded missing known).append [e.name]
  have enters : (d.newDirectory e).Goes 1 (e.directory, [e.name]) (d.aboves.length, []) :=
    goes_directory isName here (.stay _)
  refine ⟨n + 1, Path.names path, [], d.aboves.length, (List.append_nil _).symm, ?_, ?_⟩
  · rw [split, List.dropLast_concat] at way
    rw [split]
    exact way.trans enters
  · intro name
    have apart : (⟨d.aboves.length, name⟩ : Entry) ≠ e := by
      rintro rfl
      exact Nat.lt_irrefl _ inside
    exact ((node?_put d e _ _).trans (if_neg apart)).trans
      (node?_eq_none grounded (Nat.le_refl _))

theorem OpensEmpty.of_liesIn (lies : Path.LiesIn path parent) (opens : d.OpensEmpty parent) :
    d.OpensEmpty path := by
  obtain ⟨n, front, rest, id, split, goes, empty⟩ := opens
  obtain ⟨more, -, named⟩ := lies.names
  refine ⟨n, front, rest ++ more, id, ?_, ?_, empty⟩
  · rw [named, split, List.append_assoc]
  · rwa [startOf, ← lies.absolute]

theorem ensureDirectoryWith_cases (grounded : d.IsGrounded) (refusal : Path → Option Cause)
    (path : Path) : (d.ensureDirectoryWith refusal path).2 = d ∨
      (d.ensureDirectoryWith refusal path).2.IsGrounded ∧
        (d.ensureDirectoryWith refusal path).2.OpensEmpty path := by
  rw [ensureDirectoryWith]
  split
  · next made => exact .inr (opensEmpty_of_makeDirectory grounded (ok_of_unlessRefused made))
  · exact .inl rfl

/-- The directories above a path that are made, be it only some of them, end in an empty one. -/
theorem ensureDirectoriesWith_cases (grounded : d.IsGrounded) (refusal : Path → Option Cause)
    (fuel : Nat) (path : Path) : (d.ensureDirectoriesWith refusal fuel path).2 = d ∨
      (d.ensureDirectoriesWith refusal fuel path).2.IsGrounded ∧
        (d.ensureDirectoriesWith refusal fuel path).2.OpensEmpty path := by
  induction fuel generalizing path with
  | zero => exact .inl rfl
  | succ fuel ih =>
    rw [ensureDirectoriesWith]
    split
    · exact .inl rfl
    split
    · next parent _ found =>
      -- An empty path has no directory to make, and any other one lies in its parent.
      have above : (d.ensureDirectoriesWith refusal fuel parent).2 = d ∨
          (d.ensureDirectoriesWith refusal fuel parent).2.IsGrounded ∧
            (d.ensureDirectoriesWith refusal fuel parent).2.OpensEmpty path := by
        by_cases filled : parent = ""
        · left
          subst filled
          cases fuel <;> rfl
        · rcases ih parent with same | ⟨grounded', opens⟩
          · exact .inl same
          · exact .inr ⟨grounded', opens.of_liesIn (Path.liesIn_of_parent? found filled)⟩
      split
      · next failed => rwa [failed] at above
      · next d₁ done =>
        rw [done] at above
        rcases above with rfl | ⟨grounded', opens⟩
        · exact ensureDirectoryWith_cases grounded refusal path
        · rcases ensureDirectoryWith_cases grounded' refusal path with same | made
          · rw [same]
            exact .inr ⟨grounded', opens⟩
          · exact .inr made
    · exact ensureDirectoryWith_cases grounded refusal path

/-- A walk that does not go up again from an empty directory ends at a name of nothing. -/
theorem Ends.missing (empty : ∀ name, d.node? ⟨here, name⟩ = none) (noDots : ".." ∉ rest)
    (ends : d.Ends n (here, rest) e) : d.node? e = none := by
  induction rest generalizing n with
  | nil =>
    cases ends.goes with
    | step stepped => cases stepped
  | cons name rest ih =>
    obtain ⟨other, noDots⟩ := not_or.mp (mt List.mem_cons.mpr noDots)
    obtain ⟨goes, stuck⟩ := ends
    by_cases dot : (name == ".") = true
    · cases goes with
      | stay =>
        rw [lead, if_pos dot] at stuck
        cases stuck
      | step stepped later =>
        rw [next, lead, if_pos dot] at stepped
        cases stepped
        exact ih noDots ⟨later, stuck⟩
    · have isName : IsName name := ⟨dot, fun dots => other (beq_iff_eq.mp dots).symm⟩
      cases goes with
      | stay => exact empty _
      | step stepped =>
        rw [next, lead_name isName, empty name] at stepped
        cases stepped

/-- A path that does not go up again from an empty directory leads to no file. -/
theorem content_of_opensEmpty (opens : d.OpensEmpty path) (noDots : ".." ∉ Path.names path) :
    d.content path = none := by
  rw [Option.eq_none_iff_forall_ne_some]
  intro bytes held
  obtain ⟨id, found, -⟩ := content_eq_some_iff.mp held
  obtain ⟨m, front, rest, here, split, goes, empty⟩ := opens
  obtain ⟨n, e, ends, -, file⟩ := ends_of_lookup found
  rw [split, List.mem_append, not_or] at noDots
  have way := goes.append rest
  rw [start, split] at ends
  obtain ⟨k, later⟩ := ends.of_goes way
  cases file.symm.trans (later.missing empty noDots.2)

end Disk

end ChassisCooling.Files
