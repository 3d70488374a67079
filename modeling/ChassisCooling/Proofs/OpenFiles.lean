import ChassisCooling.Files.Disk
import ChassisCooling.Proofs.Calendar

/-! # Files that are open

A path that has been opened for writing leads to the open file as long as no name and no directory
changes, and what is written goes to the end of what is read there.
-/

namespace ChassisCooling.Files.Disk

open Calendar

/-- Whatever a disk holds another one holds too, and where the first has nothing the other has no
link. -/
structure Extends (d d' : Disk) : Prop where
  above : ∀ id, d'.above id = d.above id
  kept : ∀ e node, d.node? e = some node → d'.node? e = some node
  links : ∀ e target, d'.node? e = some (.symlink target) → d.node? e ≠ none

variable {d d' : Disk} {path : Path} {place : Place} {id other : FileId} {links : Nat}
  {slash : Bool} {here : DirectoryId} {names : List String} {node : Node} {approach : Approach}

theorem Extends.look (extended : Extends d d') (seen : d.look place = .ok (some node)) :
    d'.look place = .ok (some node) := by
  cases place with
  | directory id => exact seen
  | entry e slash =>
    rw [Disk.look] at seen ⊢
    split at seen
    · cases seen
    · next short =>
      rw [if_neg short, extended.kept e node (Except.ok.inj seen)]

theorem Extends.look_ne_link (extended : Extends d d') {found : Option Node}
    (seen : d.look place = .ok found) (noLink : ∀ target, found ≠ some (.symlink target)) :
    ∃ found', d'.look place = .ok found' ∧ ∀ target, found' ≠ some (.symlink target) := by
  cases place with
  | directory id => exact ⟨found, seen, noLink⟩
  | entry e slash =>
    rw [Disk.look] at seen ⊢
    split at seen
    · cases seen
    · next short =>
      rw [if_neg short]
      refine ⟨_, rfl, fun target link => ?_⟩
      cases held : d.node? e with
      | none => exact extended.links e target link held
      | some node =>
        rw [extended.kept e node held] at link
        rw [held] at seen
        exact noLink target ((Except.ok.inj seen).symm.trans link)

/-- A name that is no dot is looked up. -/
theorem walk_target {name : String} {rest : List String} (noDot : ¬ (name == ".") = true)
    (noDots : ¬ (name == "..") = true) {found : Option Node}
    (seen : d.look (.entry ⟨here, name⟩ slash) = .ok found) :
    d.walk .target links slash here (name :: rest) =
      match found with
      | some (.symlink target) =>
        match links with
        | 0 => .error .tooManyLinks
        | links + 1 =>
          d.walk .target links (slash || rest.isEmpty && Path.endsInSlash target)
            (startOf target here) (Path.names target ++ rest)
      | found =>
        if rest.isEmpty then .ok (.entry ⟨here, name⟩ slash)
        else match found with
        | some (.directory id) => d.walk .target links slash id rest
        | some _ => .error .notDirectory
        | none => .error .noEntry := by
  have asEntry : (rest.isEmpty && Approach.target == .entry) = false := by
    rw [show (Approach.target == .entry) = false from rfl, Bool.and_false]
  have asFile : (rest.isEmpty && Approach.target == .file && slash) = false := by
    rw [show (Approach.target == .file) = false from rfl, Bool.and_false, Bool.false_and]
  rw [Disk.walk, if_neg noDot, if_neg noDots]
  simp only [asEntry, asFile, seen, Bool.false_eq_true, ↓reduceIte, Approach.followsLast,
    Bool.not_true, Bool.and_false]
  rcases found with _ | _ | _ | _ | _ <;> rfl

theorem walk_of_file (extended : Extends d d')
    (found : d.walk .file links slash here names = .ok place) :
    d'.walk .target links slash here names = .ok place ∧
      ∀ e slash, place = .entry e slash → slash = false := by
  fun_induction Disk.walk d .file links slash here names with
  | case1 links slash here =>
    cases found
    rw [Disk.walk]
    exact ⟨rfl, nofun⟩
  | case2 links slash here name rest dot ih =>
    rw [Disk.walk, if_pos dot]
    exact ih found
  | case3 links slash here name rest notDot dots ih =>
    rw [Disk.walk, if_neg notDot, if_pos dots, extended.above]
    exact ih found
  | case4 links slash here name rest last _ _ _ asEntry =>
    rw [show (Approach.file == .entry) = false from rfl, Bool.and_false] at asEntry
    cases asEntry
  | case7 links slash here name rest last _ _ _ _ _ target _ stays =>
    rw [show Approach.file.followsLast slash = true from rfl, Bool.not_true,
      Bool.and_false] at stays
    cases stays
  | case9 slash here name rest last place' noDot noDots _ _ target seen _ links slash' ih =>
    rw [walk_target noDot noDots (extended.look seen)]
    exact ih found
  | case10 links slash here name rest last place' noDot noDots _ asFile held noLink seen ends =>
    obtain ⟨held', seen', noLink'⟩ :=
      extended.look_ne_link seen fun target link => noLink target link
    rw [← Except.ok.inj found, walk_target noDot noDots seen']
    constructor
    · split
      · next link => exact absurd rfl (noLink' _)
      · exact if_pos ends
    · intro e slash' same
      obtain ⟨-, rfl⟩ := Place.entry.inj same
      cases slash with
      | false => rfl
      | true => exact absurd (by rw [ends]; rfl) asFile
  | case11 links slash here name rest last place' noDot noDots _ _ goesOn id _ seen ih =>
    rw [walk_target noDot noDots (extended.look seen)]
    obtain ⟨reached, unslashed⟩ := ih found
    refine ⟨?_, unslashed⟩
    exact (if_neg goesOn).trans reached
  | case5 | case6 | case8 | case12 | case13 => cases found

theorem locate_of_file (extended : Extends d d') (found : d.locate .file path = .ok place) :
    d'.locate .target path = .ok place ∧ ∀ e slash, place = .entry e slash → slash = false := by
  rw [locate] at found ⊢
  split at found
  · cases found
  next filled =>
  split at found
  · cases found
  next text =>
  split at found
  · cases found
  next short =>
  rw [if_neg filled, if_neg text, if_neg short]
  exact walk_of_file extended found

theorem node?_put (d : Disk) (e other : Entry) (node : Node) :
    (d.put e node).node? other = if other = e then some node else d.node? other := by
  rw [node?, put, List.find?_cons]
  split
  · next same => rw [if_pos (beq_iff_eq.mp same).symm, Option.map_some]
  · next different =>
    have apart : e ≠ other := beq_eq_false_iff_ne.mp different
    rw [if_neg (Ne.symm apart), List.find?_filter, node?]
    congr 2
    funext named
    by_cases here : named.1 = other
    · simp [here, Ne.symm apart]
    · simp [here]

/-- Opening a file for writing makes it, or finds it. -/
theorem openAppend_cases (opened : d.openAppend path = .ok (id, d')) :
    (∃ e slash, d.locate .file path = .ok (.entry e slash) ∧
      d.look (.entry e slash) = .ok none ∧ (id, d') = d.newFile e) ∨
    (∃ e slash, d.locate .file path = .ok (.entry e slash) ∧
      d.look (.entry e slash) = .ok (some (.file id)) ∧ d' = d) := by
  obtain ⟨place, located, opened⟩ := ok_of_bind opened
  obtain ⟨found, seen, opened⟩ := ok_of_bind opened
  split at opened
  · cases opened
    exact .inl ⟨_, _, located, seen, rfl⟩
  · cases opened
    cases place with
    | directory here => cases seen
    | entry e slash => exact .inr ⟨e, slash, located, seen, rfl⟩
  · cases opened
  · cases opened

theorem look_entry {e : Entry} {found : Option Node} (seen : d.look (.entry e slash) = .ok found) :
    d.node? e = found := by
  rw [look] at seen
  split at seen
  · cases seen
  · exact Except.ok.inj seen

/-- Names and directories are all that a path depends on. -/
theorem Extends.congr {d₂ : Disk} (extended : Extends d d') (aboves : d₂.aboves = d'.aboves)
    (nodes : d₂.nodes = d'.nodes) : Extends d d₂ := by
  have above : ∀ id, d₂.above id = d'.above id := fun id => by rw [Disk.above, aboves, Disk.above]
  have node : ∀ e, d₂.node? e = d'.node? e := fun e => by rw [node?, nodes, node?]
  refine ⟨fun id => (above id).trans (extended.above id), fun e held there => ?_,
    fun e target link => ?_⟩
  · rw [node, extended.kept e held there]
  · exact extended.links e target (node e ▸ link)

theorem Extends.refl (d : Disk) : Extends d d :=
  ⟨fun _ => rfl, fun _ _ held => held, fun e target link missing => by
    rw [link] at missing
    cases missing⟩

theorem extends_newFile {e : Entry} (missing : d.node? e = none) : Extends d (d.newFile e).2 := by
  have node : ∀ other, (d.newFile e).2.node? other =
      if other = e then some (.file d.contents.length) else d.node? other :=
    fun other => node?_put d e other _
  refine ⟨fun _ => rfl, fun other held there => ?_, fun other target link => ?_⟩
  · have apart : other ≠ e := by
      rintro rfl
      rw [missing] at there
      cases there
    rw [node, if_neg apart, there]
  · rw [node] at link
    split at link
    · cases link
    · rw [link]
      nofun

/-- A file that has been opened for writing is what its path leads to. -/
theorem lookup_of_openAppend {d₂ : Disk} (opened : d.openAppend path = .ok (id, d'))
    (aboves : d₂.aboves = d'.aboves) (nodes : d₂.nodes = d'.nodes) :
    d₂.lookup path = .ok (.file id) := by
  have held : ∃ e slash, d.locate .file path = .ok (.entry e slash) ∧ Extends d d' ∧
      d'.look (.entry e slash) = .ok (some (.file id)) := by
    rcases openAppend_cases opened with
      ⟨e, slash, located, seen, made⟩ | ⟨e, slash, located, seen, rfl⟩
    · obtain ⟨rfl, rfl⟩ := Prod.mk.inj made
      refine ⟨e, slash, located, extends_newFile (look_entry seen), ?_⟩
      rw [look] at seen ⊢
      split at seen
      · cases seen
      · next short =>
        have placed : (d.newFile e).2.node? e = some (.file d.contents.length) :=
          (node?_put d e e _).trans (if_pos rfl)
        rw [if_neg short]
        exact congrArg Except.ok placed
    · exact ⟨e, slash, located, .refl d', seen⟩
  obtain ⟨e, slash, located, extended, seen⟩ := held
  obtain ⟨located, unslashed⟩ := locate_of_file (extended.congr aboves nodes) located
  obtain rfl := unslashed e slash rfl
  have same : Extends d' d₂ := (Extends.refl d').congr aboves nodes
  rw [lookup, find, located]
  simp only [bind, Except.bind, same.look seen]

/-! ## What paths depend on -/

theorem look_congr (nodes : d'.nodes = d.nodes) (place : Place) : d'.look place = d.look place := by
  cases place with
  | directory id => rfl
  | entry e slash => rw [look, look, node?, nodes, node?]

/-- Names and directories are all that a walk depends on. -/
theorem walk_congr (aboves : d'.aboves = d.aboves) (nodes : d'.nodes = d.nodes) :
    d'.walk approach links slash here names = d.walk approach links slash here names := by
  have above : ∀ id, d'.above id = d.above id := fun id => by rw [Disk.above, aboves, Disk.above]
  have look := look_congr nodes
  fun_induction Disk.walk d approach links slash here names with
  | case1 => rw [Disk.walk]
  | case2 _ _ _ _ _ dot ih => rw [Disk.walk, if_pos dot, ih]
  | case3 _ _ _ _ _ noDot dots ih => rw [Disk.walk, if_neg noDot, if_pos dots, above, ih]
  | case4 | case5 | case6 | case7 | case8 | case9 | case10 | case11 | case12 | case13 =>
    rw [Disk.walk]
    grind

theorem locate_congr (aboves : d'.aboves = d.aboves) (nodes : d'.nodes = d.nodes) :
    d'.locate approach path = d.locate approach path := by
  simp only [locate, walk_congr aboves nodes]

theorem lookup_congr (aboves : d'.aboves = d.aboves) (nodes : d'.nodes = d.nodes) :
    d'.lookup path = d.lookup path := by
  simp only [lookup, find, locate_congr aboves nodes, look_congr nodes]

/-! ## Files that are found -/

/-- A slash that has been seen is not forgotten. -/
theorem slash_of_walk {e : Entry} {slash' : Bool} (slashed : slash = true)
    (walked : d.walk approach links slash here names = .ok (.entry e slash')) : slash' = true := by
  fun_induction Disk.walk d approach links slash here names with
  | case2 _ _ _ _ _ _ ih | case3 _ _ _ _ _ _ _ ih => exact ih slashed walked
  | case9 _ _ _ _ _ _ _ _ _ _ _ _ _ _ slash₁ ih =>
    refine ih ?_ walked
    rw [show slash₁ = (_ || _) from rfl, slashed, Bool.true_or]
  | case11 _ _ _ _ _ _ _ _ _ _ _ _ _ _ _ ih => exact ih slashed walked
  | case4 | case7 | case10 => exact (Place.entry.inj (Except.ok.inj walked)).2 ▸ slashed
  | case1 | case5 | case6 | case8 | case12 | case13 => cases walked

/-- A name that no slash follows is found for writing as it is for reading. -/
theorem walk_file_of_target {e : Entry}
    (walked : d.walk .target links slash here names = .ok (.entry e false)) :
    d.walk .file links slash here names = .ok (.entry e false) := by
  fun_induction Disk.walk d .target links slash here names with
  | case2 _ _ _ _ _ dot ih =>
    rw [Disk.walk, if_pos dot]
    exact ih walked
  | case3 _ _ _ _ _ noDot dots ih =>
    rw [Disk.walk, if_neg noDot, if_pos dots]
    exact ih walked
  | case9 | case10 | case11 =>
    -- What is found for reading would be refused behind a slash, which would still be there.
    rw [Disk.walk]
    grind [slash_of_walk, Approach.followsLast]
  | case4 | case5 | case7 => grind [Approach.followsLast]
  | case1 | case6 | case8 | case12 | case13 => cases walked

theorem locate_file_of_target {e : Entry} (found : d.locate .target path = .ok (.entry e false)) :
    d.locate .file path = .ok (.entry e false) := by
  rw [locate] at found ⊢
  split at found
  · cases found
  next filled =>
  split at found
  · cases found
  next text =>
  split at found
  · cases found
  next short =>
  rw [if_neg filled, if_neg text, if_neg short]
  exact walk_file_of_target found

theorem entry_of_lookup (found : d.lookup path = .ok (.file id)) :
    ∃ e, d.locate .file path = .ok (.entry e false) ∧
      d.look (.entry e false) = .ok (some (.file id)) := by
  obtain ⟨place, located, found⟩ := ok_of_bind found
  obtain ⟨held, seen, found⟩ := ok_of_bind found
  cases place with
  | directory here =>
    cases seen
    cases found
  | entry e slash =>
    cases slash with
    | true => rcases held with _ | _ | _ | _ | _ <;> cases found
    | false =>
      have file : held = some (.file id) := by
        rcases held with _ | _ | _ | _ | _ <;> cases found
        rfl
      exact ⟨e, locate_file_of_target located, file ▸ seen⟩

/-- A file that a path leads to is the one that is opened there. -/
theorem openAppend_of_lookup (found : d.lookup path = .ok (.file id)) :
    d.openAppend path = .ok (id, d) := by
  obtain ⟨e, located, seen⟩ := entry_of_lookup found
  rw [openAppend, located]
  simp only [bind, Except.bind, seen]

/-- A path goes on to lead to a file when names are added. -/
theorem lookup_of_extends (extended : Extends d d') (found : d.lookup path = .ok (.file id)) :
    d'.lookup path = .ok (.file id) := by
  obtain ⟨e, located, seen⟩ := entry_of_lookup found
  rw [lookup, find, (locate_of_file extended located).1]
  simp only [bind, Except.bind, extended.look seen]

/-! ## What is written -/

/-- Whatever a name stands for as a file is a file of the disk. -/
def IsSound (d : Disk) : Prop :=
  ∀ named ∈ d.nodes, ∀ id, named.2 = .file id → id < d.contents.length

theorem IsSound.newDirectory (sound : d.IsSound) (e : Entry) : (d.newDirectory e).IsSound := by
  intro named among id file
  rcases List.mem_cons.mp among with rfl | among
  · cases file
  · exact sound named (List.mem_filter.mp among).1 id file

theorem IsSound.makeDirectory (sound : d.IsSound) (made : d.makeDirectory path = .ok d') :
    d'.IsSound := by
  rw [Disk.makeDirectory] at made
  cases vacant : d.vacancy path true with
  | error cause =>
    rw [vacant] at made
    cases made
  | ok e =>
    rw [vacant] at made
    cases made
    exact sound.newDirectory e

theorem ok_of_unlessRefused {α : Type} {refusal : Option Cause} {result : Except Cause α} {a : α}
    (done : unlessRefused refusal result = .ok a) : result = .ok a := by
  cases refusal with
  | none => exact done
  | some cause => cases done

theorem IsSound.ensureDirectoryWith (sound : d.IsSound) (refusal : Path → Option Cause)
    (path : Path) : (d.ensureDirectoryWith refusal path).2.IsSound := by
  rw [Disk.ensureDirectoryWith]
  split
  · next made => exact sound.makeDirectory (ok_of_unlessRefused made)
  · exact sound

theorem IsSound.ensureDirectoriesWith (sound : d.IsSound) (refusal : Path → Option Cause)
    (fuel : Nat) (path : Path) : (d.ensureDirectoriesWith refusal fuel path).2.IsSound := by
  induction fuel generalizing path with
  | zero => exact sound
  | succ fuel ih =>
    rw [Disk.ensureDirectoriesWith]
    split
    · exact sound
    split
    · next parent _ _ =>
      have above := ih parent
      split
      · next failed => rwa [failed] at above
      · next done =>
        rw [done] at above
        exact above.ensureDirectoryWith refusal path
    · exact sound.ensureDirectoryWith refusal path

theorem IsSound.ensurePath (sound : d.IsSound) (made : d.ensurePath path = .ok d') :
    d'.IsSound := by
  have all := sound.ensureDirectoriesWith (fun _ => none) (path.length + 1) path
  rw [Disk.ensurePath, ensurePathWith] at made
  generalize d.ensureDirectoriesWith (fun _ => none) (path.length + 1) path = outcome at made all
  obtain ⟨result, there⟩ := outcome
  cases result with
  | error cause => cases made
  | ok done =>
    cases made
    exact all

theorem lt_of_openAppend (sound : d.IsSound) (opened : d.openAppend path = .ok (id, d')) :
    id < d'.contents.length := by
  rcases openAppend_cases opened with ⟨e, slash, -, -, made⟩ | ⟨e, slash, -, seen, rfl⟩
  · obtain ⟨rfl, rfl⟩ := Prod.mk.inj made
    simp
  · obtain ⟨named, found, same⟩ := Option.map_eq_some_iff.mp (look_entry seen)
    exact sound named (List.mem_of_find?_eq_some found) id same

/-- What has been written before, and a further piece. -/
theorem bytes_appendTo {bytes : List UInt8} (held : id < d.contents.length) :
    (d.appendTo id bytes).bytes id = d.bytes id ++ bytes := by
  have piece : (d.appendTo id bytes).written id = bytes :: d.written id := by
    rw [written, appendTo, List.getElem?_set_self held]
    rfl
  rw [Disk.bytes, piece, List.reverse_cons, List.flatten_append, List.flatten_singleton, Disk.bytes]

theorem refusedByte?_inversion {refusal : Nat → Option Cause} {size index : Nat} {cause : Cause}
    (refused : refusedByte? refusal size = some (index, cause)) :
    index < size ∧ refusal index = some cause := by
  obtain ⟨place, among, refused⟩ := List.exists_of_findSome?_eq_some refused
  obtain ⟨reason, refused, same⟩ := Option.map_eq_some_iff.mp refused
  cases same
  exact ⟨List.mem_range.mp among, refused⟩

theorem refusedByte?_eq_none {refusal : Nat → Option Cause} (size : Nat)
    (accepted : ∀ index, refusal index = none) : refusedByte? refusal size = none := by
  rw [refusedByte?, List.findSome?_eq_none_iff]
  intro index _
  rw [accepted, Option.map_none]

theorem refusedByte?_eq_some {refusal : Nat → Option Cause} {size index : Nat} {cause : Cause}
    (inside : index < size) (before : ∀ other, other < index → refusal other = none)
    (refused : refusal index = some cause) : refusedByte? refusal size = some (index, cause) := by
  obtain ⟨later, rfl⟩ := Nat.exists_eq_add_of_lt inside
  rw [refusedByte?, Nat.add_assoc, List.range_add, List.findSome?_append,
    List.range_succ_eq_map, List.map_cons, List.findSome?_cons, Nat.add_zero, refused]
  have none : (List.range index).findSome?
      (fun other => (refusal other).map fun cause => (other, cause)) = none := by
    rw [List.findSome?_eq_none_iff]
    intro other among
    rw [before other (List.mem_range.mp among), Option.map_none]
  rw [none]
  rfl

/-- A write that fails has written what stands before a byte that is refused. -/
theorem writeTo_inversion {refusal : Nat → Option Cause} {bytes : List UInt8} {cause : Cause}
    (failed : d.writeTo refusal id bytes = (some cause, d')) :
    ∃ index < bytes.length, refusal index = some cause ∧
      d' = d.appendTo id (bytes.take index) := by
  rw [writeTo] at failed
  split at failed
  · next index reason refused =>
    cases failed
    obtain ⟨inside, refused⟩ := refusedByte?_inversion refused
    exact ⟨index, inside, refused, rfl⟩
  · cases failed

theorem eq_of_writeTo {refusal : Nat → Option Cause} {bytes : List UInt8}
    (done : d.writeTo refusal id bytes = (none, d')) : d' = d.appendTo id bytes := by
  rw [writeTo] at done
  split at done
  · cases done
  · exact (Prod.mk.inj done).2.symm

theorem writeTo_accepted {refusal : Nat → Option Cause} (accepted : ∀ index, refusal index = none)
    (d : Disk) (id : FileId) (bytes : List UInt8) :
    d.writeTo refusal id bytes = (none, d.appendTo id bytes) := by
  rw [writeTo, refusedByte?_eq_none bytes.length accepted]

theorem writeTo_refused {refusal : Nat → Option Cause} {bytes : List UInt8} {index : Nat}
    {cause : Cause} (inside : index < bytes.length)
    (before : ∀ other, other < index → refusal other = none) (refused : refusal index = some cause)
    (d : Disk) (id : FileId) :
    d.writeTo refusal id bytes = (some cause, d.appendTo id (bytes.take index)) := by
  rw [writeTo, refusedByte?_eq_some inside before refused]

/-- A file that is written anew is empty at first. -/
theorem bytes_of_create_self (sound : d.IsSound) (created : d.create path = .ok (id, d')) :
    id < d'.contents.length ∧ d'.bytes id = [] := by
  obtain ⟨⟨id', d₀⟩, opened, cleared⟩ := ok_of_bind created
  cases cleared
  have held := lt_of_openAppend sound opened
  refine ⟨Nat.lt_of_lt_of_eq held List.length_set.symm, ?_⟩
  rw [Disk.bytes, written, clear, List.getElem?_set_self held]
  rfl

/-! ## What is left alone -/

theorem length_newFile (d : Disk) (e : Entry) :
    (d.newFile e).2.contents.length = d.contents.length + 1 :=
  List.length_append

theorem bytes_appendTo_of_ne {bytes : List UInt8} (apart : other ≠ id) :
    (d.appendTo id bytes).bytes other = d.bytes other := by
  rw [Disk.bytes, written, appendTo, List.getElem?_set_ne (Ne.symm apart), Disk.bytes, written]

theorem bytes_clear_of_ne (apart : other ≠ id) : (d.clear id).bytes other = d.bytes other := by
  rw [Disk.bytes, written, clear, List.getElem?_set_ne (Ne.symm apart), Disk.bytes, written]

theorem bytes_newFile {e : Entry} (held : other < d.contents.length) :
    (d.newFile e).2.bytes other = d.bytes other := by
  rw [Disk.bytes, written, newFile, List.getElem?_append_left held, Disk.bytes, written]

/-- A file that is written anew is the only one that changes. -/
theorem bytes_of_create (created : d.create path = .ok (id, d'))
    (held : other < d.contents.length) (apart : other ≠ id) : d'.bytes other = d.bytes other := by
  obtain ⟨⟨id', d₀⟩, opened, cleared⟩ := ok_of_bind created
  cases cleared
  rw [bytes_clear_of_ne apart]
  rcases openAppend_cases opened with ⟨e, slash, -, -, made⟩ | ⟨e, slash, -, -, rfl⟩
  · obtain ⟨-, rfl⟩ := Prod.mk.inj made
    exact bytes_newFile held
  · rfl

theorem length_le_of_create (created : d.create path = .ok (id, d')) :
    d.contents.length ≤ d'.contents.length := by
  obtain ⟨⟨id', d₀⟩, opened, cleared⟩ := ok_of_bind created
  cases cleared
  rw [clear, List.length_set]
  rcases openAppend_cases opened with ⟨e, slash, -, -, made⟩ | ⟨e, slash, -, -, rfl⟩
  · obtain ⟨-, rfl⟩ := Prod.mk.inj made
    exact Nat.le_trans (Nat.le_succ _) (Nat.le_of_eq (length_newFile d e).symm)
  · exact Nat.le_refl _

end ChassisCooling.Files.Disk
