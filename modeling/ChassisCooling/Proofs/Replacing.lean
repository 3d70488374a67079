import ChassisCooling.Proofs.Segments
import ChassisCooling.Proofs.Walks

/-! # Files that are replaced

A file is written under a name beside that of another one, and then given the other one's name. Who
opens the path afterwards opens the file that was written, by whatever links the path leads there,
and even if one of the two names is a link itself.
-/

namespace ChassisCooling.Files.Disk

open Calendar

variable {d d' d'' : Disk} {n m : Nat} {p q : Position} {e e' old new : Entry}
  {path source : Path} {place : Place} {id handle : FileId} {approach : Approach} {slash : Bool}

/-! ## Where paths lead -/

/-- Where the walk of a path begins. -/
def start (path : Path) : Position :=
  (startOf path workingDirectory, Path.names path)

theorem walk_of_locate (located : d.locate approach path = .ok place) :
    d.walk approach maxLinks (Path.endsInSlash path) (startOf path workingDirectory)
      (Path.names path) = .ok place := by
  rw [locate] at located
  split at located
  · cases located
  split at located
  · cases located
  split at located
  · cases located
  exact located

/-- A path that is a single name, to be found in the working directory. -/
structure IsSingle (path : Path) : Prop where
  names : Path.names path = [path]
  relative : Path.isAbsolute path = false
  unslashed : Path.endsInSlash path = false
  filled : path.toList.isEmpty = false
  text : path.toList.contains '\x00' = false
  short : (Text.Utf8.encodeString path).length < maxPath

theorem start_single (single : IsSingle path) : start path = (workingDirectory, [path]) := by
  rw [start, startOf, single.relative, single.names]
  rfl

theorem locate_single (single : IsSingle path) :
    d.locate approach path = d.walk approach maxLinks false workingDirectory [path] := by
  rw [locate, if_neg (Bool.eq_false_iff.mp single.filled), if_neg (Bool.eq_false_iff.mp single.text),
    if_neg (Nat.not_le_of_lt single.short), startOf, single.relative, single.unslashed, single.names]
  rfl

theorem stuck_of_file (isName : IsName e.name) (file : d.node? e = some (.file id)) :
    d.lead e = none := by
  rw [lead_name isName, file]

theorem stuck_of_missing (isName : IsName e.name) (missing : d.node? e = none) :
    d.lead e = none := by
  rw [lead_name isName, missing]

/-- A path that leads to a file ends at a name of that file. -/
theorem ends_of_lookup (found : d.lookup path = .ok (.file id)) :
    ∃ n e, d.Ends n (start path) e ∧ IsName e.name ∧ d.node? e = some (.file id) := by
  obtain ⟨place, located, found⟩ := ok_of_bind found
  obtain ⟨held, seen, found⟩ := ok_of_bind found
  cases place with
  | directory here =>
    cases seen
    cases found
  | entry e slash =>
    have file : d.node? e = some (.file id) := by
      rw [look_entry seen]
      split at found <;> cases found
      rfl
    obtain ⟨isName, n, goes⟩ := goes_of_walk (walk_of_locate located)
    exact ⟨n, e, ⟨goes, stuck_of_file isName file⟩, isName, file⟩

theorem extends_of_openAppend (opened : d.openAppend path = .ok (id, d')) : Extends d d' := by
  rcases openAppend_cases opened with ⟨e, slash, -, seen, made⟩ | ⟨e, slash, -, -, rfl⟩
  · obtain ⟨-, rfl⟩ := Prod.mk.inj made
    exact extends_newFile (look_entry seen)
  · exact .refl d'

/-- A path that leads to a file goes on to end there when names are added to the disk. -/
theorem ends_of_extends (extended : Extends d d') (found : d.lookup path = .ok (.file id)) :
    ∃ n e, d'.Ends n (start path) e := by
  obtain ⟨n, e, ends, isName, file⟩ := ends_of_lookup found
  exact ⟨n, e, ends.goes.extends extended, stuck_of_file isName (extended.kept e _ file)⟩

/-- A path that can be opened for writing ends at a name that stands for the file, or for nothing
yet. -/
theorem ends_of_openAppend (opened : d.openAppend path = .ok (id, d')) :
    ∃ n e, d.Ends n (start path) e ∧
      (d.node? e = none ∨ d.node? e = some (.file id) ∧ d' = d) := by
  rcases openAppend_cases opened with ⟨e, slash, located, seen, -⟩ | ⟨e, slash, located, seen, same⟩
  · obtain ⟨isName, n, goes⟩ := goes_of_walk (walk_of_locate located)
    have missing := look_entry seen
    exact ⟨n, e, ⟨goes, stuck_of_missing isName missing⟩, .inl missing⟩
  · obtain ⟨isName, n, goes⟩ := goes_of_walk (walk_of_locate located)
    have file := look_entry seen
    exact ⟨n, e, ⟨goes, stuck_of_file isName file⟩, .inr ⟨file, same⟩⟩

/-- Where a path leads to a file, that file is opened. -/
theorem opened_of_ends (ends : d.Ends n (start path) e) (file : d.node? e = some (.file id))
    (opened : d.openAppend path = .ok (handle, d')) : handle = id ∧ d' = d := by
  obtain ⟨m, e', ends', missing | ⟨file', same⟩⟩ := ends_of_openAppend opened
  · obtain ⟨-, rfl⟩ := ends.unique ends'
    cases missing.symm.trans file
  · obtain ⟨-, rfl⟩ := ends.unique ends'
    cases file'.symm.trans file
    exact ⟨rfl, same⟩

/-! ## Names that are moved -/

/-- What stood under one name now stands under another. Nothing is said of the first name. -/
structure Moved (d d' : Disk) (old new : Entry) : Prop where
  above : ∀ id, d'.above id = d.above id
  moved : d'.node? new = d.node? old
  others : ∀ e, e ≠ old → e ≠ new → d'.node? e = d.node? e

theorem node?_remove (d : Disk) (apart : e ≠ old) : (d.remove old).node? e = d.node? e := by
  rw [node?, remove, List.find?_filter, node?]
  congr 2
  funext named
  by_cases here : named.1 = e
  · simp [here, apart]
  · simp [here]

/-- A move takes what stood under one name, and puts it under the other, unless it stands there
already. -/
theorem moveName_inversion (done : d.moveName old new slash = .ok d') :
    slash = false ∧ ∃ node, d.node? old = some node ∧
      (d' = d ∧ d.node? new = some node ∨ d' = (d.remove old).put new node ∧ old ≠ new) := by
  obtain ⟨found, seen, done⟩ := ok_of_bind done
  split at done
  · cases done
  · cases done
  next node notDirectory =>
  obtain ⟨there, seen', done⟩ := ok_of_bind done
  split at done
  · cases done
  · cases done
  have held := look_entry seen
  refine ⟨rfl, node, held, ?_⟩
  obtain rfl := Except.ok.inj done
  split
  · next still =>
    refine .inl ⟨rfl, ?_⟩
    rcases still with rfl | ⟨-, same⟩
    · exact held
    · exact (look_entry seen').trans same
  · next moves => exact .inr ⟨rfl, fun same => moves (.inl same)⟩

theorem moved_of_moveName (done : d.moveName old new slash = .ok d') : Moved d d' old new := by
  obtain ⟨-, node, held, ⟨rfl, there⟩ | ⟨rfl, -⟩⟩ := moveName_inversion done
  · exact ⟨fun _ => rfl, there.trans held.symm, fun _ _ _ => rfl⟩
  · refine ⟨fun _ => rfl, ?_, fun e other other' => ?_⟩
    · rw [node?_put, if_pos rfl, held]
    · rw [node?_put, if_neg other', node?_remove d other]

theorem contents_of_moveName (done : d.moveName old new slash = .ok d') :
    d'.contents = d.contents := by
  obtain ⟨-, node, -, ⟨rfl, -⟩ | ⟨rfl, -⟩⟩ := moveName_inversion done
  all_goals rfl

/-- What is moved has a name of its own, and so has the place that it is moved to. -/
theorem rename_inversion (done : d.rename source path = .ok d') :
    ∃ old oldSlash new newSlash, d.locate .entry source = .ok (.entry old oldSlash) ∧
      d.locate .entry path = .ok (.entry new newSlash) ∧
      d.moveName old new (oldSlash || newSlash) = .ok d' := by
  obtain ⟨oldPlace, locatedOld, done⟩ := ok_of_bind done
  obtain ⟨newPlace, locatedNew, done⟩ := ok_of_bind done
  cases oldPlace with
  | directory => cases done
  | entry old oldSlash =>
    cases newPlace with
    | directory => cases done
    | entry new newSlash => exact ⟨old, oldSlash, new, newSlash, locatedOld, locatedNew, done⟩

/-- A path that has been moved goes through the names before its last one, and so does the path that
it was moved to. -/
theorem moved_of_rename (done : d.rename source path = .ok d') :
    ∃ old new, Moved d d' old new ∧ IsName old.name ∧ IsName new.name ∧
      Path.endsInSlash path = false ∧
      (Path.names source).getLast? = some old.name ∧ (Path.names path).getLast? = some new.name ∧
      (∃ n, d.Goes n (startOf source workingDirectory, (Path.names source).dropLast)
        (old.directory, [])) ∧
      ∃ n, d.Goes n (startOf path workingDirectory, (Path.names path).dropLast)
        (new.directory, []) := by
  obtain ⟨old, oldSlash, new, newSlash, locatedOld, locatedNew, done⟩ := rename_inversion done
  have walkedOld := walk_of_locate locatedOld
  have walkedNew := walk_of_locate locatedNew
  obtain ⟨-, lastOld, wayOld⟩ := goes_of_walk_entry walkedOld
  obtain ⟨rfl, lastNew, wayNew⟩ := goes_of_walk_entry walkedNew
  have unslashed := (Bool.or_eq_false_iff.mp (moveName_inversion done).1).2
  exact ⟨old, new, moved_of_moveName done, (goes_of_walk walkedOld).1, (goes_of_walk walkedNew).1,
    unslashed, lastOld, lastNew, wayOld, wayNew⟩

theorem Moved.lead_eq (moved : Moved d d' old new) (notOld : e ≠ old) (notNew : e ≠ new) :
    d'.lead e = d.lead e := by
  rw [lead, lead, moved.above, moved.others e notOld notNew]

theorem Moved.lead_new (moved : Moved d d' old new) (isOld : IsName old.name)
    (isNew : IsName new.name) (beside : new.directory = old.directory) :
    d'.lead new = d.lead old := by
  rw [lead_name isNew, lead_name isOld, moved.moved, beside]

/-- After a move a walk goes as before, unless it comes to one of the two names. -/
theorem Moved.goes_or_meets (moved : Moved d d' old new) (goes : d.Goes n p q) :
    d'.Goes n p q ∨ ∃ e k m rest, (e = old ∨ e = new) ∧ d.Goes k p (e.directory, e.name :: rest) ∧
      d'.Goes k p (e.directory, e.name :: rest) ∧
      d.Goes (m + 1) (e.directory, e.name :: rest) q := by
  induction goes with
  | stay p => exact .inl (.stay p)
  | @step n p p' q stepped others ih =>
    obtain ⟨here, names⟩ := p
    cases names with
    | nil => cases stepped
    | cons name rest =>
      by_cases met : (⟨here, name⟩ : Entry) = old ∨ (⟨here, name⟩ : Entry) = new
      · exact .inr ⟨⟨here, name⟩, 0, n, rest, met, .stay _, .stay _, .step stepped others⟩
      · obtain ⟨notOld, notNew⟩ := not_or.mp met
        have stepped' : d'.next (here, name :: rest) = some p' := by
          rw [next, moved.lead_eq notOld notNew]
          exact stepped
        rcases ih with goes | ⟨e, k, m, rest, met, before, after, later⟩
        · exact .inl (.step stepped' goes)
        · exact .inr ⟨e, k + 1, m, rest, met, .step stepped before, .step stepped' after, later⟩

/-! ## Opening what has been moved -/

section Replaced

variable {here : DirectoryId} {front : List String}

/-- A walk to an end that goes through a name of a file ends there. -/
theorem Ends.alone_of_met (endsOld : ∃ n f, d.Ends n (old.directory, [old.name]) f)
    (endsNew : ∃ n f, d.Ends n (new.directory, [new.name]) f) {met : Entry} {rest : List String}
    (isOne : met = old ∨ met = new) (ends : d.Ends n (met.directory, met.name :: rest) e) :
    rest = [] := by
  obtain ⟨m, f, alone⟩ : ∃ m f, d.Ends m (met.directory, [met.name]) f := by
    rcases isOne with rfl | rfl
    · exact endsOld
    · exact endsNew
  exact alone.alone ends

/-- The names before the last lead to the same directory as before, for what is moved are files, and
those are not on the way. -/
theorem Moved.goes_front (moved : Moved d d' old new)
    (endsOld : ∃ n f, d.Ends n (old.directory, [old.name]) f)
    (endsNew : ∃ n f, d.Ends n (new.directory, [new.name]) f)
    (goes : d.Goes n (here, front) (new.directory, [])) :
    d'.Goes n (here, front) (new.directory, []) := by
  rcases moved.goes_or_meets goes with goes' | ⟨met, k, m, rest, isOne, -, -, later⟩
  · exact goes'
  · obtain ⟨j, f, ends⟩ := endsNew
    have none := (ends.after (later.append [new.name])).alone_of_met endsOld ⟨j, f, ends⟩ isOne
    exact absurd (List.append_eq_nil_iff.mp none).2 (List.cons_ne_nil _ _)

/-- The path that was moved to leads to the file that was written. A link is no exception, as it is
followed from the same directory as before. -/
theorem Moved.ends_new (moved : Moved d d' old new) (isOld : IsName old.name)
    (isNew : IsName new.name) (beside : new.directory = old.directory)
    (ends : d.Ends n (old.directory, [old.name]) e) (file : d.node? e = some (.file id))
    (endsNew : ∃ n f, d.Ends n (new.directory, [new.name]) f)
    (reached : d'.Ends m (new.directory, [new.name]) e') :
    ∃ m f, d'.Ends m (new.directory, [new.name]) f ∧ d'.node? f = some (.file id) := by
  have same := moved.lead_new isOld isNew beside
  cases led : d.lead old with
  | none =>
    obtain ⟨-, rfl⟩ := ends.unique ⟨.stay _, led⟩
    exact ⟨0, new, ⟨.stay _, same.trans led⟩, moved.moved.trans file⟩
  | some q =>
    -- Both names lead to the same position, and neither walk comes back to where it began.
    have first : d.next (old.directory, [old.name]) = some q := by
      rw [next_name, led, Option.map_some, List.append_nil]
    have first' : d'.next (new.directory, [new.name]) = some q := by
      rw [next_name, same, led, Option.map_some, List.append_nil]
    obtain ⟨k, onward⟩ := ends.of_goes (.step first (.stay q))
    rcases moved.goes_or_meets onward.goes with goes | ⟨met, j, i, rest, isOne, before, after, later⟩
    · have notOld : e ≠ old := by
        rintro rfl
        exact ends.no_return (.step first onward.goes)
      have notNew : e ≠ new := by
        rintro rfl
        exact reached.no_return (.step first' goes)
      refine ⟨k + 1, e, ⟨.step first' goes, ?_⟩, (moved.others e notOld notNew).trans file⟩
      exact (moved.lead_eq notOld notNew).trans ends.stuck
    · have later : d.Ends (i + 1) (met.directory, met.name :: rest) e := ⟨later, ends.stuck⟩
      obtain rfl := later.alone_of_met ⟨n, e, ends⟩ endsNew isOne
      rcases isOne with rfl | rfl
      · exact (ends.no_return (.step first before)).elim
      · exact (reached.no_return (.step first' after)).elim

theorem start_eq_append {last : String} (ending : (Path.names path).getLast? = some last) :
    start path = (startOf path workingDirectory, (Path.names path).dropLast ++ [last]) := by
  obtain ⟨front, split⟩ := List.getLast?_eq_some_iff.mp ending
  rw [start, split, List.dropLast_concat]

/-- The path that another one was moved to leads to the file that the other one led to. -/
theorem opened_of_rename (beside : Path.Beside source path)
    (written : d.lookup source = .ok (.file id)) (held : ∃ n e, d.Ends n (start path) e)
    (done : d.rename source path = .ok d')
    (opened : d'.openAppend path = .ok (handle, d'')) : handle = id ∧ d'' = d' := by
  obtain ⟨old, new, moved, isOld, isNew, -, lastOld, lastNew, ⟨i, wayOld⟩, ⟨j, wayNew⟩⟩ :=
    moved_of_rename done
  have begun : startOf source workingDirectory = startOf path workingDirectory := by
    rw [startOf, startOf, beside.absolute]
  rw [begun, beside.front] at wayOld
  have together : new.directory = old.directory :=
    (Prod.mk.inj (wayNew.unique rfl wayOld rfl).2).1
  obtain ⟨n, e, ends, -, file⟩ := ends_of_lookup written
  obtain ⟨m, f, endsPath⟩ := held
  obtain ⟨k, g, endsAfter, -⟩ := ends_of_openAppend opened
  rw [start_eq_append lastOld, begun, beside.front] at ends
  rw [start_eq_append lastNew] at endsPath endsAfter
  obtain ⟨n', ends⟩ := ends.of_goes (wayOld.append [old.name])
  obtain ⟨m', endsPath⟩ := endsPath.of_goes (wayNew.append [new.name])
  have wayAfter := moved.goes_front ⟨n', e, ends⟩ ⟨m', f, endsPath⟩ wayNew
  obtain ⟨k', endsAfter⟩ := endsAfter.of_goes (wayAfter.append [new.name])
  obtain ⟨l, h, reached, there⟩ :=
    moved.ends_new isOld isNew together ends file ⟨m', f, endsPath⟩ endsAfter
  have whole := reached.after (wayAfter.append [new.name])
  rw [← start_eq_append lastNew] at whole
  exact opened_of_ends whole there opened

/-- A file that was written beside a path, and moved into its place, is the one that is opened
there. -/
theorem opened_of_replaced {ending : String} (segment : Path.IsSegment ending)
    (written : d.lookup (Path.withExtension path ending) = .ok (.file id))
    (held : ∃ n e, d.Ends n (start path) e)
    (done : d.rename (Path.withExtension path ending) path = .ok d')
    (opened : d'.openAppend path = .ok (handle, d'')) : handle = id ∧ d'' = d' := by
  obtain ⟨old, new, -, -, isNew, unslashed, -, last, -, -⟩ := moved_of_rename done
  have noDot : new.name ≠ "." := fun dot => isNew.noDot (beq_iff_eq.mpr dot)
  have beside := Path.beside_withExtension segment unslashed last noDot
  exact opened_of_rename beside written held done opened

end Replaced

end ChassisCooling.Files.Disk
