import ChassisCooling.Proofs.Replacing

/-! # What a path depends on

A path depends on the names that its walk comes by. Those that it does not come by can be given to
other nodes, and the path leads where it led. A path that a file is moved to leads to that file then,
unless the way that led to the file came by the name that it is moved to.
-/

namespace ChassisCooling.Files.Disk

open Calendar

variable {d d' : Disk} {n m : Nat} {p q r : Position} {e f old new : Entry}
  {here there : DirectoryId} {name : String} {names front rest : List String} {path source : Path}
  {place : Place} {id : FileId} {approach : Approach} {links : Nat} {slash : Bool}

/-- The walk from a position comes by a name. -/
def ComesBy (d : Disk) (p : Position) (e : Entry) : Prop :=
  ∃ n rest, d.Goes n p (e.directory, e.name :: rest)

theorem ComesBy.after (goes : d.Goes n p q) (later : d.ComesBy q e) : d.ComesBy p e := by
  obtain ⟨m, rest, onward⟩ := later
  exact ⟨n + m, rest, goes.trans onward⟩

theorem comesBy_here (d : Disk) (here : DirectoryId) (name : String) (rest : List String) :
    d.ComesBy (here, name :: rest) ⟨here, name⟩ :=
  ⟨0, rest, .stay _⟩

theorem ComesBy.append (comes : d.ComesBy p e) (rest : List String) :
    d.ComesBy (p.1, p.2 ++ rest) e := by
  obtain ⟨n, others, goes⟩ := comes
  exact ⟨n, others ++ rest, goes.append rest⟩

/-- A walk to a position that leads no further goes on to it from wherever it comes by. -/
theorem Goes.onward (goes : d.Goes n p q) (stuck : d.next q = none) (other : d.Goes m p r) :
    ∃ k, d.Goes k r q := by
  induction other generalizing n with
  | stay => exact ⟨n, goes⟩
  | step stepped _ ih =>
    cases goes with
    | stay => cases stuck.symm.trans stepped
    | step stepped' later =>
      obtain rfl := Option.some.inj (stepped.symm.trans stepped')
      exact ih later

/-- What a walk comes by is on the way of its first names, or behind them. -/
theorem ComesBy.cases_append (goes : d.Goes n p (here, []))
    (comes : d.ComesBy (p.1, p.2 ++ rest) e) : d.ComesBy p e ∨ d.ComesBy (here, rest) e := by
  generalize ended : (here, ([] : List String)) = q at goes
  induction goes with
  | stay =>
    subst ended
    exact .inr comes
  | @step n p p' q stepped _ ih =>
    obtain ⟨begun, names⟩ := p
    obtain ⟨there, called⟩ := e
    obtain ⟨m, others, walk⟩ := comes
    cases names with
    | nil => cases stepped
    | cons name names =>
      cases walk with
      | stay => exact .inl (comesBy_here ..)
      | step stepped' later =>
        obtain rfl := Option.some.inj ((next_append stepped rest).symm.trans stepped')
        exact (ih ⟨_, _, later⟩ ended).imp_left fun later => later.after (.step stepped (.stay _))

/-- A walk that comes back to where it began, whatever it has still to follow there, comes to no
end. -/
theorem Ends.no_growth (ends : d.Ends n (here, name :: rest) e) {more : List String}
    (back : d.Goes (m + 1) (here, [name]) (here, name :: more)) : False := by
  induction n using Nat.strongRecOn generalizing rest with
  | ind n shorter =>
    have later := back.append rest
    obtain ⟨k, onward⟩ := ends.goes.onward (ends.next_eq []) later
    have same := ((later.trans onward).unique (ends.next_eq []) ends.goes (ends.next_eq [])).1
    exact shorter k (by omega) ⟨onward, ends.stuck⟩

/-! ## Walks that come by the same nodes -/

/-- Another disk has the nodes of this one wherever the walk from a position comes by. -/
structure Agrees (d d' : Disk) (p : Position) : Prop where
  above : ∀ id, d'.above id = d.above id
  nodes : ∀ e, d.ComesBy p e → IsName e.name → d'.node? e = d.node? e

namespace Agrees

theorem refl (d : Disk) (p : Position) : d.Agrees d p :=
  ⟨fun _ => rfl, fun _ _ _ => rfl⟩

theorem after (agrees : d.Agrees d' p) (goes : d.Goes n p q) : d.Agrees d' q :=
  ⟨agrees.above, fun e later isName => agrees.nodes e (later.after goes) isName⟩

theorem look (agrees : d.Agrees d' p) (comes : d.ComesBy p e) (isName : IsName e.name)
    (slash : Bool) : d'.look (.entry e slash) = d.look (.entry e slash) := by
  rw [Disk.look, Disk.look, agrees.nodes e comes isName]

/-- The names that a walk comes by are all that it depends on. -/
theorem walk (agrees : d.Agrees d' (here, names)) :
    d'.walk approach links slash here names = d.walk approach links slash here names := by
  fun_induction Disk.walk d approach links slash here names with
  | case1 => rw [Disk.walk]
  | case2 links slash here name rest dot ih =>
    rw [Disk.walk, if_pos dot]
    apply ih
    exact agrees.after (goes_dot dot (.stay _))
  | case3 links slash here name rest noDot dots ih =>
    rw [Disk.walk, if_neg noDot, if_pos dots, agrees.above]
    apply ih
    exact agrees.after (goes_dots noDot dots (.stay _))
  | case9 slash here name rest last place noDot noDots _ _ target seen _ links slash₁ ih =>
    have isName : IsName name := ⟨noDot, noDots⟩
    have looked := agrees.look (comesBy_here d here name rest) isName slash
    have onward := ih (agrees.after (goes_link isName (look_entry seen) (.stay _)))
    rw [Disk.walk]
    grind
  | case11 links slash here name rest last place noDot noDots _ _ goesOn id _ seen ih =>
    have isName : IsName name := ⟨noDot, noDots⟩
    have looked := agrees.look (comesBy_here d here name rest) isName slash
    have onward := ih (agrees.after (goes_directory isName (look_entry seen) (.stay _)))
    rw [Disk.walk]
    grind
  | case4 | case5 =>
    rw [Disk.walk]
    grind
  | case6 links slash here name rest | case7 links slash here name rest
  | case8 slash here name rest | case10 links slash here name rest
  | case12 links slash here name rest | case13 links slash here name rest =>
    have isName : IsName name := by constructor <;> assumption
    have looked := agrees.look (comesBy_here d here name rest) isName slash
    rw [Disk.walk]
    grind

theorem locate (agrees : d.Agrees d' (start path)) :
    d'.locate approach path = d.locate approach path := by
  simp only [Disk.locate, agrees.walk]

theorem lookup (agrees : d.Agrees d' (start path)) : d'.lookup path = d.lookup path := by
  rw [Disk.lookup, Disk.lookup, find, find, agrees.locate]
  cases located : d.locate .target path with
  | error cause => rfl
  | ok place =>
    have looked : d'.look place = d.look place := by
      cases place with
      | directory id => rfl
      | entry e slash =>
        obtain ⟨isName, n, goes⟩ := goes_of_walk (walk_of_locate located)
        exact agrees.look ⟨n, [], goes⟩ isName slash
    simp only [bind, Except.bind, looked]

end Agrees

/-- A walk to an end comes by no other name that leads nowhere. -/
theorem Ends.eq_of_stuck (ends : d.Ends n p e) (other : d.ComesBy p f) (stuck : d.lead f = none) :
    f = e := by
  obtain ⟨m, rest, goes⟩ := other
  obtain ⟨k, later⟩ := ends.of_goes goes
  have noStep : d.next (f.directory, f.name :: rest) = none := by
    rw [next_name, stuck, Option.map_none]
  obtain ⟨-, last⟩ := later.goes.unique (later.next_eq []) (.stay _) noStep
  obtain ⟨here, name⟩ := f
  cases last
  rfl

/-- A new file is in the way of no path that leads to another one. -/
theorem lookup_of_newFile (missing : d.node? e = none) (isName : IsName e.name)
    (apart : id ≠ d.contents.length) :
    (d.newFile e).2.lookup path = .ok (.file id) ↔ d.lookup path = .ok (.file id) := by
  constructor
  · intro found
    obtain ⟨n, f, ends, -, file⟩ := ends_of_lookup found
    have placed : (d.newFile e).2.node? e = some (.file d.contents.length) :=
      (node?_put d e e _).trans (if_pos rfl)
    have agrees : (d.newFile e).2.Agrees d (start path) := by
      refine ⟨fun _ => rfl, fun other comes _ => ?_⟩
      have elsewhere : other ≠ e := by
        rintro rfl
        obtain rfl := ends.eq_of_stuck comes (stuck_of_file isName placed)
        cases placed.symm.trans file
        exact apart rfl
      exact ((node?_put d e other _).trans (if_neg elsewhere)).symm
    rw [agrees.lookup, found]
  · exact lookup_of_extends (extends_newFile missing)

/-- Names lead where they led before a file was made: a file leads nowhere, as nothing does. -/
theorem lead_newFile (missing : d.node? e = none) (f : Entry) :
    (d.newFile e).2.lead f = d.lead f := by
  have above : (d.newFile e).2.above f.directory = d.above f.directory := rfl
  by_cases same : f = e
  · have held : (d.newFile e).2.node? f = some (.file d.contents.length) :=
      (node?_put d e f _).trans (if_pos same)
    rw [lead, lead, above, held, same, missing]
  · have held : (d.newFile e).2.node? f = d.node? f := (node?_put d e f _).trans (if_neg same)
    rw [lead, lead, above, held]

theorem goes_congr (leads : ∀ e, d'.lead e = d.lead e) : d'.Goes n p q ↔ d.Goes n p q := by
  constructor
  · intro goes
    exact goes.mono fun e q led => (leads e).symm.trans led
  · intro goes
    exact goes.mono fun e q led => (leads e).trans led

/-- Opening a file for writing is in the way of no path that leads to another one. -/
theorem lookup_openAppend_iff {opened : FileId} (done : d.openAppend source = .ok (opened, d'))
    (apart : id ≠ opened) : d'.lookup path = .ok (.file id) ↔ d.lookup path = .ok (.file id) := by
  rcases openAppend_cases done with ⟨e, slash, located, seen, made⟩ | ⟨e, slash, -, -, rfl⟩
  · obtain ⟨rfl, rfl⟩ := Prod.mk.inj made
    exact lookup_of_newFile (look_entry seen) (goes_of_walk (walk_of_locate located)).1 apart
  · rfl

theorem lead_openAppend (opened : d.openAppend path = .ok (id, d')) (f : Entry) :
    d'.lead f = d.lead f := by
  rcases openAppend_cases opened with ⟨e, slash, -, seen, made⟩ | ⟨e, slash, -, -, rfl⟩
  · obtain ⟨-, rfl⟩ := Prod.mk.inj made
    exact lead_newFile (look_entry seen) f
  · rfl

/-! ## Walks that go on elsewhere -/

theorem look_of_walk (isName : IsName e.name)
    (walked : d.walk .target links slash e.directory (e.name :: rest) = .ok place) :
    d.look (.entry e slash) = .ok (d.node? e) := by
  obtain ⟨here, name⟩ := e
  cases seen : d.look (.entry ⟨here, name⟩ slash) with
  | ok found => rw [look_entry seen]
  | error cause =>
    have failed : d.walk .target links slash here (name :: rest) = .error cause := by
      rw [Disk.walk, if_neg isName.noDot, if_neg isName.noDots]
      grind
    cases failed.symm.trans walked

theorem walk_last (isName : IsName e.name) {found : Option Node}
    (seen : d.look (.entry e slash) = .ok found) (noLink : ¬ ∃ target, found = some (.symlink target)) :
    d.walk .target links slash e.directory [e.name] = .ok (.entry e slash) := by
  rw [walk_target isName.noDot isName.noDots seen]
  rcases found with _ | _ | _ | target | _
  case some.symlink => exact absurd ⟨target, rfl⟩ noLink
  all_goals rfl

theorem walk_link (isName : IsName e.name) {target : Path}
    (seen : d.look (.entry e slash) = .ok (some (.symlink target))) (links : Nat) :
    d.walk .target (links + 1) slash e.directory [e.name] =
      d.walk .target links (slash || Path.endsInSlash target) (startOf target e.directory)
        (Path.names target) := by
  rw [walk_target isName.noDot isName.noDots seen]
  simp only [List.isEmpty_nil, Bool.true_and, List.append_nil]

theorem walk_noLink (isName : IsName e.name) {target : Path}
    (seen : d.look (.entry e slash) = .ok (some (.symlink target))) :
    d.walk .target 0 slash e.directory [e.name] = .error .tooManyLinks := by
  rw [walk_target isName.noDot isName.noDots seen]

/-- The walks that share their first names are one walk as far as these lead, on every disk that has
the same nodes there. -/
theorem walk_of_next (stepped : d.next p = some q)
    (walked : d.walk .target links slash p.1 (p.2 ++ rest) = .ok place) :
    ∃ links', ∀ D, d.Agrees D p → ∀ others, others ≠ [] →
      D.walk .target links slash p.1 (p.2 ++ others) =
        D.walk .target links' slash q.1 (q.2 ++ others) := by
  obtain ⟨here, names⟩ := p
  cases names with
  | nil => cases stepped
  | cons name names =>
    obtain ⟨led, leads, rfl⟩ := Option.map_eq_some_iff.mp stepped
    have goesOn : ∀ others, others ≠ [] → (names ++ others).isEmpty = false := fun others filled =>
      List.isEmpty_eq_false_iff.mpr (List.append_ne_nil_of_right_ne_nil names filled)
    rw [List.cons_append] at walked
    by_cases dot : (name == ".") = true
    · rw [lead, if_pos dot] at leads
      cases leads
      refine ⟨links, fun D agrees others filled => ?_⟩
      rw [List.cons_append, Disk.walk, if_pos dot, List.nil_append]
    by_cases dots : (name == "..") = true
    · rw [lead, if_neg dot, if_pos dots] at leads
      cases leads
      refine ⟨links, fun D agrees others filled => ?_⟩
      rw [List.cons_append, Disk.walk, if_neg dot, if_pos dots, List.nil_append, agrees.above]
    have isName : IsName name := ⟨dot, dots⟩
    rw [lead_name isName] at leads
    have seen := look_of_walk (e := ⟨here, name⟩) isName walked
    have seenBy : ∀ D, d.Agrees D (here, name :: names) →
        D.look (.entry ⟨here, name⟩ slash) = .ok (d.node? ⟨here, name⟩) :=
      fun D agrees => (agrees.look (comesBy_here ..) isName slash).trans seen
    split at leads
    · next target link =>
      cases leads
      rw [link] at seen seenBy
      cases links with
      | zero =>
        rw [walk_target dot dots seen] at walked
        cases walked
      | succ links =>
        refine ⟨links, fun D agrees others filled => ?_⟩
        rw [List.cons_append, walk_target dot dots (seenBy D agrees)]
        simp only [goesOn others filled, Bool.false_and, Bool.or_false, List.append_assoc]
    · next id directory =>
      cases leads
      rw [directory] at seenBy
      refine ⟨links, fun D agrees others filled => ?_⟩
      rw [List.cons_append, walk_target dot dots (seenBy D agrees)]
      simp only [goesOn others filled, Bool.false_eq_true, ↓reduceIte, List.nil_append]
    · cases leads

theorem walk_of_goes (goes : d.Goes n p q) (more : rest ≠ [])
    (walked : d.walk .target links slash p.1 (p.2 ++ rest) = .ok place) :
    ∃ links', ∀ D, d.Agrees D p → ∀ others, others ≠ [] →
      D.walk .target links slash p.1 (p.2 ++ others) =
        D.walk .target links' slash q.1 (q.2 ++ others) := by
  induction goes generalizing links with
  | stay => exact ⟨links, fun _ _ _ _ => rfl⟩
  | step stepped _ ih =>
    obtain ⟨links₁, first⟩ := walk_of_next stepped walked
    have same := first d (.refl d _) rest more
    obtain ⟨links₂, onward⟩ := ih (same.symm.trans walked)
    refine ⟨links₂, fun D agrees others filled => ?_⟩
    rw [first D agrees others filled]
    apply onward D _ others filled
    exact agrees.after (.step stepped (.stay _))

theorem locate_of_walk {approach' : Approach} {place' : Place}
    (located : d.locate approach path = .ok place)
    (walked : d'.walk approach' maxLinks (Path.endsInSlash path) (startOf path workingDirectory)
      (Path.names path) = .ok place') : d'.locate approach' path = .ok place' := by
  rw [locate] at located ⊢
  split at located
  · cases located
  next filled =>
  split at located
  · cases located
  next text =>
  split at located
  · cases located
  next short =>
  rw [if_neg filled, if_neg text, if_neg short]
  exact walked

/-! ## Paths that are moved to -/

/-- A path is moved to another one in the same directory. -/
structure Replaces (d d' : Disk) (source path : Path) (old new : Entry) (front : List String) : Prop
    where
  moved : Moved d d' old new
  isOld : IsName old.name
  isNew : IsName new.name
  apart : old.name ≠ new.name
  beside : new.directory = old.directory
  way : ∃ n, d.Goes n (startOf path workingDirectory, front) (new.directory, [])
  startOld : start source = (startOf path workingDirectory, front ++ [old.name])
  startNew : start path = (startOf path workingDirectory, front ++ [new.name])
  located : d.locate .entry path = .ok (.entry new false)
  short : ¬ maxName < (Text.Utf8.encodeString new.name).length
  unslashed : Path.endsInSlash source = false ∧ Path.endsInSlash path = false

/-- The way to a path comes by the name that another path ends in. -/
def PassesBy (d : Disk) (source path : Path) : Prop :=
  ∃ n e, d.Goes n (startOf path workingDirectory, (Path.names path).dropLast) (e.directory, []) ∧
    (Path.names path).getLast? = some e.name ∧ d.ComesBy (start source) e

theorem Replaces.passesBy_iff (replaces : d.Replaces d' source path old new front) :
    d.PassesBy source path ↔ d.ComesBy (start source) new := by
  obtain ⟨i, way⟩ := replaces.way
  obtain ⟨-, named⟩ := Prod.mk.inj replaces.startNew
  rw [PassesBy, named, List.dropLast_concat, List.getLast?_concat]
  constructor
  · rintro ⟨n, ⟨directory, name⟩, goes, last, comes⟩
    obtain rfl : new.name = name := Option.some.inj last
    obtain ⟨same, -⟩ := Prod.mk.inj (way.unique rfl goes rfl).2
    subst same
    exact comes
  · exact fun comes => ⟨i, new, way, rfl, comes⟩

theorem look_of_moveName (done : d.moveName old new slash = .ok d') :
    ∃ found, d.look (.entry new slash) = .ok found := by
  obtain ⟨held, -, done⟩ := ok_of_bind done
  split at done
  · cases done
  · cases done
  · obtain ⟨found, seen, -⟩ := ok_of_bind done
    exact ⟨found, seen⟩

theorem short_of_look {found : Option Node} (seen : d.look (.entry e slash) = .ok found) :
    ¬ maxName < (Text.Utf8.encodeString e.name).length := by
  rw [look] at seen
  split at seen
  · cases seen
  · assumption

theorem replaces_of_rename (beside : Path.Beside source path)
    (apart : (Path.names source).getLast? ≠ (Path.names path).getLast?)
    (done : d.rename source path = .ok d') : ∃ old new front,
      d.Replaces d' source path old new front := by
  obtain ⟨old, oldSlash, new, newSlash, locatedOld, locatedNew, done⟩ := rename_inversion done
  have walkedOld := walk_of_locate locatedOld
  have walkedNew := walk_of_locate locatedNew
  obtain ⟨rfl, lastOld, wayOld⟩ := goes_of_walk_entry walkedOld
  obtain ⟨rfl, lastNew, wayNew⟩ := goes_of_walk_entry walkedNew
  obtain ⟨unslashed, node, -, -⟩ := moveName_inversion done
  obtain ⟨unslashedOld, unslashedNew⟩ := Bool.or_eq_false_iff.mp unslashed
  have begun : startOf source workingDirectory = startOf path workingDirectory := by
    rw [startOf, startOf, beside.absolute]
  rw [begun, beside.front] at wayOld
  obtain ⟨i, wayOld⟩ := wayOld
  obtain ⟨j, wayNew⟩ := wayNew
  obtain ⟨found, seen⟩ := look_of_moveName done
  refine ⟨old, new, (Path.names path).dropLast, moved_of_moveName done, (goes_of_walk walkedOld).1,
    (goes_of_walk walkedNew).1, ?_, ?_, ⟨j, wayNew⟩, ?_, start_eq_append lastNew, ?_, short_of_look seen,
    unslashedOld, unslashedNew⟩
  · intro same
    rw [lastOld, lastNew, same] at apart
    exact apart rfl
  · exact (Prod.mk.inj (wayNew.unique rfl wayOld rfl).2).1
  · rw [start_eq_append lastOld, begun, beside.front]
  · rw [locatedNew, unslashedNew]

namespace Replaces

variable (replaces : d.Replaces d' source path old new front)

include replaces

/-- A path that leads to a file does not come by its own name before its last one. -/
theorem old_not_in_front (ends : d.Ends n (start source) e) :
    ¬ d.ComesBy (startOf path workingDirectory, front) old := by
  rintro ⟨m, rest, goes⟩
  obtain ⟨i, way⟩ := replaces.way
  obtain ⟨k, onward⟩ := way.onward rfl goes
  rw [replaces.startOld] at ends
  rw [replaces.beside] at way onward
  obtain ⟨j, alone⟩ := ends.of_goes (way.append [old.name])
  have none := alone.alone (alone.after (onward.append [old.name]))
  exact absurd (List.append_eq_nil_iff.mp none).2 (List.cons_ne_nil _ _)

theorem ends_old (ends : d.Ends n (start source) e) :
    ∃ m, d.Ends m (old.directory, [old.name]) e := by
  obtain ⟨i, way⟩ := replaces.way
  rw [replaces.startOld] at ends
  rw [replaces.beside] at way
  exact ends.of_goes (way.append [old.name])

/-- What the way to the file comes by is on the way of the names before the last, or behind it. -/
theorem comesBy_iff : d.ComesBy (start source) f ↔
    d.ComesBy (startOf path workingDirectory, front) f ∨
      d.ComesBy (old.directory, [old.name]) f := by
  obtain ⟨i, way⟩ := replaces.way
  rw [replaces.beside] at way
  rw [replaces.startOld]
  constructor
  · exact fun comes => comes.cases_append way
  · rintro (early | late)
    · exact early.append [old.name]
    · exact late.after (way.append [old.name])

/-- The names before the last lead to the same directory after the move, with as many links left. -/
theorem walk_front (ends : d.Ends n (start source) e)
    (clear : ¬ d.ComesBy (startOf path workingDirectory, front) new)
    (walked : d.walk .target maxLinks false (startOf path workingDirectory) (front ++ [old.name]) =
      .ok place) :
    ∃ links, d.walk .target links false old.directory [old.name] = .ok place ∧
      d'.walk .target maxLinks false (startOf path workingDirectory) (front ++ [new.name]) =
        d'.walk .target links false new.directory [new.name] := by
  obtain ⟨i, way⟩ := replaces.way
  obtain ⟨links, same⟩ := walk_of_goes way (List.cons_ne_nil old.name []) walked
  refine ⟨links, ?_, ?_⟩
  · rw [← replaces.beside]
    exact (same d (.refl d _) _ (List.cons_ne_nil _ _)).symm.trans walked
  · apply same d' _ _ (List.cons_ne_nil _ _)
    refine ⟨replaces.moved.above, fun f comes _ => ?_⟩
    apply replaces.moved.others f
    · rintro rfl
      exact replaces.old_not_in_front ends comes
    · rintro rfl
      exact clear comes

/-- The last name leads to the file that has been moved, be it a link or the file itself. -/
theorem walk_new (alone : d.Ends n (old.directory, [old.name]) f)
    (clear : ¬ d.ComesBy (old.directory, [old.name]) new)
    (walked : d.walk .target links false old.directory [old.name] = .ok (.entry e false))
    (seen : d.look (.entry e false) = .ok (some (.file id))) :
    ∃ g, d'.walk .target links false new.directory [new.name] = .ok (.entry g false) ∧
      d'.look (.entry g false) = .ok (some (.file id)) := by
  have seenOld := look_of_walk replaces.isOld walked
  have seenNew : d'.look (.entry new false) = .ok (d.node? old) := by
    rw [look, if_neg replaces.short, replaces.moved.moved]
  by_cases link : ∃ target, d.node? old = some (.symlink target)
  · obtain ⟨target, link⟩ := link
    rw [link] at seenOld seenNew
    cases links with
    | zero => cases (walk_noLink replaces.isOld seenOld).symm.trans walked
    | succ links =>
      rw [walk_link replaces.isOld seenOld] at walked
      rw [walk_link replaces.isNew seenNew, replaces.beside]
      have first : d.next (old.directory, [old.name]) =
          some (startOf target old.directory, Path.names target) := by
        rw [next_name, lead_name replaces.isOld, link, Option.map_some, List.append_nil]
      have agrees : d.Agrees d' (startOf target old.directory, Path.names target) := by
        refine ⟨replaces.moved.above, fun g comes _ => ?_⟩
        apply replaces.moved.others g
        · rintro rfl
          obtain ⟨m, more, goes⟩ := comes
          exact alone.no_growth (.step first goes)
        · rintro rfl
          exact clear (comes.after (.step first (.stay _)))
      obtain ⟨isName, m, goes⟩ := goes_of_walk walked
      refine ⟨e, agrees.walk.trans walked, ?_⟩
      exact (agrees.look ⟨m, [], goes⟩ isName false).trans seen
  · cases (walk_last replaces.isOld seenOld link).symm.trans walked
    exact ⟨new, walk_last replaces.isNew seenNew link, seenNew.trans (seenOld.symm.trans seen)⟩

/-- The path leads to the file that has been moved, unless the way that led to the file came by the
name that it has been moved to. -/
theorem lookup_path (written : d.lookup source = .ok (.file id))
    (clear : ¬ d.ComesBy (start source) new) : d'.lookup path = .ok (.file id) := by
  obtain ⟨n, f, ends, -⟩ := ends_of_lookup written
  obtain ⟨e, located, seen⟩ := entry_of_lookup written
  have walked := walk_of_locate (locate_of_file (.refl d) located).1
  obtain ⟨begun, named⟩ := Prod.mk.inj replaces.startOld
  rw [begun, named, replaces.unslashed.1] at walked
  rw [replaces.comesBy_iff, not_or] at clear
  obtain ⟨j, alone⟩ := replaces.ends_old ends
  obtain ⟨links, there, led⟩ := replaces.walk_front ends clear.1 walked
  obtain ⟨g, walked', seen'⟩ := replaces.walk_new alone clear.2 there seen
  have located' : d'.locate .target path = .ok (.entry g false) := by
    apply locate_of_walk replaces.located
    rw [(Prod.mk.inj replaces.startNew).2, replaces.unslashed.2, led, walked']
  rw [lookup, find, located']
  simp only [bind, Except.bind, seen']

theorem next_new (stepped : d.next (old.directory, [old.name]) = some q) :
    d'.next (new.directory, [new.name]) = some q := by
  have same := replaces.moved.lead_new replaces.isOld replaces.isNew replaces.beside
  rw [next_name] at stepped ⊢
  rw [same, stepped]

/-- A way from the old name that comes by the new one comes back to it after the move. -/
theorem grows (ends : d.Ends n (old.directory, [old.name]) e)
    (comes : d.ComesBy (old.directory, [old.name]) new) :
    ∃ m more, d'.Goes (m + 1) (new.directory, [new.name]) (new.directory, new.name :: more) := by
  obtain ⟨k, more, goes⟩ := comes
  generalize reached : (new.directory, new.name :: more) = q at goes
  cases goes with
  | stay => exact absurd (List.cons.inj (Prod.mk.inj reached).2).1.symm replaces.apart
  | step stepped later =>
    subst reached
    have stepped' := replaces.next_new stepped
    rcases replaces.moved.goes_or_meets later with goes | ⟨met, j, -, rest, isOne, before, after, -⟩
    · exact ⟨_, more, .step stepped' goes⟩
    · rcases isOne with rfl | rfl
      · exact (ends.no_growth (.step stepped before)).elim
      · exact ⟨j, rest, .step stepped' after⟩

/-- A way from the old name that does not come by the new one comes to its end after the move too. -/
theorem ends_new (ends : d.Ends n (old.directory, [old.name]) e)
    (clear : ¬ d.ComesBy (old.directory, [old.name]) new) :
    ∃ m f, d'.Ends m (new.directory, [new.name]) f := by
  cases led : d.lead old with
  | none =>
    have same := replaces.moved.lead_new replaces.isOld replaces.isNew replaces.beside
    exact ⟨0, new, .stay _, same.trans led⟩
  | some q =>
    have first : d.next (old.directory, [old.name]) = some q := by
      rw [next_name, led, Option.map_some, List.append_nil]
    obtain ⟨k, onward⟩ := ends.of_goes (.step first (.stay q))
    have apart : ∀ f m more, (f = old ∨ f = new) → ¬ d.Goes m q (f.directory, f.name :: more) := by
      rintro f m more (rfl | rfl) goes
      · exact ends.no_growth (.step first goes)
      · exact clear ⟨m + 1, more, .step first goes⟩
    rcases replaces.moved.goes_or_meets onward.goes with goes | ⟨met, j, -, rest, isOne, before, -, -⟩
    · refine ⟨k + 1, e, .step (replaces.next_new first) goes, ?_⟩
      rw [replaces.moved.lead_eq, onward.stuck]
      · exact fun isOld => apart e k [] (.inl isOld) onward.goes
      · exact fun isNew => apart e k [] (.inr isNew) onward.goes
    · exact (apart met j rest isOne before).elim

/-- The names before the last come by the new name after the move if they came by it before. -/
theorem comesBy_front (ends : d.Ends n (start source) e)
    (early : d.ComesBy (startOf path workingDirectory, front) new) :
    d'.ComesBy (startOf path workingDirectory, front) new := by
  obtain ⟨k, more, goes⟩ := early
  rcases replaces.moved.goes_or_meets goes with goes | ⟨met, j, -, rest, isOne, before, after, -⟩
  · exact ⟨k, more, goes⟩
  · rcases isOne with rfl | rfl
    · exact absurd ⟨j, rest, before⟩ (replaces.old_not_in_front ends)
    · exact ⟨j, rest, after⟩

theorem goes_front (ends : d.Ends n (start source) e)
    (clear : ¬ d.ComesBy (startOf path workingDirectory, front) new) :
    ∃ i, d'.Goes i (startOf path workingDirectory, front) (new.directory, []) := by
  obtain ⟨i, way⟩ := replaces.way
  rcases replaces.moved.goes_or_meets way with goes | ⟨met, j, -, rest, isOne, before, -, -⟩
  · exact ⟨i, goes⟩
  · rcases isOne with rfl | rfl
    · exact absurd ⟨j, rest, before⟩ (replaces.old_not_in_front ends)
    · exact absurd ⟨j, rest, before⟩ clear

/-- A way that comes by the new name leads into what has taken its place, or back to it, and so to no
file. -/
theorem lookup_ne_file (written : d.lookup source = .ok (.file id))
    (comes : d.ComesBy (start source) new) (id' : FileId) : d'.lookup path ≠ .ok (.file id') := by
  intro found
  obtain ⟨n, e, ends, -⟩ := ends_of_lookup written
  obtain ⟨n', e', ends', -⟩ := ends_of_lookup found
  obtain ⟨j, alone⟩ := replaces.ends_old ends
  rw [replaces.startNew] at ends'
  by_cases early : d.ComesBy (startOf path workingDirectory, front) new
  · -- The walk has the name itself still to follow when it comes there.
    obtain ⟨k, more, goes⟩ := replaces.comesBy_front ends early
    obtain ⟨m, behind⟩ := ends'.of_goes (goes.append [new.name])
    by_cases back : d.ComesBy (old.directory, [old.name]) new
    · obtain ⟨l, more, grown⟩ := replaces.grows alone back
      exact behind.no_growth grown
    · obtain ⟨l, f, reached⟩ := replaces.ends_new alone back
      have none := reached.alone behind
      exact absurd (List.append_eq_nil_iff.mp none).2 (List.cons_ne_nil _ _)
  · have late := (replaces.comesBy_iff.mp comes).resolve_left early
    obtain ⟨l, more, grown⟩ := replaces.grows alone late
    obtain ⟨k, goes⟩ := replaces.goes_front ends early
    obtain ⟨m, behind⟩ := ends'.of_goes (goes.append [new.name])
    exact behind.no_growth grown

end Replaces

end ChassisCooling.Files.Disk
