import ChassisCooling.Proofs.OpenFiles

/-! # Walks, one name at a time

Where a path leads is found name after name. Each step is determined by the one before, so a walk
that comes to its end ends at one name only, and never stands twice in the same position.
-/

namespace ChassisCooling.Files.Disk

open Calendar

/-- A directory, and the names that are still to be followed from there. -/
abbrev Position := DirectoryId × List String

/-- Where a name leads, and the names that are to be followed from there: those of a link. What is
neither a directory nor a link leads nowhere. -/
def lead (d : Disk) (e : Entry) : Option Position :=
  if e.name == "." then some (e.directory, [])
  else if e.name == ".." then some (d.above e.directory, [])
  else match d.node? e with
  | some (.symlink target) => some (startOf target e.directory, Path.names target)
  | some (.directory id) => some (id, [])
  | _ => none

/-- The position after the first name has been followed. -/
def next (d : Disk) : Position → Option Position
  | (_, []) => none
  | (here, name :: rest) => (d.lead ⟨here, name⟩).map fun q => (q.1, q.2 ++ rest)

/-- A walk of so many steps. -/
inductive Goes (d : Disk) : Nat → Position → Position → Prop
  | stay (p : Position) : Goes d 0 p p
  | step {n : Nat} {p q r : Position} (first : d.next p = some q) (others : Goes d n q r) :
      Goes d (n + 1) p r

/-- A walk of so many steps to a last name, which leads nowhere. -/
structure Ends (d : Disk) (n : Nat) (p : Position) (e : Entry) : Prop where
  goes : d.Goes n p (e.directory, [e.name])
  stuck : d.lead e = none

variable {d d' : Disk} {n m : Nat} {p q r : Position} {e e' : Entry} {here : DirectoryId}
  {name : String} {names rest : List String}

/-! ## Walks -/

theorem next_name (d : Disk) (e : Entry) (rest : List String) :
    d.next (e.directory, e.name :: rest) = (d.lead e).map fun q => (q.1, q.2 ++ rest) :=
  rfl

/-- The names after the first have no part in a step. -/
theorem next_append (stepped : d.next p = some q) (rest : List String) :
    d.next (p.1, p.2 ++ rest) = some (q.1, q.2 ++ rest) := by
  obtain ⟨here, names⟩ := p
  cases names with
  | nil => cases stepped
  | cons name names =>
    obtain ⟨led, leads, rfl⟩ := Option.map_eq_some_iff.mp stepped
    rw [List.cons_append, next, leads, Option.map_some, List.append_assoc]

theorem Goes.trans (first : d.Goes n p q) (second : d.Goes m q r) : d.Goes (n + m) p r := by
  induction first with
  | stay => rwa [Nat.zero_add]
  | step stepped _ ih =>
    rw [Nat.add_right_comm]
    exact .step stepped (ih second)

theorem Goes.append (goes : d.Goes n p q) (rest : List String) :
    d.Goes n (p.1, p.2 ++ rest) (q.1, q.2 ++ rest) := by
  induction goes with
  | stay p => exact .stay _
  | step stepped _ ih => exact .step (next_append stepped rest) ih

/-- A walk that leads no further ends at one position, after one number of steps. -/
theorem Goes.unique (goes : d.Goes n p q) (stuck : d.next q = none) (others : d.Goes m p r)
    (stuck' : d.next r = none) : n = m ∧ q = r := by
  induction goes generalizing m with
  | stay p =>
    cases others with
    | stay => exact ⟨rfl, rfl⟩
    | step stepped => cases stuck.symm.trans stepped
  | step stepped _ ih =>
    cases others with
    | stay => cases stuck'.symm.trans stepped
    | step stepped' others =>
      obtain rfl := Option.some.inj (stepped.symm.trans stepped')
      obtain ⟨same, last⟩ := ih stuck others
      exact ⟨congrArg (· + 1) same, last⟩

namespace Ends

theorem next_eq (ends : d.Ends n p e) (rest : List String) :
    d.next (e.directory, e.name :: rest) = none := by
  rw [next_name, ends.stuck, Option.map_none]

theorem after (goes : d.Goes n p q) (ends : d.Ends m q e) : d.Ends (n + m) p e :=
  ⟨goes.trans ends.goes, ends.stuck⟩

theorem unique (ends : d.Ends n p e) (others : d.Ends m p e') : n = m ∧ e = e' := by
  obtain ⟨same, last⟩ :=
    ends.goes.unique (ends.next_eq []) others.goes (others.next_eq [])
  obtain ⟨here, name⟩ := e
  cases last
  exact ⟨same, rfl⟩

/-- A walk that has begun on the way to an end goes on to that end. -/
theorem of_goes (ends : d.Ends n p e) (goes : d.Goes m p q) : ∃ k, d.Ends k q e := by
  induction goes generalizing n with
  | stay => exact ⟨n, ends⟩
  | step stepped _ ih =>
    obtain ⟨walk, stuck⟩ := ends
    cases walk with
    | stay =>
      rw [next_name, stuck] at stepped
      cases stepped
    | step stepped' others =>
      obtain rfl := Option.some.inj (stepped.symm.trans stepped')
      exact ih ⟨others, stuck⟩

/-- A walk that comes to its end does not come back to where it began. -/
theorem no_return (ends : d.Ends n p e) (back : d.Goes (m + 1) p p) : False := by
  have same := (ends.unique (ends.after back)).1
  omega

/-- A name that comes to an end leads to no directory, so no other name can be followed after it. -/
theorem alone (ends : d.Ends n (here, [name]) e) (others : d.Ends m (here, name :: rest) e') :
    rest = [] := by
  have goes := ends.goes.append rest
  obtain ⟨-, last⟩ :=
    goes.unique (ends.next_eq rest) others.goes (others.next_eq [])
  exact (List.cons.inj (Prod.mk.inj last).2).2

end Ends

/-! ## The walks of the system -/

/-- A name that is neither of the dots. -/
structure IsName (name : String) : Prop where
  noDot : ¬ (name == ".") = true
  noDots : ¬ (name == "..") = true

theorem lead_name (isName : IsName e.name) : d.lead e =
    match d.node? e with
    | some (.symlink target) => some (startOf target e.directory, Path.names target)
    | some (.directory id) => some (id, [])
    | _ => none := by
  rw [lead, if_neg isName.noDot, if_neg isName.noDots]

theorem lead_extends (extended : Extends d d') (led : d.lead e = some q) : d'.lead e = some q := by
  rw [lead] at led ⊢
  rw [extended.above]
  split at led
  · next dot => rw [if_pos dot, led]
  next noDot =>
  rw [if_neg noDot]
  split at led
  · next dots => rw [if_pos dots, led]
  next noDots =>
  rw [if_neg noDots]
  split at led
  · next link =>
    rw [extended.kept _ _ link]
    exact led
  · next directory =>
    rw [extended.kept _ _ directory]
    exact led
  · cases led

/-- A walk goes on another disk as it does here, if names lead there where they lead here. -/
theorem Goes.mono (leads : ∀ e q, d.lead e = some q → d'.lead e = some q) (goes : d.Goes n p q) :
    d'.Goes n p q := by
  induction goes with
  | stay p => exact .stay p
  | @step n p q r stepped _ ih =>
    refine .step ?_ ih
    obtain ⟨here, names⟩ := p
    cases names with
    | nil => cases stepped
    | cons name rest =>
      obtain ⟨led, leadsHere, rfl⟩ := Option.map_eq_some_iff.mp stepped
      rw [next, leads _ _ leadsHere, Option.map_some]

theorem Goes.extends (extended : Extends d d') (goes : d.Goes n p q) : d'.Goes n p q :=
  goes.mono fun _ _ led => lead_extends extended led

theorem goes_dot (dot : (name == ".") = true) (goes : d.Goes n (here, rest) q) :
    d.Goes (n + 1) (here, name :: rest) q := by
  refine .step ?_ goes
  rw [next, lead, if_pos dot]
  rfl

theorem goes_dots (noDot : ¬ (name == ".") = true) (dots : (name == "..") = true)
    (goes : d.Goes n (d.above here, rest) q) : d.Goes (n + 1) (here, name :: rest) q := by
  refine .step ?_ goes
  rw [next, lead, if_neg noDot, if_pos dots]
  rfl

theorem goes_link (isName : IsName name) {target : Path}
    (link : d.node? ⟨here, name⟩ = some (.symlink target))
    (goes : d.Goes n (startOf target here, Path.names target ++ rest) q) :
    d.Goes (n + 1) (here, name :: rest) q := by
  refine .step ?_ goes
  rw [next, lead_name isName, link]
  rfl

theorem goes_directory (isName : IsName name) {id : DirectoryId}
    (directory : d.node? ⟨here, name⟩ = some (.directory id)) (goes : d.Goes n (id, rest) q) :
    d.Goes (n + 1) (here, name :: rest) q := by
  refine .step ?_ goes
  rw [next, lead_name isName, directory]
  rfl

variable {approach : Approach} {links : Nat} {slash slash' : Bool}

/-- The system follows the names of a path, and those of links. -/
theorem goes_of_walk (walked : d.walk approach links slash here names = .ok (.entry e slash')) :
    IsName e.name ∧ ∃ n, d.Goes n (here, names) (e.directory, [e.name]) := by
  fun_induction Disk.walk d approach links slash here names with
  | case2 links slash here name rest dot ih =>
    obtain ⟨isName, n, goes⟩ := ih walked
    exact ⟨isName, n + 1, goes_dot dot goes⟩
  | case3 links slash here name rest noDot dots ih =>
    obtain ⟨isName, n, goes⟩ := ih walked
    exact ⟨isName, n + 1, goes_dots noDot dots goes⟩
  | case4 links slash here name rest last place noDot noDots asEntry =>
    obtain ⟨rfl, -⟩ := Place.entry.inj (Except.ok.inj walked)
    obtain rfl := List.isEmpty_iff.mp (Bool.and_eq_true_iff.mp asEntry).1
    exact ⟨⟨noDot, noDots⟩, 0, .stay _⟩
  | case7 links slash here name rest last place noDot noDots _ _ target _ stays =>
    obtain ⟨rfl, -⟩ := Place.entry.inj (Except.ok.inj walked)
    obtain rfl := List.isEmpty_iff.mp (Bool.and_eq_true_iff.mp stays).1
    exact ⟨⟨noDot, noDots⟩, 0, .stay _⟩
  | case9 slash here name rest last place noDot noDots _ _ target seen _ links slash₁ ih =>
    obtain ⟨isName, n, goes⟩ := ih walked
    exact ⟨isName, n + 1, goes_link ⟨noDot, noDots⟩ (look_entry seen) goes⟩
  | case10 links slash here name rest last place noDot noDots _ _ found _ _ ends =>
    obtain ⟨rfl, -⟩ := Place.entry.inj (Except.ok.inj walked)
    obtain rfl := List.isEmpty_iff.mp ends
    exact ⟨⟨noDot, noDots⟩, 0, .stay _⟩
  | case11 links slash here name rest last place noDot noDots _ _ _ id _ seen ih =>
    obtain ⟨isName, n, goes⟩ := ih walked
    exact ⟨isName, n + 1, goes_directory ⟨noDot, noDots⟩ (look_entry seen) goes⟩
  | case1 | case5 | case6 | case8 | case12 | case13 => cases walked

/-- The way to a name that is to be made or moved goes through the names before it. -/
theorem goes_of_walk_entry
    (walked : d.walk .entry links slash here names = .ok (.entry e slash')) :
    slash' = slash ∧ names.getLast? = some e.name ∧
      ∃ n, d.Goes n (here, names.dropLast) (e.directory, []) := by
  fun_induction Disk.walk d .entry links slash here names with
  | case2 links slash here name rest dot ih =>
    obtain ⟨same, last, n, goes⟩ := ih walked
    have more : rest ≠ [] := List.ne_nil_of_mem (List.mem_of_getLast? last)
    rw [List.getLast?_cons_of_ne_nil more, List.dropLast_cons_of_ne_nil more]
    exact ⟨same, last, n + 1, goes_dot dot goes⟩
  | case3 links slash here name rest noDot dots ih =>
    obtain ⟨same, last, n, goes⟩ := ih walked
    have more : rest ≠ [] := List.ne_nil_of_mem (List.mem_of_getLast? last)
    rw [List.getLast?_cons_of_ne_nil more, List.dropLast_cons_of_ne_nil more]
    exact ⟨same, last, n + 1, goes_dots noDot dots goes⟩
  | case4 links slash here name rest last place noDot noDots asEntry =>
    obtain ⟨rfl, rfl⟩ := Place.entry.inj (Except.ok.inj walked)
    obtain rfl := List.isEmpty_iff.mp (Bool.and_eq_true_iff.mp asEntry).1
    exact ⟨rfl, rfl, 0, .stay _⟩
  | case7 links slash here name rest last place noDot noDots notEntry _ target _ stays =>
    rw [(Bool.and_eq_true_iff.mp stays).1] at notEntry
    exact absurd rfl notEntry
  | case9 slash here name rest last place noDot noDots notEntry _ target seen _ links slash₁ ih =>
    have goesOn : last = false := by
      cases ended : last with
      | false => rfl
      | true => exact absurd (by rw [ended]; rfl) notEntry
    obtain ⟨same, ending, n, goes⟩ := ih walked
    have more : rest ≠ [] := List.isEmpty_eq_false_iff.mp goesOn
    rw [List.dropLast_append_of_ne_nil more] at goes
    rw [List.getLast?_append, List.getLast?_eq_some_getLast more, Option.some_or,
      ← List.getLast?_eq_some_getLast more] at ending
    rw [List.getLast?_cons_of_ne_nil more, List.dropLast_cons_of_ne_nil more]
    refine ⟨?_, ending, n + 1, goes_link ⟨noDot, noDots⟩ (look_entry seen) goes⟩
    rw [same, show slash₁ = (slash || last && Path.endsInSlash target) from rfl, goesOn,
      Bool.false_and, Bool.or_false]
  | case10 links slash here name rest last place noDot noDots notEntry _ found _ _ ends =>
    rw [ends] at notEntry
    exact absurd rfl notEntry
  | case11 links slash here name rest last place noDot noDots _ _ goesOn id _ seen ih =>
    obtain ⟨same, ending, n, goes⟩ := ih walked
    have more : rest ≠ [] := mt List.isEmpty_iff.mpr goesOn
    rw [List.getLast?_cons_of_ne_nil more, List.dropLast_cons_of_ne_nil more]
    exact ⟨same, ending, n + 1, goes_directory ⟨noDot, noDots⟩ (look_entry seen) goes⟩
  | case1 | case5 | case6 | case8 | case12 | case13 => cases walked

end ChassisCooling.Files.Disk
