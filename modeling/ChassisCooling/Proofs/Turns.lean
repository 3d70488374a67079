import ChassisCooling.Control.Tasks

/-! # The turns of the tasks

A turn takes one task from one point to the next and has one effect on what the tasks share. The
turns are listed once, with their guards and their effects, and everything about runs of the tasks
is derived from the list. What a turn leaves alone is said of any kind of points: a task other than
the one whose turn it is stays where it is.
-/

namespace ChassisCooling.Control.Tasks

/-- What a turn does to what the tasks share. -/
inductive Effect where
  | keep
  /-- The running flag is changed, and the task is to act on the fans as the flag says. -/
  | claim (what : Act)
  | number
  | notify
  | woken
  | enter
  | act (what : Act)
  | leave
  | spawn (number : Nat)
deriving DecidableEq

/-- What a task that changes the running flag is to do to the fans. -/
def Effect.claim? : Effect → Option Act
  | .claim what => some what
  | _ => none

/-- The turns of a task: its point before, its point after, and the effect. -/
inductive Turn (a : Arena) : Task → Task → Effect → Prop
  | refuse (running : a.running = true) : Turn a (.start .claim) (.start .refused) .keep
  | claimStart (idle : a.running = false) :
    Turn a (.start .claim) (.start .number) (.claim .enableManual)
  | number : Turn a (.start .number) (.start (.enter (a.starts + 1))) .number
  | enterStart (n : Nat) (free : a.gate = none) :
    Turn a (.start (.enter n)) (.start (.enable n)) .enter
  | enable (n : Nat) : Turn a (.start (.enable n)) (.start (.cycle n)) (.act .enableManual)
  | cycleStart (n : Nat) : Turn a (.start (.cycle n)) (.start (.leave n)) (.act .cycle)
  | leaveStart (n : Nat) : Turn a (.start (.leave n)) (.start (.spawn n)) .leave
  | spawn (n : Nat) : Turn a (.start (.spawn n)) (.start (.done n)) (.spawn n)
  | ignore (idle : a.running = false) : Turn a (.stop .claim) (.stop .idle) .keep
  | claimStop (running : a.running = true) :
    Turn a (.stop .claim) (.stop .notify) (.claim .restoreAuto)
  | notify : Turn a (.stop .notify) (.stop .enter) .notify
  | enterStop (free : a.gate = none) : Turn a (.stop .enter) (.stop .restore) .enter
  | restore : Turn a (.stop .restore) (.stop .leave) (.act .restoreAuto)
  | leaveStop : Turn a (.stop .leave) (.stop .done) .leave
  | checkRunning (n : Nat) :
    Turn a (.loop n .checkRunning) (.loop n (if a.running then .checkNumber else .over)) .keep
  | checkNumber (n : Nat) :
    Turn a (.loop n .checkNumber) (.loop n (if a.starts = n then .wait else .over)) .keep
  | tick (n : Nat) : Turn a (.loop n .wait) (.loop n .enter) .keep
  | woken (n : Nat) (wakeUp : a.wakeUp = true) :
    Turn a (.loop n .wait) (.loop n .checkRunning) .woken
  | enterLoop (n : Nat) (free : a.gate = none) :
    Turn a (.loop n .enter) (.loop n .recheckRunning) .enter
  | recheckRunning (n : Nat) :
    Turn a (.loop n .recheckRunning)
      (.loop n (if a.running then .recheckNumber else .leave false)) .keep
  | recheckNumber (n : Nat) :
    Turn a (.loop n .recheckNumber) (.loop n (if a.starts = n then .cycle else .leave false)) .keep
  | cycleLoop (n : Nat) : Turn a (.loop n .cycle) (.loop n (.leave true)) (.act .cycle)
  | leaveLoop (n : Nat) (again : Bool) :
    Turn a (.loop n (.leave again)) (.loop n (if again then .checkRunning else .over)) .leave

namespace Arena

variable {a a' : Arena} {i j : Nat} {old new : Task} {effect : Effect}

/-- A task goes on to another point, with an effect. -/
def apply (a : Arena) (i : Nat) (new : Task) : Effect → Arena
  | .keep => a.move i new
  | .claim what => { a.move i new with running := what = .enableManual }
  | .number => { a.move i new with starts := a.starts + 1 }
  | .notify => { a.move i new with wakeUp := true }
  | .woken => { a.move i new with wakeUp := false }
  | .enter => { a.move i new with gate := some i }
  | .act what => a.act i new what
  | .leave => a.leave i new
  | .spawn n => { a.move i new with tasks := (a.move i new).tasks ++ [.loop n .checkRunning] }

theorem enter_turn (entered : a.enter i new = some a') :
    a.gate = none ∧ a' = a.apply i new .enter := by
  rw [enter] at entered
  split at entered
  · next free =>
    cases entered
    exact ⟨Option.isNone_iff_eq_none.mp free, rfl⟩
  · cases entered

/-- Every step of a task is a turn. -/
theorem step_turn (made : a.step i = some a') : ∃ old new effect,
    a.tasks[i]? = some old ∧ Turn a old new effect ∧ a' = a.apply i new effect := by
  rw [step] at made
  split at made
  · cases made
  · next point found =>
    cases point with
    | claim =>
      rw [stepStart] at made
      split at made
      · next running => cases made; exact ⟨_, _, _, found, .refuse running, rfl⟩
      · next idle => cases made; exact ⟨_, _, _, found, .claimStart (Bool.not_eq_true _ ▸ idle), rfl⟩
    | enter n =>
      obtain ⟨free, run⟩ := enter_turn made
      exact ⟨_, _, _, found, .enterStart n free, run⟩
    | number => cases made; exact ⟨_, _, _, found, .number, rfl⟩
    | enable n => cases made; exact ⟨_, _, _, found, .enable n, rfl⟩
    | cycle n => cases made; exact ⟨_, _, _, found, .cycleStart n, rfl⟩
    | leave n => cases made; exact ⟨_, _, _, found, .leaveStart n, rfl⟩
    | spawn n => cases made; exact ⟨_, _, _, found, .spawn n, rfl⟩
    | done | refused => cases made
  · next point found =>
    cases point with
    | claim =>
      rw [stepStop] at made
      split at made
      · next running => cases made; exact ⟨_, _, _, found, .claimStop running, rfl⟩
      · next idle => cases made; exact ⟨_, _, _, found, .ignore (Bool.not_eq_true _ ▸ idle), rfl⟩
    | enter =>
      obtain ⟨free, run⟩ := enter_turn made
      exact ⟨_, _, _, found, .enterStop free, run⟩
    | notify => cases made; exact ⟨_, _, _, found, .notify, rfl⟩
    | restore => cases made; exact ⟨_, _, _, found, .restore, rfl⟩
    | leave => cases made; exact ⟨_, _, _, found, .leaveStop, rfl⟩
    | done | idle => cases made
  · next n point found =>
    cases point with
    | enter =>
      obtain ⟨free, run⟩ := enter_turn made
      exact ⟨_, _, _, found, .enterLoop n free, run⟩
    | checkRunning => cases made; exact ⟨_, _, _, found, .checkRunning n, rfl⟩
    | checkNumber => cases made; exact ⟨_, _, _, found, .checkNumber n, rfl⟩
    | wait => cases made; exact ⟨_, _, _, found, .tick n, rfl⟩
    | recheckRunning => cases made; exact ⟨_, _, _, found, .recheckRunning n, rfl⟩
    | recheckNumber => cases made; exact ⟨_, _, _, found, .recheckNumber n, rfl⟩
    | cycle => cases made; exact ⟨_, _, _, found, .cycleLoop n, rfl⟩
    | leave again => cases made; exact ⟨_, _, _, found, .leaveLoop n again, rfl⟩
    | _ => cases made

/-- The task that a move lets change the running flag, with what it is to do to the fans. -/
def claim? (a : Arena) : Move → Option (Nat × Act)
  | .step i =>
    match a.tasks[i]?, a.running with
    | some (.start .claim), false => some (i, .enableManual)
    | some (.stop .claim), true => some (i, .restoreAuto)
    | _, _ => none
  | _ => none

/-- Every move is a call that joins the tasks, or a turn: a step, or the waking of a loop. -/
theorem after_cases {m : Move} (made : a.after m = some a') :
    (a.claim? m = none ∧ ∃ t, (t = .start .claim ∨ t = .stop .claim) ∧
      a' = { a with tasks := a.tasks ++ [t] }) ∨
    ∃ i old new effect, (m = .step i ∨ effect = .woken) ∧
      a.claim? m = effect.claim?.map (i, ·) ∧ a.tasks[i]? = some old ∧
      Turn a old new effect ∧ a' = a.apply i new effect := by
  cases m with
  | callStart => cases made; exact .inl ⟨rfl, _, .inl rfl, rfl⟩
  | callStop => cases made; exact .inl ⟨rfl, _, .inr rfl, rfl⟩
  | step i =>
    obtain ⟨old, new, effect, found, turn, run⟩ := step_turn made
    refine .inr ⟨i, old, new, effect, .inl rfl, ?_, found, turn, run⟩
    cases turn <;> simp only [claim?, Effect.claim?, Option.map, *]
  | wake i =>
    change a.wake i = some a' at made
    rw [wake] at made
    split at made
    · next n wakeUp found =>
      cases made
      exact .inr ⟨i, _, _, _, .inr rfl, rfl, found, .woken n wakeUp, rfl⟩
    · cases made

/-! ## Where the tasks are -/

/-- The task of this number is at a point of a kind. -/
def isAt (a : Arena) (kind : Task → Bool) (i : Nat) : Bool :=
  a.tasks[i]?.any kind

variable {kind : Task → Bool}

theorem isAt_eq (found : a.tasks[i]? = some old) : a.isAt kind i = kind old := by
  rw [isAt, found, Option.any_some]

theorem exists_of_isAt (there : a.isAt kind i = true) :
    ∃ t, a.tasks[i]? = some t ∧ kind t = true := by
  rw [isAt] at there
  cases found : a.tasks[i]? with
  | none =>
    rw [found] at there
    cases there
  | some t =>
    rw [found] at there
    exact ⟨t, rfl, there⟩

theorem isAt_mono {kind' : Task → Bool} (implies : ∀ {t}, kind t = true → kind' t = true)
    (there : a.isAt kind i = true) : a.isAt kind' i = true := by
  obtain ⟨t, found, there⟩ := exists_of_isAt there
  rw [isAt_eq found, implies there]

/-- A call that joins the tasks is not of a kind that calls do not begin as. -/
theorem unlike_call {t : Task} (new : t = .start .claim ∨ t = .stop .claim)
    (start : kind (.start .claim) = false) (stop : kind (.stop .claim) = false) :
    kind t = false := by
  rcases new with rfl | rfl
  · exact start
  · exact stop

/-- A call that joins the tasks is at no point of a kind that calls do not begin at. -/
theorem isAt_call {t : Task} (unlike : kind t = false) :
    isAt { a with tasks := a.tasks ++ [t] } kind j = a.isAt kind j := by
  simp only [isAt, List.getElem?_append, List.getElem?_singleton]
  split
  · rfl
  · next beyond =>
    rw [List.getElem?_eq_none (Nat.le_of_not_lt beyond)]
    split
    · exact unlike
    · rfl

/-- A turn takes one task to another point and leaves the others where they are. -/
theorem isAt_apply (found : a.tasks[i]? = some old)
    (unlike : ∀ n, kind (.loop n .checkRunning) = false) :
    (a.apply i new effect).isAt kind j = if j = i then kind new else a.isAt kind j := by
  have moved : isAt (a.move i new) kind j = if j = i then kind new else a.isAt kind j := by
    have inside := (List.getElem?_eq_some_iff.mp found).1
    simp only [isAt, move, List.getElem?_set, inside, ↓reduceIte, eq_comm (a := i)]
    split <;> rfl
  cases effect with
  | spawn n => rw [← moved]; exact isAt_call (unlike n)
  | keep | claim | number | notify | woken | enter | act | leave => exact moved

end Arena

end ChassisCooling.Control.Tasks
