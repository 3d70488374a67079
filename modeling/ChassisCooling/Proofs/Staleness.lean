import ChassisCooling.Proofs.Custody

/-! # Loops of ended starts

A start sets the running flag before it takes its number, so between the two the flag of a new start
stands beside the number of an old one. A loop whose start has been ended can pass its checks there,
after the stop that ended its start has given the fans back; and it can run a stale cycle in no
other way.
-/

namespace ChassisCooling.Control.Tasks

/-! ## Kinds of points -/

namespace Task

/-- A start that has taken this number. -/
def hasTaken (n : Nat) : Task → Bool
  | start (.enter m) | start (.enable m) | start (.cycle m) | start (.leave m) | start (.spawn m)
  | start (.done m) => m = n
  | _ => false

/-- A loop of this number in its cycle: it has passed its checks and not yet left the gate. -/
def isCycling (n : Nat) : Task → Bool
  | loop m .cycle | loop m (.leave true) => m = n
  | _ => false

/-- A loop behind the gate that has seen the running flag set there. -/
def hasPassed : Task → Bool
  | loop _ .recheckNumber | loop _ .cycle | loop _ (.leave true) => true
  | _ => false

/-- A stop that has gone through the gate. -/
def hasEntered : Task → Bool
  | stop .restore | stop .leave | stop .done => true
  | _ => false

variable {t : Task} {n : Nat}

theorem isBehindGate_of_hasPassed (passed : t.hasPassed = true) : t.isBehindGate = true := by
  cases t with
  | loop m point => cases point <;> first | rfl | cases passed
  | start | stop => cases passed

theorem hasPassed_of_isCycling (cycling : t.isCycling n = true) : t.hasPassed = true := by
  cases t with
  | loop m point =>
    cases point with
    | cycle => rfl
    | leave again =>
      cases again with
      | true => rfl
      | false => cases cycling
    | _ => cases cycling
  | start | stop => cases cycling

end Task

namespace Turn

variable {a : Arena} {old new : Task} {effect : Effect} {n : Nat}

/-- A start takes the next number, once. -/
theorem hasTaken (turn : Turn a old new effect) (taken : new.hasTaken n = true) :
    old.hasTaken n = true ∨ effect = .number ∧ n = a.starts + 1 := by
  cases turn with
  | number => exact .inr ⟨rfl, (of_decide_eq_true taken).symm⟩
  | enterStart | enable | cycleStart | leaveStart | spawn => exact .inl taken
  | checkRunning | checkNumber | recheckRunning | recheckNumber => split at taken <;> cases taken
  | leaveLoop _ again => cases again <;> cases taken
  | _ => cases taken

theorem hasTaken_after (turn : Turn a old new effect) (taken : old.hasTaken n = true) :
    new.hasTaken n = true := by
  cases turn with
  | enterStart | enable | cycleStart | leaveStart | spawn => exact taken
  | _ => cases taken

/-- A loop comes to its cycle when it finds its own number to be the latest. -/
theorem isCycling (turn : Turn a old new effect) (cycling : new.isCycling n = true) :
    effect ≠ .number ∧ (old.isCycling n = true ∨
      old = .loop n .recheckNumber ∧ effect = .keep ∧ a.starts = n) := by
  cases turn with
  | recheckNumber m =>
    split at cycling
    · next latest =>
      obtain rfl := of_decide_eq_true cycling
      exact ⟨nofun, .inr ⟨rfl, rfl, latest⟩⟩
    · cases cycling
  | cycleLoop m => exact ⟨nofun, .inl cycling⟩
  | checkRunning | checkNumber | recheckRunning => split at cycling <;> cases cycling
  | leaveLoop _ again => cases again <;> cases cycling
  | _ => cases cycling

/-- A loop behind the gate comes to have seen the flag set when it is set. -/
theorem hasPassed (turn : Turn a old new effect) (passed : new.hasPassed = true) :
    old.isBehindGate = true ∧ (old.hasPassed = true ∨ a.running = true) := by
  cases turn with
  | recheckRunning n =>
    split at passed
    · next running => exact ⟨rfl, .inr running⟩
    · cases passed
  | recheckNumber | cycleLoop => exact ⟨rfl, .inl rfl⟩
  | checkRunning | checkNumber => split at passed <;> cases passed
  | leaveLoop _ again => cases again <;> cases passed
  | _ => cases passed

/-- A stop goes through a free gate. -/
theorem hasEntered (turn : Turn a old new effect) (entered : new.hasEntered = true) :
    effect.claim? = none ∧ (old.hasEntered = true ∨ a.gate = none) := by
  cases turn with
  | enterStop free => exact ⟨rfl, .inr free⟩
  | restore | leaveStop => exact ⟨rfl, .inl rfl⟩
  | checkRunning | checkNumber | recheckRunning | recheckNumber =>
    split at entered <;> cases entered
  | leaveLoop _ again => cases again <;> cases entered
  | _ => cases entered

theorem hasEntered_after (turn : Turn a old new effect) (entered : old.hasEntered = true) :
    new.hasEntered = true := by
  cases turn with
  | restore | leaveStop => rfl
  | _ => cases entered

end Turn

namespace Arena

variable {a a' : Arena} {claims : List (Nat × Act)} {i n stop : Nat} {old new : Task}
  {effect : Effect}

theorem starts_apply (other : effect ≠ .number) : (a.apply i new effect).starts = a.starts := by
  cases effect with
  | number => exact absurd rfl other
  | keep | claim | notify | woken | enter | act | leave | spawn => rfl

theorem starts_le_apply (a : Arena) (i : Nat) (new : Task) (effect : Effect) :
    a.starts ≤ (a.apply i new effect).starts := by
  by_cases number : effect = .number
  · rw [number]
    exact Nat.le_succ _
  · exact Nat.le_of_eq (starts_apply number).symm

/-! ## Ended starts -/

/-- The start that has taken this number was ended by this stop, which has gone through the gate:
of all calls that changed the running flag, the stop was the first after the start. -/
def IsEnded (a : Arena) (claims : List (Nat × Act)) (n stop : Nat) : Prop :=
  ∃ start later earlier,
    claims = later ++ (stop, .restoreAuto) :: (start, .enableManual) :: earlier ∧
      a.isAt (Task.hasTaken n) start = true ∧ a.isAt Task.hasEntered stop = true

/-- What does not stand in front stands behind. -/
theorem eq_append_of_toList_append {α : Type} {e : α} {front : Option α} {es later earlier : List α}
    (same : front.toList ++ es = later ++ e :: earlier) (other : front ≠ some e) :
    ∃ rest, es = rest ++ e :: earlier ∧ ∀ x ∈ rest, x ∈ later := by
  cases front with
  | none => exact ⟨later, same, fun _ => id⟩
  | some x =>
    cases later with
    | nil => exact absurd (congrArg some (List.cons.inj same).1) other
    | cons y rest => exact ⟨rest, (List.cons.inj same).2, fun _ => List.mem_cons_of_mem _⟩

section Turns

variable (found : a.tasks[i]? = some old) (turn : Turn a old new effect)
include found turn

/-- Once ended, a start stays ended. -/
theorem IsEnded.apply (ended : a.IsEnded claims n stop) :
    (a.apply i new effect).IsEnded ((effect.claim?.map (i, ·)).toList ++ claims) n stop := by
  obtain ⟨start, later, earlier, rfl, taken, entered⟩ := ended
  refine ⟨start, _ ++ later, earlier, (List.append_assoc ..).symm, ?_, ?_⟩
  · rw [isAt_apply found fun _ => rfl]
    split
    · next same =>
      rw [same, isAt_eq found] at taken
      exact turn.hasTaken_after taken
    · exact taken
  · rw [isAt_apply found fun _ => rfl]
    split
    · next same =>
      rw [same, isAt_eq found] at entered
      exact turn.hasEntered_after entered
    · exact entered

/-- A start is ended by a turn in which it takes its number, or its stop goes through the gate. -/
theorem IsEnded.before
    (ended : (a.apply i new effect).IsEnded ((effect.claim?.map (i, ·)).toList ++ claims) n stop)
    (taken : new.hasTaken n = true → old.hasTaken n = true)
    (entered : new.hasEntered = true → old.hasEntered = true) : a.IsEnded claims n stop := by
  obtain ⟨start, later, earlier, same, tookNumber, wentIn⟩ := ended
  rw [isAt_apply found fun _ => rfl] at tookNumber wentIn
  have other : effect.claim?.map (i, ·) ≠ some (stop, .restoreAuto) := by
    intro claims
    obtain ⟨what, claim, pair⟩ := Option.map_eq_some_iff.mp claims
    obtain ⟨rfl, -⟩ := Prod.mk.inj pair
    rw [if_pos rfl] at wentIn
    rw [(turn.hasEntered wentIn).1] at claim
    cases claim
  obtain ⟨rest, before, -⟩ := eq_append_of_toList_append same other
  refine ⟨start, rest, earlier, before, ?_, ?_⟩
  · split at tookNumber
    · next here => rw [here, isAt_eq found, taken tookNumber]
    · exact tookNumber
  · split at wentIn
    · next here => rw [here, isAt_eq found, entered wentIn]
    · exact wentIn

end Turns

end Arena

/-! ## The invariant -/

/-- What holds of the numbers at any time, beside the custody of the fans. -/
structure Lineage (a : Arena) (claims : List (Nat × Act)) : Prop extends Custody a claims where
  taken : ∀ n i, a.isAt (Task.hasTaken n) i = true → n ≤ a.starts
  cycling : ∀ n i, a.isAt (Task.isCycling n) i = true → n ≤ a.starts
  latest : a.starts ≠ 0 → ∃ i, a.isAt (Task.hasTaken a.starts) i = true
  unique : ∀ n i j, a.isAt (Task.hasTaken n) i = true → a.isAt (Task.hasTaken n) j = true → i = j
  /-- A loop that has passed the gate's first check after a stop went through saw the flag of a
  start that came after the stop. -/
  reset : ∀ i stop later earlier, a.isAt Task.hasPassed i = true →
    a.isAt Task.hasEntered stop = true → claims = later ++ (stop, .restoreAuto) :: earlier →
    ∃ j, (j, .enableManual) ∈ later

namespace Lineage

variable {a a' : Arena} {claims : List (Nat × Act)} {i : Nat} {old new : Task} {effect : Effect}

theorem start : Lineage .start [] where
  toCustody := .start
  taken := by simp [Arena.start, Arena.isAt]
  cycling := by simp [Arena.start, Arena.isAt]
  latest := by simp [Arena.start]
  unique := by simp [Arena.start, Arena.isAt]
  reset := by simp [Arena.start, Arena.isAt]

/-- A call that joins the tasks has no number yet. -/
theorem call (lineage : Lineage a claims) {t : Task} (new : t = .start .claim ∨ t = .stop .claim) :
    Lineage { a with tasks := a.tasks ++ [t] } claims := by
  have unlike : ∀ {kind : Task → Bool}, kind (.start .claim) = false →
      kind (.stop .claim) = false → kind t = false := Arena.unlike_call new
  exact {
    toCustody := lineage.toCustody.call new
    taken := fun n j taken => lineage.taken n j (by rwa [Arena.isAt_call (unlike rfl rfl)] at taken)
    cycling := fun n j cycling =>
      lineage.cycling n j (by rwa [Arena.isAt_call (unlike rfl rfl)] at cycling)
    latest := fun started => by
      obtain ⟨j, taken⟩ := lineage.latest started
      exact ⟨j, by rwa [Arena.isAt_call (unlike rfl rfl)]⟩
    unique := fun n j k taken taken' => by
      rw [Arena.isAt_call (unlike rfl rfl)] at taken taken'
      exact lineage.unique n j k taken taken'
    reset := fun j stop later earlier passed entered same => by
      rw [Arena.isAt_call (unlike rfl rfl)] at passed entered
      exact lineage.reset j stop later earlier passed entered same }

section Turns

variable (lineage : Lineage a claims) (found : a.tasks[i]? = some old)
  (turn : Turn a old new effect)
include lineage found turn

theorem taken_apply (n j : Nat) (taken : (a.apply i new effect).isAt (Task.hasTaken n) j = true) :
    n ≤ (a.apply i new effect).starts := by
  have bound : a.isAt (Task.hasTaken n) j = true ∨ effect = .number ∧ n = a.starts + 1 := by
    rw [Arena.isAt_apply found fun _ => rfl] at taken
    split at taken
    · next same =>
      rw [same, Arena.isAt_eq found]
      exact turn.hasTaken taken
    · exact .inl taken
  obtain before | ⟨rfl, rfl⟩ := bound
  · exact Nat.le_trans (lineage.taken n j before) (Arena.starts_le_apply ..)
  · exact Nat.le_refl _

theorem cycling_apply (n j : Nat)
    (cycling : (a.apply i new effect).isAt (Task.isCycling n) j = true) :
    n ≤ (a.apply i new effect).starts := by
  refine Nat.le_trans ?_ (Arena.starts_le_apply ..)
  rw [Arena.isAt_apply found fun _ => rfl] at cycling
  split at cycling
  · obtain ⟨-, before | ⟨-, -, latest⟩⟩ := turn.isCycling cycling
    · exact lineage.cycling n i (by rw [Arena.isAt_eq found, before])
    · exact Nat.le_of_eq latest.symm
  · exact lineage.cycling n j cycling

theorem latest_apply (started : (a.apply i new effect).starts ≠ 0) :
    ∃ j, (a.apply i new effect).isAt (Task.hasTaken (a.apply i new effect).starts) j = true := by
  by_cases number : effect = .number
  · subst number
    cases turn
    refine ⟨i, ?_⟩
    rw [Arena.isAt_apply found fun _ => rfl, if_pos rfl]
    exact decide_eq_true rfl
  · rw [Arena.starts_apply number] at started ⊢
    obtain ⟨j, taken⟩ := lineage.latest started
    refine ⟨j, ?_⟩
    rw [Arena.isAt_apply found fun _ => rfl]
    split
    · next same =>
      rw [same, Arena.isAt_eq found] at taken
      exact turn.hasTaken_after taken
    · exact taken

theorem unique_apply (n j k : Nat) (taken : (a.apply i new effect).isAt (Task.hasTaken n) j = true)
    (taken' : (a.apply i new effect).isAt (Task.hasTaken n) k = true) : j = k := by
  -- Only the task whose turn it is can have taken a number that was not taken before.
  have before : ∀ j, (a.apply i new effect).isAt (Task.hasTaken n) j = true →
      a.isAt (Task.hasTaken n) j = true ∨ j = i ∧ n = a.starts + 1 := by
    intro j taken
    rw [Arena.isAt_apply found fun _ => rfl] at taken
    split at taken
    · next same =>
      rw [same, Arena.isAt_eq found]
      exact (turn.hasTaken taken).imp_right fun fresh => ⟨rfl, fresh.2⟩
    · exact .inl taken
  have fresh : ∀ j, a.isAt (Task.hasTaken n) j = true → n ≠ a.starts + 1 := by
    rintro j taken rfl
    exact absurd (lineage.taken _ j taken) (Nat.not_succ_le_self _)
  obtain old | ⟨rfl, new⟩ := before j taken
  · obtain old' | ⟨-, new'⟩ := before k taken'
    · exact lineage.unique n j k old old'
    · exact absurd new' (fresh j old)
  · obtain old' | ⟨same, -⟩ := before k taken'
    · exact absurd new (fresh k old')
    · exact same.symm

/-- While a loop is behind the gate, no stop goes through. -/
theorem hasEntered_of_apply {j stop : Nat} (behind : a.isAt Task.isBehindGate j = true)
    (entered : (a.apply i new effect).isAt Task.hasEntered stop = true) :
    a.isAt Task.hasEntered stop = true ∧ effect.claim?.map (i, ·) ≠ some (stop, .restoreAuto) := by
  rw [Arena.isAt_apply found fun _ => rfl] at entered
  split at entered
  · next same =>
    obtain ⟨silent, before | free⟩ := turn.hasEntered entered
    · rw [same, Arena.isAt_eq found, silent]
      exact ⟨before, nofun⟩
    · rw [lineage.gate j behind] at free
      cases free
  · next other =>
    refine ⟨entered, fun claim => ?_⟩
    obtain ⟨what, -, pair⟩ := Option.map_eq_some_iff.mp claim
    exact other (Prod.mk.inj pair).1.symm

theorem reset_apply (j stop : Nat) (later earlier : List (Nat × Act))
    (passed : (a.apply i new effect).isAt Task.hasPassed j = true)
    (entered : (a.apply i new effect).isAt Task.hasEntered stop = true)
    (same : (effect.claim?.map (i, ·)).toList ++ claims =
      later ++ (stop, .restoreAuto) :: earlier) : ∃ k, (k, .enableManual) ∈ later := by
  have before : a.isAt Task.isBehindGate j = true ∧
      (a.isAt Task.hasPassed j = true ∨ a.running = true) := by
    rw [Arena.isAt_apply found fun _ => rfl] at passed
    split at passed
    · next here =>
      rw [here, Arena.isAt_eq found, Arena.isAt_eq found]
      exact turn.hasPassed passed
    · exact ⟨Arena.isAt_mono Task.isBehindGate_of_hasPassed passed, .inl passed⟩
  obtain ⟨behind, seen⟩ := before
  obtain ⟨entered, other⟩ := lineage.hasEntered_of_apply found turn behind entered
  obtain ⟨rest, claimed, among⟩ := Arena.eq_append_of_toList_append same other
  have restarted : ∃ k, (k, .enableManual) ∈ rest := by
    obtain passed | running := seen
    · exact lineage.reset j stop rest earlier passed entered claimed
    · -- The flag is set, so the last to change it was a start, and not this stop.
      have last := lineage.flag.mp running
      rw [claimed] at last
      cases rest with
      | nil => cases last
      | cons claim rest =>
        obtain ⟨k, what⟩ := claim
        obtain rfl : what = .enableManual := Option.some.inj last
        exact ⟨k, List.mem_cons_self ..⟩
  obtain ⟨k, member⟩ := restarted
  exact ⟨k, among _ member⟩

/-- Every turn keeps the invariant. -/
theorem apply : Lineage (a.apply i new effect) ((effect.claim?.map (i, ·)).toList ++ claims) where
  toCustody := lineage.toCustody.apply found turn
  taken := lineage.taken_apply found turn
  cycling := lineage.cycling_apply found turn
  latest := lineage.latest_apply found turn
  unique := lineage.unique_apply found turn
  reset := lineage.reset_apply found turn

end Turns

theorem move {m : Arena.Move} (lineage : Lineage a claims) (made : a.after m = some a') :
    Lineage a' ((a.claim? m).toList ++ claims) := by
  obtain ⟨silent, t, new, rfl⟩ | ⟨i, old, new, effect, -, claim, found, turn, rfl⟩ :=
    Arena.after_cases made
  · rw [silent]
    exact lineage.call new
  · rw [claim]
    exact lineage.apply found turn

end Lineage

/-! ## Stale cycles -/

namespace Arena

variable {a a' : Arena} {claims : List (Nat × Act)} {i p n stop : Nat} {old new : Task}
  {effect : Effect}

/-- A loop is in its cycle although its start has been ended by a stop that went through the
gate. -/
def IsStale (a : Arena) (claims : List (Nat × Act)) : Prop :=
  ∃ i n stop, a.isAt (Task.isCycling n) i = true ∧ a.IsEnded claims n stop

/-- A loop is about to take the number of its start for the latest although the start has been ended
by a stop that went through the gate: a start that came after the stop has set the running flag
again, and no start has taken a later number. -/
def IsSlip (a : Arena) (claims : List (Nat × Act)) (i : Nat) : Prop :=
  ∃ n stop, a.tasks[i]? = some (.loop n .recheckNumber) ∧ a.IsEnded claims n stop ∧
    (∃ j later earlier, claims = later ++ (stop, .restoreAuto) :: earlier ∧
      (j, .enableManual) ∈ later) ∧
    ∀ m j, a.isAt (Task.hasTaken m) j = true → m ≤ n

theorem isSlip_of_latest (lineage : Lineage a claims)
    (found : a.tasks[i]? = some (.loop n .recheckNumber)) (latest : a.starts = n)
    (ended : a.IsEnded claims n stop) : a.IsSlip claims i := by
  refine ⟨n, stop, found, ended, ?_, fun m j taken => latest ▸ lineage.taken m j taken⟩
  obtain ⟨start, later, earlier, same, -, entered⟩ := ended
  obtain ⟨j, member⟩ := lineage.reset i stop later _ (by rw [isAt_eq found]; rfl) entered same
  exact ⟨j, later, _, same, member⟩

/-- What a loop in its cycle was before a turn: in its cycle, or about to pass its last check. -/
theorem isCycling_before (lineage : Lineage a claims) (found : a.tasks[p]? = some old)
    (turn : Turn a old new effect)
    (cycling : (a.apply p new effect).isAt (Task.isCycling n) i = true) :
    a.isAt Task.isBehindGate i = true ∧ (effect = .number → n ≤ a.starts) ∧
      (a.isAt (Task.isCycling n) i = true ∨
        i = p ∧ old = .loop n .recheckNumber ∧ effect = .keep ∧ a.starts = n) := by
  have behind : a.isAt (Task.isCycling n) i = true → a.isAt Task.isBehindGate i = true :=
    Arena.isAt_mono fun cycling =>
      Task.isBehindGate_of_hasPassed (Task.hasPassed_of_isCycling cycling)
  rw [Arena.isAt_apply found fun _ => rfl] at cycling
  split at cycling
  · next here =>
    obtain ⟨other, before | ⟨rfl, keep, latest⟩⟩ := turn.isCycling cycling
    · have before : a.isAt (Task.isCycling n) i = true := by rw [here, Arena.isAt_eq found, before]
      exact ⟨behind before, fun number => absurd number other, .inl before⟩
    · refine ⟨?_, fun number => absurd number other, .inr ⟨here, rfl, keep, latest⟩⟩
      rw [here, Arena.isAt_eq found]
      rfl
  · exact ⟨behind cycling, fun _ => lineage.cycling n i cycling, .inl cycling⟩

/-- A stale cycle begins with a slip. -/
theorem stale_move {m : Move} (lineage : Lineage a claims) (made : a.after m = some a')
    (stale : a'.IsStale ((a.claim? m).toList ++ claims)) :
    a.IsStale claims ∨ ∃ i, m = .step i ∧ a.IsSlip claims i := by
  obtain ⟨i, n, stop, cycling, ended⟩ := stale
  obtain ⟨silent, t, new, rfl⟩ | ⟨p, old, new, effect, isStep, claim, found, turn, rfl⟩ :=
    after_cases made
  · have unlike : ∀ {kind : Task → Bool}, kind (.start .claim) = false →
        kind (.stop .claim) = false → kind t = false := Arena.unlike_call new
    rw [silent] at ended
    obtain ⟨start, later, earlier, same, taken, entered⟩ := ended
    rw [isAt_call (unlike rfl rfl)] at cycling taken entered
    exact .inl ⟨i, n, stop, cycling, start, later, earlier, same, taken, entered⟩
  · rw [claim] at ended
    obtain ⟨behind, numbered, before⟩ := isCycling_before lineage found turn cycling
    have endedBefore : a.IsEnded claims n stop := by
      refine ended.before found turn ?_ ?_
      · intro taken
        obtain before | ⟨number, next⟩ := turn.hasTaken taken
        · exact before
        · exact absurd (next ▸ numbered number) (Nat.not_succ_le_self _)
      · intro entered
        obtain ⟨-, before | free⟩ := turn.hasEntered entered
        · exact before
        · rw [lineage.gate i behind] at free
          cases free
    obtain before | ⟨rfl, rfl, rfl, latest⟩ := before
    · exact .inl ⟨i, n, stop, before, endedBefore⟩
    · have step : m = .step i := isStep.resolve_right nofun
      exact .inr ⟨i, step, isSlip_of_latest lineage found latest endedBefore⟩

/-- A slip leads to a stale cycle. -/
theorem IsSlip.stale (lineage : Lineage a claims) (slip : a.IsSlip claims i) :
    ∃ a', a.after (.step i) = some a' ∧ a'.IsStale ((a.claim? (.step i)).toList ++ claims) := by
  obtain ⟨n, stop, found, ended, -, last⟩ := slip
  have latest : a.starts = n := by
    obtain ⟨start, -, -, -, taken, -⟩ := ended
    refine Nat.le_antisymm ?_ (lineage.taken n start taken)
    by_cases none : a.starts = 0
    · rw [none]
      exact Nat.zero_le _
    · obtain ⟨j, taken⟩ := lineage.latest none
      exact last _ j taken
  have turn := Turn.recheckNumber (a := a) n
  rw [if_pos latest] at turn
  have made : a.after (.step i) = some (a.apply i (.loop n .cycle) .keep) := by
    change a.step i = _
    rw [step, found]
    change some (a.move i (.loop n (if a.starts = n then .cycle else .leave false))) = _
    rw [if_pos latest]
    rfl
  have silent : a.claim? (.step i) = none := by
    rw [claim?, found]
  refine ⟨_, made, i, n, stop, ?_, ?_⟩
  · rw [isAt_apply found fun _ => rfl, if_pos rfl]
    exact decide_eq_true rfl
  · rw [silent]
    exact ended.apply found turn

/-! ## Runs -/

theorem run_append {moves moves' : List Move} (run : a.run moves = some a') :
    a.run (moves ++ moves') = a'.run moves' := by
  rw [Arena.run, List.foldlM_append]
  exact congrArg (· >>= fun b => b.run moves') run

theorem claims_append {moves moves' : List Move} (run : a.run moves = some a') :
    a.claims (moves ++ moves') = a'.claims moves' ++ a.claims moves := by
  induction moves generalizing a with
  | nil =>
    cases run
    exact (List.append_nil _).symm
  | cons m moves ih =>
    obtain ⟨next, first, run⟩ := exists_after run
    rw [List.cons_append, claims_cons first, claims_cons first, ih run, List.append_assoc]

end Arena

/-- Every run keeps the invariant. -/
theorem Lineage.run {a a' : Arena} {claims : List (Nat × Act)} {moves : List Arena.Move}
    (lineage : Lineage a claims) (made : a.run moves = some a') :
    Lineage a' (a.claims moves ++ claims) :=
  Arena.run_keeps (fun lineage => lineage.move) lineage made

/-- A run that leads to a stale cycle has a slip in it, unless the cycle was stale before. -/
theorem Arena.slip_of_stale {a a' : Arena} {claims : List (Nat × Act)} {moves : List Move}
    (lineage : Lineage a claims) (made : a.run moves = some a')
    (stale : a'.IsStale (a.claims moves ++ claims)) :
    a.IsStale claims ∨ ∃ before after b i, moves = before ++ .step i :: after ∧
      a.run before = some b ∧ b.IsSlip (a.claims before ++ claims) i := by
  induction moves generalizing a claims with
  | nil =>
    cases made
    exact .inl stale
  | cons m rest ih =>
    obtain ⟨next, first, made⟩ := exists_after made
    rw [claims_cons first, List.append_assoc] at stale
    obtain stale | ⟨before, after, b, i, rfl, run, slip⟩ := ih (lineage.move first) made stale
    · obtain stale | ⟨i, rfl, slip⟩ := stale_move lineage first stale
      · exact .inl stale
      · exact .inr ⟨[], rest, a, i, rfl, rfl, slip⟩
    · refine .inr ⟨m :: before, after, b, i, rfl, by rw [run_cons first, run], ?_⟩
      rw [claims_cons first, List.append_assoc]
      exact slip

/-- At some time in a run a loop is in a cycle although the start that began it has been ended by a
stop that has gone through the gate. -/
def HasStaleCycle (moves : List Arena.Move) : Prop :=
  ∃ before after a, moves = before ++ after ∧ Arena.start.run before = some a ∧
    a.IsStale (Arena.start.claims before)

/-- At some time in a run a loop takes the number of a start that has been ended for the latest. -/
def HasSlip (moves : List Arena.Move) : Prop :=
  ∃ before after a i, moves = before ++ .step i :: after ∧ Arena.start.run before = some a ∧
    a.IsSlip (Arena.start.claims before) i

/-- A run has a stale cycle in it exactly when it has a slip in it. No two starts share a number. -/
theorem stale_cycle_iff_slip (moves : List Arena.Move) :
    (HasStaleCycle moves ↔ HasSlip moves) ∧
      ∀ a, Arena.start.run moves = some a → ∀ n i j, a.isAt (Task.hasTaken n) i = true →
        a.isAt (Task.hasTaken n) j = true → i = j := by
  refine ⟨⟨?_, ?_⟩, ?_⟩
  · rintro ⟨before, after, a, rfl, run, stale⟩
    rw [← List.append_nil (Arena.start.claims before)] at stale
    obtain stale | ⟨before, rest, b, i, rfl, run, slip⟩ := Arena.slip_of_stale .start run stale
    · obtain ⟨i, n, stop, cycling, -⟩ := stale
      cases cycling
    · rw [List.append_nil] at slip
      exact ⟨before, rest ++ after, b, i, by rw [List.append_assoc]; rfl, run, slip⟩
  · rintro ⟨before, after, a, i, rfl, run, slip⟩
    have lineage := Lineage.start.run run
    rw [List.append_nil] at lineage
    obtain ⟨a', made, stale⟩ := slip.stale lineage
    have single : a.run [.step i] = some a' := (Arena.run_cons made).trans rfl
    refine ⟨before ++ [.step i], after, a', ?_, ?_, ?_⟩
    · rw [List.append_assoc, List.singleton_append]
    · rw [Arena.run_append run, single]
    · rw [Arena.claims_append run, Arena.claims_cons made]
      exact stale
  · intro a run n i j
    exact (Lineage.start.run run).unique n i j

/-- A start by itself, whose loop comes to the gate and waits there for its first tick to be over;
the start is stopped, and another start sets the flag. -/
def staleSchedule : List Arena.Move :=
  .callStart :: List.replicate 7 (.step 0) ++ List.replicate 3 (.step 1) ++
    .callStop :: List.replicate 5 (.step 2) ++ [.callStart, .step 3] ++ List.replicate 4 (.step 1)

theorem hasStaleCycle_staleSchedule : HasStaleCycle staleSchedule := by
  refine ⟨staleSchedule, [], _, rfl, rfl, 1, 1, 2, rfl, ?_⟩
  exact ⟨0, [(3, .enableManual)], [], rfl, rfl, rfl⟩

/-- The loop of the first start slips in that schedule. -/
theorem first_loop_slips : HasSlip staleSchedule :=
  (stale_cycle_iff_slip staleSchedule).1.mp hasStaleCycle_staleSchedule

/-- Between the flag of the second start and its number, the loop of the first runs a cycle after
the stop that ended it has given the fans back. -/
theorem restart_lets_stale_cycle_through : HasStaleCycle staleSchedule ∧
    ∃ a, Arena.start.run staleSchedule = some a ∧
      a.acts = [(1, .cycle), (2, .restoreAuto), (0, .cycle), (0, .enableManual)] :=
  ⟨hasStaleCycle_staleSchedule, _, rfl, rfl⟩

end ChassisCooling.Control.Tasks
