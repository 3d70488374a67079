import ChassisCooling.Proofs.Turns

/-! # Who holds the fans

A start changes the running flag before it takes the fans over, and a stop before it gives them
back; the gate orders the acts on the fans, but nothing orders them as the flag was changed. So the
fans follow the flag exactly when the call that changed it last is of one kind with the call that
was last to act, and a call that overtakes another on its way to the gate can leave them apart.
-/

namespace ChassisCooling.Control.Tasks

/-! ## Kinds of points -/

namespace Task

/-- The task has changed the running flag and is to do this to the fans, or has done it. -/
def hasClaimed (what : Act) : Task → Bool
  | start .claim | start .refused | stop .claim | stop .idle | loop .. => false
  | start _ => what = .enableManual
  | stop _ => what = .restoreAuto

/-- The task has taken the fans over, or has given them back. -/
def hasHanded (what : Act) : Task → Bool
  | start (.cycle _) | start (.leave _) | start (.spawn _) | start (.done _) =>
    what = .enableManual
  | stop .leave | stop .done => what = .restoreAuto
  | _ => false

/-- The task is behind the gate. -/
def isBehindGate : Task → Bool
  | start (.enable _) | start (.cycle _) | start (.leave _) => true
  | stop .restore | stop .leave => true
  | t => t.isInGate

/-- A start that is about to run its cycle. -/
def isDriving : Task → Bool
  | start (.cycle _) => true
  | _ => false

/-- A loop that has seen the running flag set behind the gate, and has not yet run its cycle. -/
def hasSeenRunning : Task → Bool
  | loop _ .recheckNumber | loop _ .cycle => true
  | _ => false

/-- A stop that has cleared the running flag and has not yet given the fans back. -/
def isStopping : Task → Bool
  | stop .notify | stop .enter | stop .restore => true
  | _ => false

theorem isBehindGate_of_isDriving {t : Task} (driving : t.isDriving = true) :
    t.isBehindGate = true := by
  cases t with
  | start point => cases point <;> first | rfl | cases driving
  | stop | loop => cases driving

theorem isBehindGate_of_hasSeenRunning {t : Task} (seen : t.hasSeenRunning = true) :
    t.isBehindGate = true := by
  cases t with
  | loop n point => cases point <;> first | rfl | cases seen
  | start | stop => cases seen

/-- A call at its end has done what its change of the flag asked for. -/
theorem hasClaimed_of_ended {t : Task} (ended : t.isCall = false) (what : Act) :
    t.hasClaimed what = t.hasHanded what := by
  cases t with
  | start point => cases point <;> first | rfl | cases ended
  | stop point => cases point <;> first | rfl | cases ended
  | loop => rfl

theorem hasClaimed_cycle (t : Task) : t.hasClaimed .cycle = false := by
  cases t with
  | start point => cases point <;> rfl
  | stop point => cases point <;> rfl
  | loop => rfl

theorem eq_done_of_hasClaimed {t : Task} (ended : t.isCall = false)
    (claimed : t.hasClaimed .enableManual = true) : ∃ n, t = .start (.done n) := by
  cases t with
  | start point =>
    cases point with
    | done n => exact ⟨n, rfl⟩
    | claim | refused => cases claimed
    | number | enter | enable | cycle | leave | spawn => cases ended
  | stop point => cases point <;> cases claimed
  | loop => cases claimed

theorem isCall_of_isStopping {t : Task} (stopping : t.isStopping = true) : t.isCall = true := by
  cases t with
  | stop point => cases point <;> first | rfl | cases stopping
  | start | loop => cases stopping

end Task

/-- The change of hands that belongs to an effect. -/
def Effect.handover? : Effect → Option Act
  | .act .cycle => none
  | .act what => some what
  | _ => none

namespace Turn

variable {a : Arena} {old new : Task} {effect : Effect}

theorem hasClaimed (turn : Turn a old new effect) (what : Act) :
    new.hasClaimed what = (old.hasClaimed what || effect.claim? = some what) := by
  cases turn <;> cases what <;> rfl

theorem hasClaimed_before (turn : Turn a old new effect) {what : Act}
    (claims : effect.claim? = some what) : old.hasClaimed what = false := by
  cases turn <;> first | rfl | cases claims

theorem hasHanded (turn : Turn a old new effect) (what : Act) :
    new.hasHanded what = (old.hasHanded what || effect.handover? = some what) := by
  cases turn <;> cases what <;> rfl

theorem hasHanded_before (turn : Turn a old new effect) {what : Act}
    (hands : effect.handover? = some what) : old.hasHanded what = false := by
  cases turn <;> first | rfl | cases hands

/-- What a turn does at the gate, from both sides. -/
theorem isBehindGate (turn : Turn a old new effect) :
    match effect with
    | .enter => a.gate = none
    | .leave => old.isBehindGate = true ∧ new.isBehindGate = false
    | .act _ => old.isBehindGate = true ∧ new.isBehindGate = true
    | _ => new.isBehindGate = old.isBehindGate := by
  cases turn with
  | refuse | claimStart | number | spawn | ignore | claimStop | notify | tick | woken => rfl
  | enable | cycleStart | leaveStart | restore | leaveStop | cycleLoop => exact ⟨rfl, rfl⟩
  | enterStart _ free | enterStop free | enterLoop _ free => exact free
  | checkRunning | checkNumber | recheckRunning | recheckNumber => dsimp only; split <;> rfl
  | leaveLoop _ again => cases again <;> exact ⟨rfl, rfl⟩

/-- A loop comes to have seen the flag set when it is set, and keeps that until its cycle. -/
theorem hasSeenRunning (turn : Turn a old new effect) (seen : new.hasSeenRunning = true) :
    effect = .keep ∧ (a.running = true ∨ old.hasSeenRunning = true) := by
  cases turn with
  | recheckRunning n =>
    split at seen
    · next running => exact ⟨rfl, .inl running⟩
    · cases seen
  | recheckNumber n => exact ⟨rfl, .inr rfl⟩
  | checkRunning | checkNumber => split at seen <;> cases seen
  | leaveLoop _ again => cases again <;> cases seen
  | _ => cases seen

end Turn

/-! ## The record of a run -/

namespace Arena

/-- The tasks that changed the running flag in a run, newest first, with what they are to do to the
fans. -/
def claims (a : Arena) : List Move → List (Nat × Act)
  | [] => []
  | m :: rest =>
    match a.after m with
    | none => []
    | some a' => a'.claims rest ++ (a.claim? m).toList

/-- The acts by which the fans changed hands, newest first. -/
def handovers (a : Arena) : List (Nat × Act) :=
  a.acts.filter fun act => act.2 ≠ .cycle

/-- The controller is engaged: the flag is set, or a stop that cleared it has not yet given the fans
back. -/
def IsEngaged (a : Arena) : Prop :=
  a.running = true ∨ ∃ i, a.isAt Task.isStopping i = true

/-- Some entries say of each task whether it is at a point of a kind, and say it once. -/
structure Records (a : Arena) (kind : Act → Task → Bool) (entries : List (Nat × Act)) : Prop where
  nodup : entries.Nodup
  mem_iff : ∀ i what, (i, what) ∈ entries ↔ a.isAt (kind what) i = true

variable {a a' : Arena} {i : Nat} {old new : Task} {effect : Effect}

theorem run_cons {m : Move} {moves : List Move} (made : a.after m = some a') :
    a.run (m :: moves) = a'.run moves := by
  rw [run, List.foldlM_cons, made]
  rfl

theorem claims_cons {m : Move} {moves : List Move} (made : a.after m = some a') :
    a.claims (m :: moves) = a'.claims moves ++ (a.claim? m).toList := by
  rw [claims, made]

/-- A run that can be made begins with a move that can be made. -/
theorem exists_after {m : Move} {moves : List Move} (made : a.run (m :: moves) = some a') :
    ∃ next, a.after m = some next ∧ next.run moves = some a' := by
  cases first : a.after m with
  | none =>
    rw [run, List.foldlM_cons, first] at made
    cases made
  | some next => exact ⟨next, rfl, run_cons first ▸ made⟩

/-- What every move keeps of the tasks and of their record, every run keeps. -/
theorem run_keeps {P : Arena → List (Nat × Act) → Prop} {claims : List (Nat × Act)}
    {moves : List Move}
    (move : ∀ {a a' claims m}, P a claims → a.after m = some a' →
      P a' ((a.claim? m).toList ++ claims))
    (holds : P a claims) (made : a.run moves = some a') : P a' (a.claims moves ++ claims) := by
  induction moves generalizing a claims with
  | nil =>
    cases made
    exact holds
  | cons m rest ih =>
    obtain ⟨next, first, made⟩ := exists_after made
    rw [claims_cons first, List.append_assoc]
    exact ih (move holds first) made

theorem handovers_apply :
    (a.apply i new effect).handovers =
      (effect.handover?.map (i, ·)).toList ++ a.handovers := by
  cases effect with
  | act what => cases what <;> rfl
  | keep | claim | number | notify | woken | enter | leave | spawn => rfl

/-- A turn adds the entry that belongs to its effect. -/
theorem Records.apply {kind : Act → Task → Bool} {entries : List (Nat × Act)} {made : Option Act}
    (records : a.Records kind entries) (found : a.tasks[i]? = some old)
    (unlike : ∀ what n, kind what (.loop n .checkRunning) = false)
    (after : ∀ what, kind what new = (kind what old || made = some what))
    (before : ∀ what, made = some what → kind what old = false) :
    (a.apply i new effect).Records kind ((made.map (i, ·)).toList ++ entries) where
  nodup := by
    cases made with
    | none => exact records.nodup
    | some what =>
      have absent : (i, what) ∉ entries := by
        rw [records.mem_iff, isAt_eq found, before what rfl]
        nofun
      exact List.nodup_cons.mpr ⟨absent, records.nodup⟩
  mem_iff j what := by
    have added : (j, what) ∈ (made.map (i, ·)).toList ↔ j = i ∧ made = some what := by
      cases made <;> simp [eq_comm]
    rw [isAt_apply found (unlike what), List.mem_append, records.mem_iff, after, added]
    split
    · next same =>
      rw [same, isAt_eq found]
      simp [or_comm]
    · next other => simp [other]

theorem Records.call {kind : Act → Task → Bool} {entries : List (Nat × Act)} {t : Task}
    (records : a.Records kind entries) (unlike : ∀ what, kind what t = false) :
    Records { a with tasks := a.tasks ++ [t] } kind entries where
  nodup := records.nodup
  mem_iff j what := by rw [isAt_call (unlike what), records.mem_iff]

/-- Only an act that gives the fans back can disengage the controller. -/
theorem IsEngaged.apply (engaged : a.IsEngaged) (found : a.tasks[i]? = some old)
    (turn : Turn a old new effect) (other : effect ≠ .act .restoreAuto) :
    (a.apply i new effect).IsEngaged := by
  have stays : ∀ {j}, isAt (a.apply i new effect) Task.isStopping j =
      if j = i then new.isStopping else a.isAt Task.isStopping j :=
    isAt_apply found fun _ => rfl
  obtain running | ⟨j, stopping⟩ := engaged
  · cases turn with
    | claimStop => exact .inr ⟨i, by rw [stays, if_pos rfl]; rfl⟩
    | restore => exact absurd rfl other
    | claimStart => exact .inl rfl
    | _ => exact .inl running
  · by_cases same : j = i
    · rw [same, isAt_eq found] at stopping
      refine .inr ⟨i, ?_⟩
      rw [stays, if_pos rfl]
      cases turn with
      | notify | enterStop => rfl
      | restore => exact absurd rfl other
      | _ => cases stopping
    · exact .inr ⟨j, by rw [stays, if_neg same, stopping]⟩

end Arena

/-! ## The invariant -/

/-- What holds of the tasks and of the record of their run at any time. -/
structure Custody (a : Arena) (claims : List (Nat × Act)) : Prop where
  claimed : a.Records Task.hasClaimed claims
  handed : a.Records Task.hasHanded a.handovers
  /-- The flag is as the last task to change it left it. -/
  flag : a.running = true ↔ claims.head?.map Prod.snd = some .enableManual
  started : claims ≠ [] → ∃ i, (i, .enableManual) ∈ claims
  gate : ∀ i, a.isAt Task.isBehindGate i = true → a.gate = some i
  driving : ∀ i, a.isAt Task.isDriving i = true →
    a.handovers.head?.map Prod.snd = some .enableManual
  seen : ∀ i, a.isAt Task.hasSeenRunning i = true → a.IsEngaged
  /-- Only while the controller is engaged can a cycle come after the fans were given back. -/
  cycled : a.acts.head?.map Prod.snd = some .cycle →
    a.handovers.head?.map Prod.snd = some .restoreAuto → a.IsEngaged

namespace Custody

variable {a a' : Arena} {claims : List (Nat × Act)} {i : Nat} {old new : Task} {effect : Effect}

theorem start : Custody .start [] where
  claimed := ⟨.nil, fun i what => by simp [Arena.start, Arena.isAt]⟩
  handed := ⟨.nil, fun i what => by simp [Arena.start, Arena.isAt, Arena.handovers]⟩
  flag := by simp [Arena.start]
  started := by simp
  gate := by simp [Arena.start, Arena.isAt]
  driving := by simp [Arena.start, Arena.isAt]
  seen := by simp [Arena.start, Arena.isAt]
  cycled := by simp [Arena.start]

/-- A call that joins the tasks has done nothing yet. -/
theorem call (custody : Custody a claims) {t : Task} (new : t = .start .claim ∨ t = .stop .claim) :
    Custody { a with tasks := a.tasks ++ [t] } claims := by
  have unlike : ∀ {kind : Task → Bool}, kind (.start .claim) = false →
      kind (.stop .claim) = false → kind t = false := Arena.unlike_call new
  have engaged : a.IsEngaged → Arena.IsEngaged { a with tasks := a.tasks ++ [t] } := by
    rintro (running | ⟨j, stopping⟩)
    · exact .inl running
    · exact .inr ⟨j, by rw [Arena.isAt_call (unlike rfl rfl), stopping]⟩
  exact {
    claimed := custody.claimed.call fun _ => unlike rfl rfl
    handed := custody.handed.call fun _ => unlike rfl rfl
    flag := custody.flag
    started := custody.started
    gate := fun j behind => custody.gate j (by rwa [Arena.isAt_call (unlike rfl rfl)] at behind)
    driving := fun j drives =>
      custody.driving j (by rwa [Arena.isAt_call (unlike rfl rfl)] at drives)
    seen := fun j sees => engaged (custody.seen j (by rwa [Arena.isAt_call (unlike rfl rfl)] at sees))
    cycled := fun cycle restored => engaged (custody.cycled cycle restored) }

/-- At most one task is behind the gate. -/
theorem behindGate_unique (custody : Custody a claims) {j : Nat}
    (behind : a.isAt Task.isBehindGate i = true) (behind' : a.isAt Task.isBehindGate j = true) :
    i = j :=
  Option.some.inj ((custody.gate i behind).symm.trans (custody.gate j behind'))

section Turns

variable (custody : Custody a claims) (found : a.tasks[i]? = some old)
  (turn : Turn a old new effect)
include custody found turn

theorem flag_apply : (a.apply i new effect).running = true ↔
    ((effect.claim?.map (i, ·)).toList ++ claims).head?.map Prod.snd = some .enableManual := by
  cases turn with
  | claimStart | claimStop => simp [Arena.apply, Effect.claim?]
  | _ => exact custody.flag

theorem started_apply (some : (effect.claim?.map (i, ·)).toList ++ claims ≠ []) :
    ∃ j, (j, Act.enableManual) ∈ (effect.claim?.map (i, ·)).toList ++ claims := by
  cases turn with
  | claimStart => exact ⟨i, List.mem_cons_self ..⟩
  | claimStop running =>
    have before : claims ≠ [] := by
      rintro rfl
      cases custody.flag.mp running
    obtain ⟨j, member⟩ := custody.started before
    exact ⟨j, List.mem_cons_of_mem _ member⟩
  | _ => exact custody.started some

theorem gate_apply (j : Nat) (behind : (a.apply i new effect).isAt Task.isBehindGate j = true) :
    (a.apply i new effect).gate = some j := by
  have passage := turn.isBehindGate
  rw [Arena.isAt_apply found fun _ => rfl] at behind
  split at behind
  · next same =>
    rw [same]
    have held : old.isBehindGate = true → a.gate = some i := fun behind =>
      custody.gate i (by rw [Arena.isAt_eq found, behind])
    cases effect with
    | enter => rfl
    | leave =>
      rw [passage.2] at behind
      cases behind
    | act => exact held passage.1
    | keep | claim | number | notify | woken | spawn => exact held (passage.symm.trans behind)
  · next other =>
    have held := custody.gate j behind
    cases effect with
    | enter =>
      rw [passage] at held
      cases held
    | leave =>
      have behind' : a.isAt Task.isBehindGate i = true := by rw [Arena.isAt_eq found, passage.1]
      exact absurd (custody.behindGate_unique behind behind') other
    | keep | claim | number | notify | woken | act | spawn => exact held

/-- Only the task behind the gate acts on the fans. -/
theorem not_act {j : Nat} (behind : a.isAt Task.isBehindGate j = true) (other : j ≠ i)
    (what : Act) : effect ≠ .act what := by
  rintro rfl
  have behind' : a.isAt Task.isBehindGate i = true := by
    rw [Arena.isAt_eq found, turn.isBehindGate.1]
  exact other (custody.behindGate_unique behind behind')

theorem driving_apply (j : Nat) (drives : (a.apply i new effect).isAt Task.isDriving j = true) :
    (a.apply i new effect).handovers.head?.map Prod.snd = some .enableManual := by
  rw [Arena.handovers_apply]
  rw [Arena.isAt_apply found fun _ => rfl] at drives
  split at drives
  · cases turn with
    | enable => rfl
    | _ => cases drives
  · next other =>
    have behind := Arena.isAt_mono Task.isBehindGate_of_isDriving drives
    have silent := custody.not_act found turn behind other
    have unchanged : effect.handover? = none := by
      cases effect with
      | act what => exact absurd rfl (silent what)
      | keep | claim | number | notify | woken | enter | leave | spawn => rfl
    rw [unchanged]
    exact custody.driving j drives

theorem seen_apply (j : Nat) (sees : (a.apply i new effect).isAt Task.hasSeenRunning j = true) :
    (a.apply i new effect).IsEngaged := by
  rw [Arena.isAt_apply found fun _ => rfl] at sees
  split at sees
  · obtain ⟨rfl, running | before⟩ := turn.hasSeenRunning sees
    · exact Arena.IsEngaged.apply (.inl running) found turn nofun
    · exact (custody.seen i (by rw [Arena.isAt_eq found, before])).apply found turn nofun
  · next other =>
    have behind := Arena.isAt_mono Task.isBehindGate_of_hasSeenRunning sees
    exact (custody.seen j sees).apply found turn (custody.not_act found turn behind other _)

theorem cycled_apply (cycle : (a.apply i new effect).acts.head?.map Prod.snd = some .cycle)
    (restored : (a.apply i new effect).handovers.head?.map Prod.snd = some .restoreAuto) :
    (a.apply i new effect).IsEngaged := by
  rw [Arena.handovers_apply] at restored
  cases effect with
  | act what =>
    cases turn with
    | enable | restore => cases cycle
    | cycleStart n =>
      have driving := custody.driving i (by rw [Arena.isAt_eq found]; rfl)
      cases driving.symm.trans restored
    | cycleLoop n =>
      exact (custody.seen i (by rw [Arena.isAt_eq found]; rfl)).apply found (.cycleLoop n) nofun
  | keep | claim | number | notify | woken | enter | leave | spawn =>
    exact (custody.cycled cycle restored).apply found turn nofun

/-- Every turn keeps the invariant. -/
theorem apply : Custody (a.apply i new effect) ((effect.claim?.map (i, ·)).toList ++ claims) where
  claimed := custody.claimed.apply found (fun _ _ => rfl) turn.hasClaimed
    fun _ => turn.hasClaimed_before
  handed := by
    rw [Arena.handovers_apply]
    exact custody.handed.apply found (fun _ _ => rfl) turn.hasHanded fun _ => turn.hasHanded_before
  flag := custody.flag_apply found turn
  started := custody.started_apply found turn
  gate := custody.gate_apply found turn
  driving := custody.driving_apply found turn
  seen := custody.seen_apply found turn
  cycled := custody.cycled_apply found turn

end Turns

theorem move {m : Arena.Move} (custody : Custody a claims) (made : a.after m = some a') :
    Custody a' ((a.claim? m).toList ++ claims) := by
  obtain ⟨silent, t, new, rfl⟩ | ⟨i, old, new, effect, -, claim, found, turn, rfl⟩ :=
    Arena.after_cases made
  · rw [silent]
    exact custody.call new
  · rw [claim]
    exact custody.apply found turn

/-- Every run keeps the invariant. -/
theorem run {moves : List Arena.Move} (custody : Custody a claims)
    (made : a.run moves = some a') : Custody a' (a.claims moves ++ claims) :=
  Arena.run_keeps (fun custody => custody.move) custody made

end Custody

/-! ## The flag and the fans -/

namespace Arena

/-- When a controller that was started has stopped, the last act gave the fans back; while it runs,
the fans were last taken over. -/
def FansFollowFlag (a : Arena) : Prop :=
  (a.running = false → (∃ n, .start (.done n) ∈ a.tasks) →
    a.acts.head?.map Prod.snd = some .restoreAuto) ∧
  (a.running = true → a.handovers.head?.map Prod.snd = some .enableManual)

variable {a : Arena} {claims : List (Nat × Act)}

/-- When no call is under way, the tasks that changed the flag are the ones that acted. -/
theorem perm_of_custody (custody : Custody a claims) (ended : ∀ t ∈ a.tasks, t.isCall = false) :
    claims.Perm a.handovers := by
  refine (List.perm_ext_iff_of_nodup custody.claimed.nodup custody.handed.nodup).mpr ?_
  rintro ⟨i, what⟩
  rw [custody.claimed.mem_iff, custody.handed.mem_iff, isAt, isAt]
  cases found : a.tasks[i]? with
  | none => rfl
  | some t =>
    rw [Option.any_some, Option.any_some,
      Task.hasClaimed_of_ended (ended t (List.mem_of_getElem? found))]

/-- After a stop, with no call under way, the last act is no cycle. -/
theorem restored_iff (custody : Custody a claims) (ended : ∀ t ∈ a.tasks, t.isCall = false)
    (stopped : a.running = false) :
    a.acts.head?.map Prod.snd = some .restoreAuto ↔
      a.handovers.head?.map Prod.snd = some .restoreAuto := by
  have disengaged : ¬ a.IsEngaged := by
    rintro (running | ⟨i, stopping⟩)
    · rw [stopped] at running
      cases running
    · obtain ⟨t, found, stopping⟩ := exists_of_isAt stopping
      have call := Task.isCall_of_isStopping stopping
      rw [ended t (List.mem_of_getElem? found)] at call
      cases call
  have cycled := custody.cycled
  rw [handovers] at cycled ⊢
  generalize a.acts = acts at cycled ⊢
  cases acts with
  | nil => rfl
  | cons last earlier =>
    obtain ⟨i, what⟩ := last
    cases what with
    | enableManual | restoreAuto => rfl
    | cycle => exact iff_of_false nofun fun restored => disengaged (cycled rfl restored)

theorem exists_start (custody : Custody a claims) (ended : ∀ t ∈ a.tasks, t.isCall = false)
    (some : claims ≠ []) : ∃ n, .start (.done n) ∈ a.tasks := by
  obtain ⟨i, member⟩ := custody.started some
  obtain ⟨t, found, claimed⟩ := exists_of_isAt ((custody.claimed.mem_iff i _).mp member)
  have member := List.mem_of_getElem? found
  obtain ⟨n, rfl⟩ := Task.eq_done_of_hasClaimed (ended t member) claimed
  exact ⟨n, member⟩

theorem fansFollowFlag_iff_of_custody (custody : Custody a claims)
    (ended : ∀ t ∈ a.tasks, t.isCall = false) :
    a.FansFollowFlag ↔ claims.head?.map Prod.snd = a.handovers.head?.map Prod.snd := by
  have flag := custody.flag
  have perm := perm_of_custody custody ended
  rw [FansFollowFlag]
  cases running : a.running with
  | true =>
    rw [flag.mp running]
    exact ⟨fun follows => (follows.2 rfl).symm, fun same => ⟨nofun, fun _ => same.symm⟩⟩
  | false =>
    rw [restored_iff custody ended running]
    cases claims with
    | nil =>
      rw [List.nil_perm.mp perm]
      refine iff_of_true ⟨fun _ started => ?_, nofun⟩ rfl
      obtain ⟨n, member⟩ := started
      obtain ⟨i, found⟩ := List.getElem?_of_mem member
      have claimed := (custody.claimed.mem_iff i .enableManual).mpr (by rw [isAt_eq found]; rfl)
      cases claimed
    | cons last earlier =>
      have restored : last.2 = .restoreAuto := by
        have claimed := (custody.claimed.mem_iff last.1 last.2).mp (List.mem_cons_self ..)
        cases kind : last.2 with
        | restoreAuto => rfl
        | enableManual =>
          have set := flag.mpr (congrArg some kind)
          rw [running] at set
          cases set
        | cycle =>
          rw [kind] at claimed
          obtain ⟨t, -, claimed⟩ := exists_of_isAt claimed
          rw [t.hasClaimed_cycle] at claimed
          cases claimed
      rw [List.head?_cons, Option.map_some, restored]
      constructor
      · intro follows
        exact (follows.1 rfl (exists_start custody ended nofun)).symm
      · intro same
        exact ⟨fun _ _ => same.symm, nofun⟩

end Arena

/-- In a run in which no call is under way any more, each task that changed the flag has acted on
the fans once, and the fans follow the flag exactly when the last change of the flag and the last
change of hands are of one kind. -/
theorem fans_follow_flag_iff {moves : List Arena.Move} {a : Arena}
    (run : Arena.start.run moves = some a) (ended : ∀ t ∈ a.tasks, t.isCall = false) :
    (Arena.start.claims moves).Perm a.handovers ∧
      (a.FansFollowFlag ↔
        (Arena.start.claims moves).head?.map Prod.snd = a.handovers.head?.map Prod.snd) := by
  have custody := Custody.start.run run
  rw [List.append_nil] at custody
  exact ⟨Arena.perm_of_custody custody ended, Arena.fansFollowFlag_iff_of_custody custody ended⟩

/-- A start by itself, and after it a stop. -/
def stopAfterStart : List Arena.Move :=
  .callStart :: List.replicate 7 (.step 0) ++ .callStop :: List.replicate 5 (.step 2)

theorem stop_after_start_follows : ∃ a, Arena.start.run stopAfterStart = some a ∧
    (∀ t ∈ a.tasks, t.isCall = false) ∧ a.FansFollowFlag := by
  refine ⟨_, rfl, by decide, ?_⟩
  have run : Arena.start.run stopAfterStart = some _ := rfl
  exact (fans_follow_flag_iff run (by decide)).2.mpr rfl

/-- A stop that overtakes a start between the start's change of the flag and the gate. -/
def stopOvertakes : List Arena.Move :=
  [.callStart, .step 0, .callStop] ++ List.replicate 5 (.step 1) ++ List.replicate 6 (.step 0) ++
    [.step 2]

/-- A second start that overtakes a stop between the stop's change of the flag and the gate. -/
def startOvertakes : List Arena.Move :=
  .callStart :: List.replicate 7 (.step 0) ++ [.callStop, .step 2, .callStart] ++
    List.replicate 7 (.step 3) ++ List.replicate 4 (.step 2) ++ [.step 1, .step 1]

/-- Overtaken by a stop, a start takes the fans over for nobody; overtaken by a start, a stop gives
the fans back under a running controller. -/
theorem overtaking_parts_fans_from_flag :
    (∃ a, Arena.start.run stopOvertakes = some a ∧ a.isQuiet = true ∧ a.running = false ∧
      ¬ a.FansFollowFlag) ∧
    ∃ a, Arena.start.run startOvertakes = some a ∧ a.isQuiet = true ∧ a.running = true ∧
      ¬ a.FansFollowFlag := by
  refine ⟨⟨_, rfl, rfl, rfl, fun follows => ?_⟩, ⟨_, rfl, rfl, rfl, fun follows => ?_⟩⟩
  · cases follows.1 rfl ⟨1, List.mem_cons_self ..⟩
  · cases follows.2 rfl

end ChassisCooling.Control.Tasks
