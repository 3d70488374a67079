import ChassisCooling.Control.Decision
import ChassisCooling.Proofs.Registry
import ChassisCooling.Proofs.Utf8

/-! # The registry and the log of its calls

What a registry answers at a time can be read off the log of the calls made until then: the last
call about a source decides about its hint, and the last override that was set or cleared decides
about the override. Evictions are in the log like all calls, but nothing depends on them.
-/

namespace ChassisCooling.Control

open Calendar

/-! ## The order of sources -/

variable {a b c : String}

theorem sourceBefore_irrefl (a : String) : sourceBefore a a = false :=
  decide_eq_false (List.lt_irrefl _)

theorem sourceBefore_trans (first : sourceBefore a b = true) (second : sourceBefore b c = true) :
    sourceBefore a c = true :=
  decide_eq_true (List.lt_trans (of_decide_eq_true first) (of_decide_eq_true second))

theorem sourceBefore_asymm (before : sourceBefore a b = true) : sourceBefore b a = false :=
  decide_eq_false (List.lt_asymm (of_decide_eq_true before))

theorem encodeString_inj (same : Text.Utf8.encodeString a = Text.Utf8.encodeString b) : a = b := by
  have texts : some a.toList = some b.toList := by
    rw [← Text.Utf8.decode?_encode, ← Text.Utf8.decode?_encode]
    exact congrArg Text.Utf8.decode? same
  exact String.toList_inj.mp (Option.some.inj texts)

theorem sourceBefore_of_not (notBefore : sourceBefore a b = false) (different : a ≠ b) :
    sourceBefore b a = true := by
  refine decide_eq_true (Std.lt_of_le_of_ne (List.not_lt.mp (of_decide_eq_false notBefore)) ?_)
  exact fun same => different (encodeString_inj same).symm

/-! ## Hints in order -/

/-- Hints stand in ascending order of their sources. -/
def AreOrdered (hints : List Hint) : Prop :=
  hints.Pairwise fun h h' => sourceBefore h.source h'.source = true

variable {hints hints' : List Hint} {h new : Hint}

theorem AreOrdered.source_ne (ordered : AreOrdered (new :: hints)) (among : h ∈ hints) :
    h.source ≠ new.source := by
  intro same
  have before := (List.pairwise_cons.mp ordered).1 h among
  rw [same, sourceBefore_irrefl] at before
  cases before

theorem mem_insertHint (ordered : AreOrdered hints) :
    h ∈ insertHint new hints ↔ h = new ∨ h ∈ hints ∧ h.source ≠ new.source := by
  induction hints with
  | nil => simp [insertHint]
  | cons other rest ih =>
    have later := ih (List.pairwise_cons.mp ordered).2
    rw [insertHint]
    split
    · next same =>
      have apart : ∀ h ∈ rest, h.source ≠ new.source := fun h among =>
        same ▸ ordered.source_ne among
      grind
    split
    · next different before =>
      have apart : ∀ h ∈ rest, h.source ≠ new.source := by
        intro h among same
        have between := (List.pairwise_cons.mp ordered).1 h among
        rw [same, sourceBefore_asymm before] at between
        cases between
      grind
    · grind

theorem AreOrdered.insertHint (ordered : AreOrdered hints) : AreOrdered (insertHint new hints) := by
  induction hints with
  | nil => exact List.pairwise_singleton ..
  | cons other rest ih =>
    obtain ⟨first, rest'⟩ := List.pairwise_cons.mp ordered
    rw [Control.insertHint]
    split
    · next same => exact List.pairwise_cons.mpr ⟨fun h among => same ▸ first h among, rest'⟩
    split
    · next different before =>
      refine List.pairwise_cons.mpr ⟨List.forall_mem_cons.mpr ⟨before, fun h among => ?_⟩, ordered⟩
      exact sourceBefore_trans before (first h among)
    · next different notBefore =>
      refine List.pairwise_cons.mpr ⟨fun h among => ?_, ih rest'⟩
      rcases (mem_insertHint rest').mp among with rfl | ⟨among, -⟩
      · exact sourceBefore_of_not (Bool.eq_false_iff.mpr notBefore) (Ne.symm different)
      · exact first h among

theorem AreOrdered.nodup (ordered : AreOrdered hints) : hints.Nodup := by
  refine ordered.imp fun {h h'} before same => ?_
  rw [same, sourceBefore_irrefl] at before
  cases before

/-- Hints in order are determined by what is among them. -/
theorem AreOrdered.ext (ordered : AreOrdered hints) (ordered' : AreOrdered hints')
    (same : ∀ h, h ∈ hints ↔ h ∈ hints') : hints = hints' := by
  refine List.Perm.eq_of_pairwise ?_ ordered ordered'
    ((List.perm_ext_iff_of_nodup ordered.nodup ordered'.nodup).mpr same)
  intro h h' _ _ before after
  rw [sourceBefore_asymm before] at after
  cases after

/-! ## How long something lasts -/

/-- Something that began at a time lasts until another: it has no positive duration, or its end is
not past. -/
def Lasts (start : Instant) (duration : Span) (t : Instant) : Prop :=
  duration.nanos ≤ 0 ∨ ∃ ends, start.add duration = .ok ends ∧ t ≤ ends

theorem isPast_some {ends t : Instant} : isPast (some ends) t = false ↔ t ≤ ends := by
  rw [isPast, decide_eq_false_iff_not]
  exact Int.not_lt

theorem isPast_mono {expires : Option Instant} {t u : Instant} (later : t ≤ u)
    (past : isPast expires t = true) : isPast expires u = true := by
  cases expires with
  | none => cases past
  | some ends => exact decide_eq_true (Int.lt_of_lt_of_le (of_decide_eq_true past) later)

theorem isPast_expiry {start t : Instant} {duration : Span} {expires : Option Instant}
    (ends : expiry start duration = .ok expires) :
    isPast expires t = false ↔ Lasts start duration t := by
  rw [expiry] at ends
  split at ends
  · next endless =>
    cases ends
    exact iff_of_true rfl (.inl endless)
  · next positive =>
    obtain ⟨last, added, rfl⟩ := ok_of_map ends
    rw [isPast_some]
    constructor
    · exact fun reached => .inr ⟨last, added, reached⟩
    · rintro (endless | ⟨last', added', reached⟩)
      · exact absurd endless positive
      · rw [added] at added'
        cases added'
        exact reached

namespace Registry

variable {r next : Registry} {t time : Instant}

/-- An eviction answers no question at its own time or later differently. -/
theorem evict_liveHints (r : Registry) (later : time ≤ t) :
    (r.evict time).liveHints t = r.liveHints t := by
  rw [evict, liveHints, liveHints, liveHints, List.filter_filter]
  refine List.filter_congr fun h _ => ?_
  cases past : h.isExpired time with
  | false => simp
  | true =>
    have still : h.isExpired t = true := isPast_mono later past
    simp [still]

theorem evict_activeOverride_later (r : Registry) (later : time ≤ t) :
    (r.evict time).activeOverride t = r.activeOverride t := by
  rw [evict, activeOverride, activeOverride, activeOverride, Option.filter_filter]
  cases r.override with
  | none => rfl
  | some o =>
    cases past : o.isExpired time with
    | false => simp [Option.filter_some, past]
    | true =>
      have still : o.isExpired t = true := isPast_mono later past
      simp [Option.filter_some, past, still]

/-! ## Logs -/

/-- A call that may change a registry. -/
inductive Change where
  | addHint (request : HintRequest)
  | removeHint (source : String)
  | setOverride (speed : Int) (duration : Span) (reason : String)
  | clearOverride
  | evict

/-- A call and its time. -/
structure Entry where
  time : Instant
  change : Change

namespace Entry

/-- What a registry becomes by a call, if the call returns. -/
def apply (r : Registry) (e : Entry) : Except OutOfCalendar Registry :=
  match e.change with
  | .addHint request => Prod.snd <$> r.addHint request e.time
  | .removeHint source => .ok (r.removeHint source)
  | .setOverride speed duration reason =>
    Prod.snd <$> r.setOverride speed duration reason e.time
  | .clearOverride => .ok r.clearOverride
  | .evict => .ok (r.evict e.time)

/-- The call gives a source a hint or takes it away. -/
def concerns (source : String) (e : Entry) : Bool :=
  match e.change with
  | .addHint request => request.source == source
  | .removeHint other => other == source
  | _ => false

/-- The call sets the override, with a speed that is a percentage, or clears it. -/
def settles (e : Entry) : Bool :=
  match e.change with
  | .setOverride speed _ _ => 0 ≤ speed ∧ speed ≤ 100
  | .clearOverride => true
  | _ => false

/-- The call is an eviction. -/
def evicts (e : Entry) : Bool :=
  match e.change with
  | .evict => true
  | _ => false

end Entry

variable {log done rest : List Entry} {e : Entry} {kind wider : Entry → Bool}

/-- What a registry becomes by the calls of a log, if they all return. -/
def run (r : Registry) (log : List Entry) : Except OutOfCalendar Registry :=
  log.foldlM Entry.apply r

/-- The last call of a kind. -/
def last? (kind : Entry → Bool) (log : List Entry) : Option Entry :=
  log.reverse.find? kind

theorem last?_concat : last? kind (log ++ [e]) = if kind e then some e else last? kind log := by
  rw [last?, List.reverse_append, List.reverse_singleton, List.singleton_append, List.find?_cons]
  cases kind e <;> rfl

/-- Calls of no wider kind do not count for the last call of a kind. -/
theorem last?_filter (wide : ∀ e, kind e = true → wider e = true) :
    last? kind (log.filter wider) = last? kind log := by
  rw [last?, last?, ← List.filter_reverse, List.find?_filter]
  congr 1
  funext e
  cases known : kind e with
  | false => simp
  | true => simp [wide e known]

/-! ## What a log says -/

/-- The last call about the source of a hint asks for the hint, and the hint lasts. -/
def IsDue (log : List Entry) (t : Instant) (h : Hint) : Prop :=
  ∃ time request, last? (Entry.concerns h.source) log = some ⟨time, .addHint request⟩ ∧
    hintOf request time = .ok h ∧ Lasts time request.duration t

/-- The last call that settles the override sets it, and the override lasts. -/
def IsSet (log : List Entry) (t : Instant) (o : Override) : Prop :=
  ∃ time speed duration reason,
    last? Entry.settles log = some ⟨time, .setOverride speed duration reason⟩ ∧
    (∃ expires, expiry time duration = .ok expires ∧
      o = ⟨.ofNat speed.toNat, reason, expires, time⟩) ∧
    Lasts time duration t

/-- What a registry answers at a time is what a log says. -/
structure Reflects (log : List Entry) (t : Instant) (r : Registry) : Prop where
  ordered : AreOrdered r.hints
  hints : ∀ h, h ∈ r.liveHints t ↔ IsDue log t h
  override : ∀ o, r.activeOverride t = some o ↔ IsSet log t o

theorem isDue_skip (other : e.concerns h.source = false) :
    IsDue (log ++ [e]) t h ↔ IsDue log t h := by
  rw [IsDue, last?_concat, other]
  rfl

theorem isSet_skip {o : Override} (other : e.settles = false) :
    IsSet (log ++ [e]) t o ↔ IsSet log t o := by
  rw [IsSet, last?_concat, other]
  rfl

theorem mem_liveHints : h ∈ r.liveHints t ↔ h ∈ r.hints ∧ h.isExpired t = false := by
  rw [liveHints, List.mem_filter, Bool.not_eq_true']

theorem activeOverride_eq_some {o : Override} :
    r.activeOverride t = some o ↔ r.override = some o ∧ o.isExpired t = false := by
  rw [activeOverride, Option.filter_eq_some_iff, Bool.not_eq_true']

theorem reflects_empty : Reflects [] t empty where
  ordered := .nil
  hints := fun _ => iff_of_false nofun nofun
  override := fun _ => iff_of_false nofun nofun

theorem hintOf_cases {request : HintRequest} (made : hintOf request time = .ok h) :
    h.source = request.source ∧ expiry time request.duration = .ok h.expires := by
  obtain ⟨expires, ends, same⟩ := ok_of_bind made
  cases same
  exact ⟨rfl, ends⟩

theorem Reflects.addHint {request : HintRequest} (reflects : Reflects log t r)
    (added : r.addHint request time = .ok (new, next)) :
    Reflects (log ++ [⟨time, .addHint request⟩]) t next := by
  obtain ⟨new, made, same⟩ := ok_of_bind added
  cases same
  obtain ⟨source, ends⟩ := hintOf_cases made
  refine ⟨reflects.ordered.insertHint, fun h => ?_, fun o => ?_⟩
  · rw [mem_liveHints, mem_insertHint reflects.ordered]
    by_cases same : h.source = new.source
    · have concerned : Entry.concerns h.source ⟨time, .addHint request⟩ = true := by
        rw [Entry.concerns, beq_iff_eq, same, source]
      constructor
      · rintro ⟨rfl | ⟨-, different⟩, live⟩
        · refine ⟨time, request, ?_, made, (isPast_expiry ends).mp live⟩
          rw [last?_concat, if_pos concerned]
        · exact absurd same different
      · rintro ⟨time', request', last, made', lasts⟩
        rw [last?_concat, if_pos concerned] at last
        cases last
        rw [made] at made'
        cases made'
        exact ⟨.inl rfl, (isPast_expiry ends).mpr lasts⟩
    · have other : Entry.concerns h.source ⟨time, .addHint request⟩ = false := by
        rw [Entry.concerns, beq_eq_false_iff_ne, ← source]
        exact Ne.symm same
      rw [isDue_skip other, ← reflects.hints, mem_liveHints]
      constructor
      · rintro ⟨rfl | ⟨among, -⟩, live⟩
        · exact absurd rfl same
        · exact ⟨among, live⟩
      · exact fun ⟨among, live⟩ => ⟨.inr ⟨among, same⟩, live⟩
  · rw [isSet_skip rfl, ← reflects.override]
    rfl

theorem Reflects.removeHint (reflects : Reflects log t r) (source : String) :
    Reflects (log ++ [⟨time, .removeHint source⟩]) t (r.removeHint source) := by
  refine ⟨reflects.ordered.filter _, fun h => ?_, fun o => ?_⟩
  · rw [mem_liveHints, Registry.removeHint, List.mem_filter, bne_iff_ne]
    by_cases same : h.source = source
    · have concerned : Entry.concerns h.source ⟨time, .removeHint source⟩ = true := by
        rw [Entry.concerns, beq_iff_eq, same]
      refine iff_of_false (fun held => held.1.2 same) ?_
      rintro ⟨time', request', last, -⟩
      rw [last?_concat, if_pos concerned] at last
      cases last
    · have other : Entry.concerns h.source ⟨time, .removeHint source⟩ = false := by
        rw [Entry.concerns, beq_eq_false_iff_ne]
        exact Ne.symm same
      rw [isDue_skip other, ← reflects.hints, mem_liveHints]
      exact and_congr_left fun _ => and_iff_left same
  · rw [isSet_skip rfl, ← reflects.override]
    rfl

theorem Reflects.setOverride {speed : Int} {duration : Span} {reason : String}
    {result : Except Fault Override} (reflects : Reflects log t r)
    (answered : r.setOverride speed duration reason time = .ok (result, next)) :
    Reflects (log ++ [⟨time, .setOverride speed duration reason⟩]) t next := by
  rcases setOverride_cases answered with ⟨low, high, expires, ends, rfl⟩ | ⟨refused, rfl⟩
  · refine ⟨reflects.ordered, fun h => ?_, fun o => ?_⟩
    · rw [isDue_skip rfl, ← reflects.hints]
      rfl
    · have settled : Entry.settles ⟨time, .setOverride speed duration reason⟩ = true :=
        decide_eq_true ⟨low, high⟩
      rw [activeOverride_eq_some]
      constructor
      · rintro ⟨⟨⟩, live⟩
        have lasts := (isPast_expiry ends).mp live
        refine ⟨time, speed, duration, reason, ?_, ⟨expires, ends, rfl⟩, lasts⟩
        rw [last?_concat, if_pos settled]
      · rintro ⟨time', speed', duration', reason', last, ⟨expires', ends', rfl⟩, lasts⟩
        rw [last?_concat, if_pos settled] at last
        cases last
        rw [ends] at ends'
        cases ends'
        exact ⟨rfl, (isPast_expiry ends).mpr lasts⟩
  · have other : Entry.settles ⟨time, .setOverride speed duration reason⟩ = false :=
      decide_eq_false refused
    refine ⟨reflects.ordered, fun h => ?_, fun o => ?_⟩
    · rw [isDue_skip rfl, ← reflects.hints]
    · rw [isSet_skip other, ← reflects.override]

theorem Reflects.clearOverride (reflects : Reflects log t r) :
    Reflects (log ++ [⟨time, .clearOverride⟩]) t r.clearOverride := by
  refine ⟨reflects.ordered, fun h => ?_, fun o => iff_of_false nofun ?_⟩
  · rw [isDue_skip rfl, ← reflects.hints]
    rfl
  · rintro ⟨time', speed, duration, reason, last, -⟩
    rw [last?_concat] at last
    cases last

theorem Reflects.evict (reflects : Reflects log t r) (later : time ≤ t) :
    Reflects (log ++ [⟨time, .evict⟩]) t (r.evict time) := by
  refine ⟨reflects.ordered.filter _, fun h => ?_, fun o => ?_⟩
  · rw [isDue_skip rfl, evict_liveHints r later, reflects.hints]
  · rw [isSet_skip rfl, evict_activeOverride_later r later, reflects.override]

/-- A call, not later than the time of the question, keeps a registry the reflection of its log. -/
theorem Reflects.apply (reflects : Reflects log t r) (later : e.time ≤ t)
    (applied : e.apply r = .ok next) : Reflects (log ++ [e]) t next := by
  obtain ⟨time, change⟩ := e
  cases change with
  | addHint request =>
    obtain ⟨⟨new, r'⟩, added, rfl⟩ := ok_of_map applied
    exact reflects.addHint added
  | removeHint source =>
    cases applied
    exact reflects.removeHint source
  | setOverride speed duration reason =>
    obtain ⟨⟨result, r'⟩, answered, rfl⟩ := ok_of_map applied
    exact reflects.setOverride answered
  | clearOverride =>
    cases applied
    exact reflects.clearOverride
  | evict =>
    cases applied
    exact reflects.evict later

theorem Reflects.run (reflects : Reflects done t r) (later : ∀ e ∈ rest, e.time ≤ t)
    (ended : r.run rest = .ok next) : Reflects (done ++ rest) t next := by
  induction rest generalizing done r with
  | nil =>
    cases ended
    rwa [List.append_nil]
  | cons e rest ih =>
    obtain ⟨first, after⟩ := List.forall_mem_cons.mp later
    obtain ⟨r', applied, ended⟩ := ok_of_bind ended
    have moved : done ++ e :: rest = done ++ [e] ++ rest := by
      rw [List.append_assoc, List.singleton_append]
    rw [moved]
    exact ih (reflects.apply first applied) after ended

/-! ## Calls that return -/

/-- The call returns: the end of what it sets is a time of the calendar. -/
def Entry.Returns (e : Entry) : Prop :=
  match e.change with
  | .addHint request => ∃ expires, expiry e.time request.duration = .ok expires
  | .setOverride speed duration _ =>
    0 ≤ speed ∧ speed ≤ 100 → ∃ expires, expiry e.time duration = .ok expires
  | _ => True

theorem returns_of_evicts (evicting : e.evicts = true) : e.Returns := by
  obtain ⟨time, change⟩ := e
  cases change with
  | evict => trivial
  | addHint | removeHint | setOverride | clearOverride => cases evicting

theorem apply_ok_iff (r : Registry) (e : Entry) : (∃ next, e.apply r = .ok next) ↔ e.Returns := by
  obtain ⟨time, change⟩ := e
  cases change with
  | addHint request =>
    simp only [Entry.apply, Entry.Returns, Registry.addHint, hintOf]
    cases expiry time request.duration with
    | error fault =>
      refine iff_of_false ?_ ?_
      · rintro ⟨next, ⟨⟩⟩
      · rintro ⟨h, ⟨⟩⟩
    | ok expires => exact iff_of_true ⟨_, rfl⟩ ⟨_, rfl⟩
  | setOverride speed duration reason =>
    simp only [Entry.apply, Entry.Returns, Registry.setOverride]
    split
    · next percentage =>
      cases expiry time duration with
      | error fault =>
        refine iff_of_false ?_ ?_
        · rintro ⟨next, ⟨⟩⟩
        · intro returns
          obtain ⟨expires, ⟨⟩⟩ := returns percentage
      | ok expires => exact iff_of_true ⟨_, rfl⟩ fun _ => ⟨_, rfl⟩
    · next refused => exact iff_of_true ⟨_, rfl⟩ fun percentage => absurd percentage refused
  | removeHint | clearOverride | evict => exact iff_of_true ⟨_, rfl⟩ trivial

/-- Whether the calls of a log return does not depend on what was registered before. -/
theorem run_ok_iff (r : Registry) (log : List Entry) :
    (∃ next, r.run log = .ok next) ↔ ∀ e ∈ log, e.Returns := by
  induction log generalizing r with
  | nil => exact iff_of_true ⟨r, rfl⟩ nofun
  | cons e log ih =>
    rw [List.forall_mem_cons, ← apply_ok_iff r e, run, List.foldlM_cons, exists_ok_bind_iff]
    constructor
    · rintro ⟨next, applied, ended⟩
      exact ⟨⟨next, applied⟩, (ih next).mp ended⟩
    · rintro ⟨⟨next, applied⟩, later⟩
      exact ⟨next, applied, (ih next).mpr later⟩

theorem mem_of_last? (last : last? kind log = some e) : e ∈ log ∧ kind e = true :=
  ⟨List.mem_reverse.mp (List.mem_of_find?_eq_some last), List.find?_some last⟩

/-! ## What the answers depend on -/

/-- A registry at a time holds what its log says: a source has a live hint if and only if the last
call about it asks for one that lasts, which is then the hint, and so with the override. -/
structure Follows (log : List Entry) (t : Instant) (r : Registry) : Prop where
  ordered : AreOrdered (r.liveHints t)
  hints : ∀ h, h ∈ r.liveHints t ↔ IsDue log t h
  sources : ∀ source, (∃ h ∈ r.liveHints t, h.source = source) ↔
    ∃ time request, last? (Entry.concerns source) log = some ⟨time, .addHint request⟩ ∧
      Lasts time request.duration t
  override : ∀ o, r.activeOverride t = some o ↔ IsSet log t o
  active : (∃ o, r.activeOverride t = some o) ↔
    ∃ time speed duration reason,
      last? Entry.settles log = some ⟨time, .setOverride speed duration reason⟩ ∧
      Lasts time duration t

/-- Two registries answer every question at a time alike. -/
structure SameAnswers (r r' : Registry) (t : Instant) : Prop where
  hints : r.liveHints t = r'.liveHints t
  count : (r.liveHints t).length = (r'.liveHints t).length
  floor : r.hintFloor t = r'.hintFloor t
  override : r.activeOverride t = r'.activeOverride t
  mode : r.mode t = r'.mode t
  decide : ∀ (h : Hysteresis) (c : FanControl) (cpu gpu : Int32),
    h.decide c r cpu gpu t = h.decide c r' cpu gpu t

theorem sameAnswers {r' : Registry} (hints : r.liveHints t = r'.liveHints t)
    (override : r.activeOverride t = r'.activeOverride t) : SameAnswers r r' t := by
  have floor : r.hintFloor t = r'.hintFloor t := by rw [hintFloor, hintFloor, hints]
  refine ⟨hints, congrArg _ hints, floor, override, ?_, fun h c cpu gpu => ?_⟩
  · rw [mode, mode, hints, override]
  · rw [Hysteresis.decide, Hysteresis.decide, override, floor]

theorem Reflects.follows (reflects : Reflects log t r) (returned : ∀ e ∈ log, e.Returns) :
    Follows log t r := by
  refine ⟨reflects.ordered.filter _, reflects.hints, fun source => ?_, reflects.override, ?_⟩
  · constructor
    · rintro ⟨h, live, rfl⟩
      obtain ⟨time, request, last, -, lasts⟩ := (reflects.hints h).mp live
      exact ⟨time, request, last, lasts⟩
    · rintro ⟨time, request, last, lasts⟩
      obtain ⟨among, concerned⟩ := mem_of_last? last
      obtain ⟨expires, ends⟩ := returned _ among
      obtain ⟨h, made⟩ : ∃ h, hintOf request time = .ok h := by
        rw [hintOf, ends]
        exact ⟨_, rfl⟩
      have same : h.source = source := (hintOf_cases made).1.trans (beq_iff_eq.mp concerned)
      exact ⟨h, (reflects.hints h).mpr ⟨time, request, same ▸ last, made, lasts⟩, same⟩
  · constructor
    · rintro ⟨o, active⟩
      obtain ⟨time, speed, duration, reason, last, -, lasts⟩ := (reflects.override o).mp active
      exact ⟨time, speed, duration, reason, last, lasts⟩
    · rintro ⟨time, speed, duration, reason, last, lasts⟩
      obtain ⟨among, settled⟩ := mem_of_last? last
      obtain ⟨expires, ends⟩ := returned _ among (of_decide_eq_true settled)
      exact ⟨_, (reflects.override _).mpr
        ⟨time, speed, duration, reason, last, ⟨expires, ends, rfl⟩, lasts⟩⟩

theorem isDue_congr {log log' : List Entry}
    (same : log'.filter (Entry.concerns h.source) = log.filter (Entry.concerns h.source)) :
    IsDue log' t h ↔ IsDue log t h := by
  have last : last? (Entry.concerns h.source) log' = last? (Entry.concerns h.source) log := by
    rw [← last?_filter fun _ concerned => concerned, same,
      last?_filter fun _ concerned => concerned]
  rw [IsDue, IsDue, last]

theorem isSet_congr {log log' : List Entry} {o : Override}
    (same : log'.filter Entry.settles = log.filter Entry.settles) :
    IsSet log' t o ↔ IsSet log t o := by
  have last : last? Entry.settles log' = last? Entry.settles log := by
    rw [← last?_filter fun _ settled => settled, same, last?_filter fun _ settled => settled]
  rw [IsSet, IsSet, last]

/-- Logs that agree on the calls of a wider kind agree on those of a kind. -/
theorem filter_of_wider {log log' : List Entry} (wide : ∀ e, kind e = true → wider e = true)
    (same : log'.filter wider = log.filter wider) : log'.filter kind = log.filter kind := by
  have narrow : ∀ entries : List Entry,
      (entries.filter wider).filter kind = entries.filter kind := by
    intro entries
    rw [List.filter_filter]
    refine List.filter_congr fun e _ => ?_
    cases known : kind e with
    | false => rfl
    | true => exact wide e known
  rw [← narrow, same, narrow]

/-- No answer depends on the evictions in a log. -/
theorem Reflects.sameAnswers {log log' : List Entry} {r' : Registry} (reflects : Reflects log t r)
    (reflects' : Reflects log' t r')
    (same : (log'.filter fun e => !e.evicts) = log.filter (fun e => !e.evicts)) :
    SameAnswers r r' t := by
  refine Registry.sameAnswers ?_ (Option.ext fun o => ?_)
  · refine AreOrdered.ext (reflects.ordered.filter _) (reflects'.ordered.filter _) fun h => ?_
    have concerned : ∀ e : Entry, e.concerns h.source = true → (!e.evicts) = true := by
      rintro ⟨time, _ | _ | _ | _ | _⟩ held
      all_goals first | rfl | cases held
    rw [reflects.hints, reflects'.hints, isDue_congr (filter_of_wider concerned same)]
  · have settled : ∀ e : Entry, e.settles = true → (!e.evicts) = true := by
      rintro ⟨time, _ | _ | _ | _ | _⟩ held
      all_goals first | rfl | cases held
    rw [reflects.override, reflects'.override, isSet_congr (filter_of_wider settled same)]

/-- A registry holds at any time what the log of its calls says, whether or not anything has been
evicted, and a source what the calls about it say; a refused override changes nothing. -/
theorem registry_follows_log {log : List Entry} {t : Instant} {r : Registry}
    (ended : empty.run log = .ok r) (later : ∀ e ∈ log, e.time ≤ t) :
    Follows log t r ∧
    (∀ log' : List Entry, (∀ e ∈ log', e.time ≤ t) →
      (log'.filter fun e => !e.evicts) = log.filter (fun e => !e.evicts) →
      ∃ r', empty.run log' = .ok r' ∧ SameAnswers r r' t) ∧
    (∀ (log' : List Entry) (r' : Registry) (source : String), empty.run log' = .ok r' →
      (∀ e ∈ log', e.time ≤ t) →
      log'.filter (Entry.concerns source) = log.filter (Entry.concerns source) →
      ((r.liveHints t).filter fun h => h.source == source) =
        (r'.liveHints t).filter fun h => h.source == source) ∧
    (∀ (speed : Int) (duration : Span) (reason : String) (time : Instant),
      ¬ (0 ≤ speed ∧ speed ≤ 100) →
      r.setOverride speed duration reason time = .ok (.error (.invalidSpeed speed), r)) := by
  have reflects : Reflects log t r := reflects_empty.run later ended
  have returned := (run_ok_iff empty log).mp ⟨r, ended⟩
  refine ⟨reflects.follows returned, ?_, ?_, ?_⟩
  · intro log' later' same
    have returned' : ∀ e ∈ log', e.Returns := by
      intro e among
      by_cases evicting : e.evicts = true
      · exact returns_of_evicts evicting
      · have kept : e ∈ log'.filter fun e => !e.evicts :=
          List.mem_filter.mpr ⟨among, by simp [evicting]⟩
        rw [same] at kept
        exact returned e (List.mem_filter.mp kept).1
    obtain ⟨r', ended'⟩ := (run_ok_iff empty log').mpr returned'
    exact ⟨r', ended', reflects.sameAnswers (reflects_empty.run later' ended') same⟩
  · intro log' r' source ended' later' same
    have reflects' : Reflects log' t r' := reflects_empty.run later' ended'
    refine AreOrdered.ext ((reflects.ordered.filter _).filter _)
      ((reflects'.ordered.filter _).filter _) fun h => ?_
    rw [List.mem_filter, List.mem_filter, reflects.hints, reflects'.hints]
    refine and_congr_left fun named => ?_
    obtain rfl := beq_iff_eq.mp named
    exact (isDue_congr same).symm
  · intro speed duration reason time refused
    rw [Registry.setOverride, if_neg refused]
    rfl

/-! A log of two sources and two overrides, of which the second is refused. -/

def minute (n : Int) : Instant :=
  .ofMillis (1748764800000 + n * 60000)

def sampleLog : List Entry := [
  ⟨minute 0, .addHint ⟨"build", "start", "high", "ci", ⟨600000000000⟩⟩⟩,
  ⟨minute 1, .addHint ⟨"train", "start", "low", "lab", ⟨0⟩⟩⟩,
  ⟨minute 2, .setOverride 60 ⟨300000000000⟩ "test"⟩,
  ⟨minute 3, .setOverride 101 ⟨0⟩ ""⟩,
  ⟨minute 8, .evict⟩,
  ⟨minute 9, .removeHint "lab"⟩]

/-- The hint of the first source lasts up to the end of its ten minutes; the override is over. -/
theorem sampleLog_followed :
    ∃ r, empty.run sampleLog = .ok r ∧ (∀ e ∈ sampleLog, e.time ≤ minute 10) ∧
      Follows sampleLog (minute 10) r ∧ (∃ h ∈ r.liveHints (minute 10), h.source = "ci") ∧
      r.activeOverride (minute 10) = none := by
  have later : ∀ e ∈ sampleLog, e.time ≤ minute 10 := by decide
  obtain ⟨r, ended⟩ : ∃ r, empty.run sampleLog = .ok r := ⟨_, rfl⟩
  obtain ⟨follows, -⟩ := registry_follows_log ended later
  refine ⟨r, ended, later, follows, (follows.sources "ci").mpr ?_, ?_⟩
  · exact ⟨minute 0, _, rfl, .inr ⟨_, rfl, by decide⟩⟩
  · rw [Option.eq_none_iff_forall_ne_some]
    intro o active
    obtain ⟨time, speed, duration, reason, last, lasts⟩ := follows.active.mp ⟨o, active⟩
    cases last
    rcases lasts with endless | ⟨ends, added, reached⟩
    · revert endless
      decide
    · cases added
      revert reached
      decide

end Registry

end ChassisCooling.Control
