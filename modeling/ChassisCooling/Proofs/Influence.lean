import ChassisCooling.Proofs.Answers
import ChassisCooling.Proofs.Registry

/-! # What a request can change

Of all that a service holds, a request can change the registry alone, and there only the entry that
it names. A request that does not mean to change anything, and one that is answered by an error,
leaves the whole controller as it was. What passes the checks of the wire is not refused further in.
-/

namespace ChassisCooling

open Calendar

namespace Control

/-- A hint that is added, or put in the place of another, leaves those of other sources alone. -/
theorem filter_insertHint (hint : Hint) (hints : List Hint) :
    (insertHint hint hints).filter (fun h => h.source != hint.source) =
      hints.filter fun h => h.source != hint.source := by
  induction hints with
  | nil => simp [insertHint]
  | cons other rest ih =>
    rw [insertHint]
    split
    · next same => simp [same]
    · split
      · simp
      · simp only [List.filter_cons, ih]

theorem self_mem_insertHint (hint : Hint) (hints : List Hint) : hint ∈ insertHint hint hints := by
  induction hints with
  | nil => exact List.mem_singleton_self hint
  | cons other rest ih =>
    rw [insertHint]
    split
    · exact List.mem_cons_self
    · split
      · exact List.mem_cons_self
      · exact List.mem_cons_of_mem other ih

namespace Registry

/-- At most the hint of one source has changed. -/
structure SameButHint (r next : Registry) (source : String) : Prop where
  others : next.hints.filter (fun h => h.source != source) =
    r.hints.filter fun h => h.source != source
  override : next.override = r.override

variable {r next : Registry} {now : Instant}

/-- The hint that has been added says what was asked for. -/
theorem addHint_fields {request : HintRequest} {hint : Hint}
    (added : r.addHint request now = .ok (hint, next)) :
    next = { r with hints := insertHint hint r.hints } ∧ hint.kind = request.kind ∧
      hint.action = request.action ∧ hint.intensity = request.intensity ∧
      hint.source = request.source := by
  obtain ⟨made, build, same⟩ := ok_of_bind added
  obtain ⟨expires, -, fields⟩ := ok_of_bind build
  cases fields
  cases same
  exact ⟨rfl, rfl, rfl, rfl, rfl⟩

theorem sameButHint_addHint {request : HintRequest} {hint : Hint}
    (added : r.addHint request now = .ok (hint, next)) :
    SameButHint r next request.source := by
  obtain ⟨rfl, -, -, -, source⟩ := addHint_fields added
  exact ⟨source ▸ filter_insertHint hint r.hints, rfl⟩

theorem source_ne_of_removeHint {source : String} {h : Hint}
    (among : h ∈ (r.removeHint source).hints) : h.source ≠ source :=
  bne_iff_ne.mp (List.mem_filter.mp among).2

theorem sameButHint_removeHint (r : Registry) (source : String) :
    SameButHint r (r.removeHint source) source where
  others := by rw [removeHint, List.filter_filter]; simp only [Bool.and_self]
  override := rfl

theorem setOverride_hints {speed : Int} {duration : Span} {reason : String}
    {result : Except Fault Override}
    (answered : r.setOverride speed duration reason now = .ok (result, next)) :
    next.hints = r.hints := by
  obtain ⟨-, -, expires, -, rfl⟩ | ⟨-, rfl⟩ := setOverride_cases answered
  · rfl
  · rfl

/-- The override that has been set says what was asked for. -/
theorem setOverride_fields {speed : Int} {duration : Span} {reason : String} {o : Override}
    (set : r.setOverride speed duration reason now = .ok (.ok o, next)) :
    next.override = some o ∧ (o.speed.toNat : Int) = speed ∧ o.reason = reason := by
  rw [setOverride] at set
  split at set
  · next percentage =>
    obtain ⟨expires, -, same⟩ := ok_of_bind set
    cases same
    refine ⟨rfl, ?_, rfl⟩
    rw [UInt8.toNat_ofNat']
    omega
  · cases set

/-- Only a speed that is no percentage is refused, and that changes nothing. -/
theorem setOverride_refused {speed : Int} {duration : Span} {reason : String} {fault : Fault}
    (refused : r.setOverride speed duration reason now = .ok (.error fault, next)) :
    ¬ (0 ≤ speed ∧ speed ≤ 100) ∧ next = r := by
  rw [setOverride] at refused
  split at refused
  · obtain ⟨expires, -, same⟩ := ok_of_bind refused
    cases same
  · next other =>
    cases refused
    exact ⟨other, rfl⟩

end Registry

end Control

namespace Server

open Control Wire

variable {τ : Type}

/-- What a request may make of a registry: its own entry may have changed, and a request that does
not mean to change anything changes nothing. -/
def MayBecome : Request → Registry → Registry → Prop
  | .addHint _ _ _ _ source, r, next | .removeHint source, r, next => r.SameButHint next source
  | .setOverride .., r, next | .clearOverride, r, next => next.hints = r.hints
  | _, r, next => next = r

/-- What a request asks for is in the registry, and the answer shows it. -/
def Serves : Request → Payload → Registry → Prop
  | .addHint kind action intensity _ source, p, r =>
    if Text.equalIgnoringAsciiCase action "stop" then p = .empty ∧ ∀ h ∈ r.hints, h.source ≠ source
    else ∃ h ∈ r.hints, p = .ofHint h ∧ h.kind = kind ∧ h.action = action ∧
      h.intensity = intensity ∧ h.source = source
  | .removeHint source, p, r => p = .empty ∧ ∀ h ∈ r.hints, h.source ≠ source
  | .setOverride speed _ reason, p, r =>
    ∃ o, r.override = some o ∧ p = .ofOverride o ∧ (o.speed.toNat : Int) = speed.toInt ∧
      o.reason = reason
  | .clearOverride, p, r => p = .empty ∧ r.override = none
  | _, _, _ => True

namespace Service

variable {s s' : Service τ} {request : Request} {response : Response}

/-- The service with another registry. -/
def withRegistry (s : Service τ) (registry : Registry) : Service τ :=
  { s with controller := { s.controller with state := { s.controller.state with registry } } }

theorem perform_of_not_mutating (reading : request.isMutating = false)
    (performed : s.perform request = .ok (response, s')) : s'.controller = s.controller := by
  cases request with
  | ping | version | getConfig =>
    cases performed
    rfl
  | getStatus =>
    obtain ⟨now, -, performed⟩ := ok_of_bind performed
    obtain ⟨status, -, performed⟩ := ok_of_bind performed
    cases performed
    rfl
  | getHistory duration =>
    obtain ⟨window, -, performed⟩ := ok_of_bind performed
    split at performed <;> cases performed <;> rfl
  | addHint | removeHint | setOverride | clearOverride => cases reading

/-- A request that means to change something reaches the registry only, and there its own entry. An
error has changed nothing, and does not occur once the request has been checked. -/
theorem perform_of_mutating (mutating : request.isMutating = true)
    (performed : s.perform request = .ok (response, s')) :
    ∃ registry, s' = s.withRegistry registry ∧
      MayBecome request s.controller.state.registry registry ∧
      (∀ payload, response = .ok payload → Serves request payload registry) ∧
      ∀ message, response = .error message →
        registry = s.controller.state.registry ∧ request.check ≠ .ok () := by
  cases request with
  | ping | version | getConfig | getStatus | getHistory => cases mutating
  | removeHint source =>
    cases performed
    refine ⟨_, rfl, Registry.sameButHint_removeHint _ source, fun payload shown => ?_,
      fun _ refused => Response.noConfusion refused⟩
    cases shown
    exact ⟨rfl, fun h => Registry.source_ne_of_removeHint⟩
  | clearOverride =>
    cases performed
    refine ⟨_, rfl, rfl, fun payload shown => ?_,
      fun _ refused => Response.noConfusion refused⟩
    cases shown
    exact ⟨rfl, rfl⟩
  | addHint kind action intensity duration source =>
    rw [perform] at performed
    split at performed
    · next stop =>
      cases performed
      refine ⟨_, rfl, Registry.sameButHint_removeHint _ source, fun payload shown => ?_,
        fun _ refused => Response.noConfusion refused⟩
      cases shown
      rw [Serves, if_pos stop]
      exact ⟨rfl, fun h => Registry.source_ne_of_removeHint⟩
    · next goesOn =>
      obtain ⟨span, -, performed⟩ := ok_of_bind performed
      obtain ⟨now, -, performed⟩ := ok_of_bind performed
      obtain ⟨⟨hint, controller⟩, asked, performed⟩ := ok_of_bind performed
      obtain ⟨⟨hint, registry⟩, added, same⟩ := ok_of_bind asked
      cases same
      cases performed
      refine ⟨registry, rfl, Registry.sameButHint_addHint added, fun payload shown => ?_,
        fun _ refused => Response.noConfusion refused⟩
      cases shown
      obtain ⟨rfl, fields⟩ := Registry.addHint_fields added
      rw [Serves, if_neg goesOn]
      exact ⟨hint, self_mem_insertHint hint _, rfl, fields⟩
  | setOverride speed duration reason =>
    obtain ⟨span, -, performed⟩ := ok_of_bind performed
    obtain ⟨now, -, performed⟩ := ok_of_bind performed
    obtain ⟨⟨result, controller⟩, asked, performed⟩ := ok_of_bind performed
    obtain ⟨⟨result, registry⟩, set, same⟩ := ok_of_bind asked
    cases same
    have hints : registry.hints = s.controller.state.registry.hints :=
      Registry.setOverride_hints set
    cases result with
    | ok override =>
      cases performed
      refine ⟨registry, rfl, hints, fun payload shown => ?_,
        fun _ refused => Response.noConfusion refused⟩
      cases shown
      obtain ⟨held, fields⟩ := Registry.setOverride_fields set
      exact ⟨override, held, rfl, fields⟩
    | error fault =>
      obtain ⟨noPercentage, unchanged⟩ := Registry.setOverride_refused set
      have refused : (Request.setOverride speed duration reason).check ≠ .ok () := fun checked =>
        noPercentage ((checkSpeed_ok_iff _).mp (check_setOverride_iff.mp checked).1)
      obtain ⟨rfl, rfl⟩ := Prod.mk.inj (Except.ok.inj performed)
      exact ⟨registry, rfl, hints, fun _ shown => Response.noConfusion shown,
        fun _ _ => ⟨unchanged, refused⟩⟩

/-- An answered line was no request, or it was refused by the checks, or it was performed. -/
theorem answer_inversion {line : List Char} {reply : ResponseEnvelope}
    (answered : s.answer line = .ok (reply, s')) :
    (RequestEnvelope.read? (Text.trim line) = none ∧ s' = s ∧
      ∃ message, reply.response = .error message) ∨
    ∃ e, RequestEnvelope.read? (Text.trim line) = some e ∧ reply.id = e.id ∧
      ((∃ refusal, e.request.check = .error refusal ∧ s' = s ∧
          reply.response = .error refusal.message) ∨
        e.request.check = .ok () ∧ s.perform e.request = .ok (reply.response, s')) := by
  rw [answer] at answered
  split at answered
  · next unread =>
    cases answered
    exact .inl ⟨unread, rfl, _, rfl⟩
  · next id request read =>
    refine .inr ⟨⟨id, request⟩, read, ?_⟩
    split at answered
    · next refusal refused =>
      cases answered
      exact ⟨rfl, .inl ⟨refusal, refused, rfl, rfl⟩⟩
    · next checked =>
      obtain ⟨⟨response, next⟩, performed, same⟩ := ok_of_bind answered
      cases same
      exact ⟨rfl, .inr ⟨checked, performed⟩⟩

theorem answer_of_asks {line : List Char} {e : RequestEnvelope} (asks : Asks line e) :
    s.answer line = (s.perform e.request).map fun done => (⟨e.id, done.1⟩, done.2) := by
  obtain ⟨id, request⟩ := e
  rw [answer, asks.1]
  simp only [asks.2]
  cases s.perform request <;> rfl

/-- An error, and an answer to what does not mean to change anything, leaves the controller as it
was. -/
theorem controller_of_answer {line : List Char} {reply : ResponseEnvelope}
    (answered : s.answer line = .ok (reply, s'))
    (quiet : (∃ message, reply.response = .error message) ∨
      ∀ e, RequestEnvelope.read? (Text.trim line) = some e → e.request.isMutating = false) :
    s'.controller = s.controller := by
  obtain ⟨-, rfl, -⟩ | ⟨e, read, -, ⟨refusal, -, rfl, -⟩ | ⟨-, performed⟩⟩ :=
    answer_inversion answered
  · rfl
  · rfl
  · cases kind : e.request.isMutating with
    | false => exact perform_of_not_mutating kind performed
    | true =>
      obtain ⟨registry, rfl, -, -, unchanged⟩ := perform_of_mutating kind performed
      obtain ⟨message, failed⟩ | reading := quiet
      · rw [(unchanged message failed).1]
        rfl
      · rw [reading e read] at kind
        cases kind

/-- A request that means to change something changes the registry alone. -/
theorem registry_of_answer {line : List Char} {reply : ResponseEnvelope} {e : RequestEnvelope}
    (answered : s.answer line = .ok (reply, s'))
    (read : RequestEnvelope.read? (Text.trim line) = some e)
    (mutating : e.request.isMutating = true) :
    ∃ registry, s' = s.withRegistry registry ∧
      MayBecome e.request s.controller.state.registry registry := by
  obtain ⟨unread, -, -⟩ | ⟨e', read', -, outcome⟩ := answer_inversion answered
  · rw [unread] at read
    cases read
  · obtain rfl : e' = e := Option.some.inj (read'.symm.trans read)
    obtain ⟨refusal, -, rfl, -⟩ | ⟨-, performed⟩ := outcome
    · refine ⟨s'.controller.state.registry, rfl, ?_⟩
      obtain ⟨id, request⟩ := e'
      cases request with
      | addHint | removeHint => exact ⟨rfl, rfl⟩
      | setOverride | clearOverride | ping | version | getStatus | getHistory | getConfig => rfl
    · obtain ⟨registry, same, may, -, -⟩ := perform_of_mutating mutating performed
      exact ⟨registry, same, may⟩

/-- A request that means to change something and passes the checks is not refused further in, if all
times that it needs lie in the calendar: it is done. -/
theorem served_of_asks {line : List Char} {e : RequestEnvelope} (asks : Asks line e)
    (mutating : e.request.isMutating = true) (can : s.machine.CanAnswer e.request) :
    ∃ payload s', s.answer line = .ok (⟨e.id, .ok payload⟩, s') ∧
      Serves e.request payload s'.controller.state.registry := by
  obtain ⟨⟨response, s'⟩, performed⟩ := (perform_ok_iff asks.2).mpr can
  obtain ⟨registry, rfl, -, served, unrefused⟩ := perform_of_mutating mutating performed
  cases response with
  | error message => exact absurd asks.2 (unrefused message rfl).2
  | ok payload =>
    refine ⟨payload, s.withRegistry registry, ?_, served payload rfl⟩
    rw [answer_of_asks asks, performed]
    rfl

/-- A hint whose action is to stop does what the withdrawal of the hint does. -/
theorem answer_stop {line line' : List Char} {id id' : UInt64}
    {kind action intensity source : String} {duration : Int64}
    (asks : Asks line ⟨id, .addHint kind action intensity duration source⟩)
    (stop : Text.equalIgnoringAsciiCase action "stop" = true)
    (read : RequestEnvelope.read? (Text.trim line') = some ⟨id', .removeHint source⟩) :
    s.answer line = .ok (⟨id, .ok .empty⟩, (s.removeHint source).2) ∧
      s.answer line' = .ok (⟨id', .ok .empty⟩, (s.removeHint source).2) := by
  have label : (Request.removeHint source).check = .ok () := (check_addHint_iff.mp asks.2).2.2.1
  constructor
  · rw [answer_of_asks asks, perform, if_pos stop]
    rfl
  · rw [answer_of_asks ⟨read, label⟩]
    rfl

end Service

/-- Errors and requests that do not mean to change anything leave the controller as it was. Any
other request changes the registry alone, and there only its own entry; it is refused by the checks
of the wire or not at all; and a hint whose action is to stop is answered and acts as the withdrawal
of the hint. -/
theorem requests_change_own_entry (s : Service τ) (line : List Char) :
    (∀ reply s', s.answer line = .ok (reply, s') →
      ((∃ message, reply.response = .error message) ∨
        ∀ e, RequestEnvelope.read? (Text.trim line) = some e → e.request.isMutating = false) →
      s'.controller = s.controller) ∧
    (∀ e reply s', s.answer line = .ok (reply, s') →
      RequestEnvelope.read? (Text.trim line) = some e → e.request.isMutating = true →
      ∃ registry, s' = s.withRegistry registry ∧
        MayBecome e.request s.controller.state.registry registry) ∧
    (∀ e, Service.Asks line e → e.request.isMutating = true → s.machine.CanAnswer e.request →
      ∃ payload s', s.answer line = .ok (⟨e.id, .ok payload⟩, s') ∧
        Serves e.request payload s'.controller.state.registry) ∧
    ∀ id kind action intensity duration source,
      Service.Asks line ⟨id, .addHint kind action intensity duration source⟩ →
      Text.equalIgnoringAsciiCase action "stop" = true →
      ∀ line' id', RequestEnvelope.read? (Text.trim line') = some ⟨id', .removeHint source⟩ →
        ∃ payload s', s.answer line = .ok (⟨id, .ok payload⟩, s') ∧
          s.answer line' = .ok (⟨id', .ok payload⟩, s') := by
  refine ⟨fun _ _ => Service.controller_of_answer, fun _ _ _ => Service.registry_of_answer,
    fun _ => Service.served_of_asks, ?_⟩
  intro id kind action intensity duration source asks stop line' id' read
  exact ⟨_, _, Service.answer_stop asks stop read⟩

/-- A hint of some source without an end. -/
def lastingHint (source : String) : Hint :=
  ⟨"training", "start", "high", source, 45, none, .ofMillis 1748764800000⟩

/-- A stop for one of two sources, the withdrawal of its hint, and a request that only reads. -/
theorem stop_request_served :
    let s := (plainService (.ofMillis 1748764800000)).withRegistry
      ⟨[lastingHint "a", lastingHint "b"], none⟩
    let stop : RequestEnvelope := ⟨5, .addHint "training" "Stop" "high" 0 "a"⟩
    let remove : RequestEnvelope := ⟨6, .removeHint "a"⟩
    let ping : RequestEnvelope := ⟨7, .ping⟩
    (∃ payload s', s.answer stop.line.toList = .ok (⟨5, .ok payload⟩, s') ∧
      s.answer remove.line.toList = .ok (⟨6, .ok payload⟩, s') ∧
      MayBecome stop.request s.controller.state.registry s'.controller.state.registry ∧
      Serves stop.request payload s'.controller.state.registry) ∧
    ∃ reply s', s.answer ping.line.toList = .ok (reply, s') ∧ s'.controller = s.controller := by
  intro s stop remove ping
  have asks : Service.Asks stop.line.toList stop := ⟨stop.read?_trim_line, rfl⟩
  obtain ⟨-, changes, serves, stops⟩ := requests_change_own_entry s stop.line.toList
  obtain ⟨kept, -, -, -⟩ := requests_change_own_entry s ping.line.toList
  have pong : s.answer ping.line.toList = .ok (⟨7, .ok (.ofText "pong")⟩, s) :=
    Service.answer_of_asks ⟨ping.read?_trim_line, rfl⟩
  constructor
  · obtain ⟨payload, s', answered, removed⟩ :=
      stops _ _ _ _ _ _ asks rfl remove.line.toList 6 remove.read?_trim_line
    obtain ⟨payload', s'', answered', served⟩ := serves stop asks rfl (.inl rfl)
    cases answered.symm.trans answered'
    obtain ⟨registry, rfl, may⟩ := changes stop _ _ answered stop.read?_trim_line rfl
    exact ⟨payload, _, answered, removed, may, served⟩
  · refine ⟨_, _, pong, kept _ _ pong (.inr fun e read => ?_)⟩
    cases read.symm.trans ping.read?_trim_line
    rfl

end Server

end ChassisCooling
