import ChassisCooling.Proofs.Calendar
import ChassisCooling.Proofs.Requests
import ChassisCooling.Server.Service

/-! # Which lines are answered

A request is answered unless it needs a time beyond the calendar. What a request has been checked
for keeps its own times short, all but the window of a history request; while the clock shows a time
in the years 0 to 9999, that window alone can leave a line without an answer.
-/

namespace ChassisCooling

open Calendar

/-! ## What is checked -/

namespace Wire

theorem checkDuration_ok_iff (seconds : Int) :
    checkDuration seconds = .ok () ↔ 0 ≤ seconds ∧ seconds ≤ maxDuration := by
  rw [checkDuration]
  split
  · next negative =>
    exact iff_of_false nofun fun within => absurd within.1 (Int.not_le.mpr negative)
  split
  · next long => exact iff_of_false nofun fun within => absurd within.2 (Int.not_le.mpr long)
  · next low high => exact iff_of_true rfl ⟨Int.not_lt.mp low, Int.not_lt.mp high⟩

theorem checkSpeed_ok_iff (speed : Int) : checkSpeed speed = .ok () ↔ 0 ≤ speed ∧ speed ≤ 100 := by
  rw [checkSpeed]
  split
  · next percentage => exact iff_of_true rfl percentage
  · next other => exact iff_of_false nofun other

theorem ofSeconds_of_checkDuration {seconds : Int} (checked : checkDuration seconds = .ok ()) :
    Span.ofSeconds seconds = .ok ⟨seconds * 1000000000⟩ := by
  obtain ⟨low, high⟩ := (checkDuration_ok_iff seconds).mp checked
  rw [maxDuration] at high
  rw [Span.ofSeconds, if_pos (by rw [Span.maxSeconds]; omega)]

theorem check_addHint_iff {kind action intensity source : String} {duration : Int64} :
    (Request.addHint kind action intensity duration source).check = .ok () ↔
      checkLabel "type" kind true = .ok () ∧ checkLabel "action" action true = .ok () ∧
        checkLabel "source" source true = .ok () ∧ checkLabel "intensity" intensity false = .ok () ∧
        checkDuration duration.toInt = .ok () := by
  simp only [Request.check, ok_bind_iff]
  exact ⟨fun ⟨_, kind, _, action, _, source, _, intensity, duration⟩ =>
    ⟨kind, action, source, intensity, duration⟩,
    fun ⟨kind, action, source, intensity, duration⟩ =>
      ⟨(), kind, (), action, (), source, (), intensity, duration⟩⟩

theorem check_setOverride_iff {speed duration : Int64} {reason : String} :
    (Request.setOverride speed duration reason).check = .ok () ↔ checkSpeed speed.toInt = .ok () ∧
      checkDuration duration.toInt = .ok () ∧ checkReason reason = .ok () := by
  simp only [Request.check, ok_bind_iff]
  exact ⟨fun ⟨_, speed, _, duration, reason⟩ => ⟨speed, duration, reason⟩,
    fun ⟨speed, duration, reason⟩ => ⟨(), speed, (), duration, reason⟩⟩

end Wire

namespace Server

open Control Wire

variable {τ : Type}

/-! ## What a request needs -/

namespace Machine

/-- Something that begins now can last so many seconds. -/
def CanHold (m : Machine τ) (seconds : Int) : Prop :=
  ∃ now, m.time = .ok now ∧ ∃ expires, expiry now ⟨seconds * 1000000000⟩ = .ok expires

/-- All times that a request needs lie in the calendar. -/
def CanAnswer (m : Machine τ) : Request → Prop
  | .getStatus => ∃ now, m.time = .ok now ∧ ∃ cutoff, now.sub Samples.trendWindow = .ok cutoff
  | .getHistory duration => (duration.toNat : Int) ≤ Span.maxSeconds
  | .addHint _ action _ duration _ =>
    Text.equalIgnoringAsciiCase action "stop" = true ∨ m.CanHold duration.toInt
  | .setOverride _ duration _ => m.CanHold duration.toInt
  | _ => True

end Machine

theorem trend_ok_iff (samples : Samples) (now : Instant) :
    (∃ trend, samples.trend now = .ok trend) ↔
      ∃ cutoff, now.sub Samples.trendWindow = .ok cutoff := by
  rw [Samples.trend, exists_ok_bind_iff]
  refine exists_congr fun cutoff => and_iff_left ?_
  split
  · next first second rest _ =>
    by_cases short :
        (((second :: rest).getLastD second).time.since first.time).wholeMillis <
          Samples.minTrendMillis
    · exact ⟨_, if_pos short⟩
    · exact ⟨_, if_neg short⟩
  · exact exists_ok_pure _

theorem status_ok_iff (st : Control.State) (settings : Settings) (now : Instant) :
    (∃ status, st.status settings now = .ok status) ↔
      ∃ cutoff, now.sub Samples.trendWindow = .ok cutoff := by
  rw [State.status, exists_ok_bind_iff]
  constructor
  · rintro ⟨trend, ended, -⟩
    exact (trend_ok_iff _ now).mp ⟨trend, ended⟩
  · intro cutoff
    obtain ⟨cpu, cpuEnded⟩ := (trend_ok_iff st.cpuSamples now).mpr cutoff
    obtain ⟨gpu, gpuEnded⟩ := (trend_ok_iff st.gpuSamples now).mpr cutoff
    exact ⟨cpu, cpuEnded, exists_ok_bind_iff.mpr ⟨gpu, gpuEnded, _, rfl⟩⟩

theorem addHint_ok_iff (c : Controller) (request : HintRequest) (now : Instant) :
    (∃ reply, c.addHint request now = .ok reply) ↔
      ∃ expires, expiry now request.duration = .ok expires := by
  constructor
  · rintro ⟨reply, ended⟩
    obtain ⟨_, added, -⟩ := ok_of_bind ended
    obtain ⟨_, made, -⟩ := ok_of_bind added
    obtain ⟨expires, ends, -⟩ := ok_of_bind made
    exact ⟨expires, ends⟩
  · rintro ⟨expires, ends⟩
    rw [Controller.addHint, Registry.addHint, Registry.hintOf, ends]
    exact ⟨_, rfl⟩

theorem setOverride_ok_iff (c : Controller) {speed : Int} (percentage : 0 ≤ speed ∧ speed ≤ 100)
    (duration : Span) (reason : String) (now : Instant) :
    (∃ reply, c.setOverride speed duration reason now = .ok reply) ↔
      ∃ expires, expiry now duration = .ok expires := by
  constructor
  · rintro ⟨reply, ended⟩
    obtain ⟨_, set, -⟩ := ok_of_bind ended
    rw [Registry.setOverride, if_pos percentage] at set
    obtain ⟨expires, ends, -⟩ := ok_of_bind set
    exact ⟨expires, ends⟩
  · rintro ⟨expires, ends⟩
    rw [Controller.setOverride, Registry.setOverride, if_pos percentage, ends]
    exact ⟨_, rfl⟩

namespace Service

variable {s : Service τ} {request : Request}

theorem history_ok_iff (s : Service τ) (duration : UInt64) :
    (∃ reply, s.history duration = .ok reply) ↔ (duration.toNat : Int) ≤ Span.maxSeconds := by
  rw [history, exists_ok_bind_iff]
  have window : (∃ window, Span.ofSeconds (windowSeconds duration) = .ok window) ↔
      (duration.toNat : Int) ≤ Span.maxSeconds := by
    rw [Span.ofSeconds_iff, windowSeconds, Span.maxSeconds]
    omega
  rw [← window]
  refine exists_congr fun window => and_iff_left ?_
  split <;> exact ⟨_, rfl⟩

/-- A checked request is answered exactly if all times that it needs lie in the calendar. -/
theorem perform_ok_iff (checked : request.check = .ok ()) :
    (∃ reply, s.perform request = .ok reply) ↔ s.machine.CanAnswer request := by
  cases request with
  | ping | version | removeHint | clearOverride | getConfig => exact iff_of_true ⟨_, rfl⟩ trivial
  | getStatus =>
    simp only [perform, Machine.CanAnswer, exists_ok_bind_iff, exists_ok_pure, and_true,
      status_ok_iff]
  | getHistory duration => exact history_ok_iff s duration
  | addHint kind action intensity duration source =>
    have span := ofSeconds_of_checkDuration (check_addHint_iff.mp checked).2.2.2.2
    rw [perform, Machine.CanAnswer]
    split
    · next stop => exact iff_of_true (exists_ok_pure _) (.inl stop)
    · next stop =>
      rw [span]
      simp only [stop, Bool.false_eq_true, false_or, exists_ok_bind_iff, exists_ok_pure, and_true,
        addHint_ok_iff, Except.ok.injEq, exists_eq_left', Machine.CanHold]
  | setOverride speed duration reason =>
    obtain ⟨percentage, duration, -⟩ := check_setOverride_iff.mp checked
    have percentage := (checkSpeed_ok_iff _).mp percentage
    have span := ofSeconds_of_checkDuration duration
    simp only [perform, Machine.CanAnswer, Machine.CanHold, exists_ok_bind_iff, span,
      Except.ok.injEq, exists_eq_left']
    refine exists_congr fun now => and_congr_right fun _ => ?_
    rw [← setOverride_ok_iff s.controller percentage _ reason]
    refine exists_congr fun reply => and_iff_left ?_
    obtain ⟨_ | _, _⟩ := reply <;> exact exists_ok_pure _

/-- A checked request changes no machine. Its answer shows no free data but the settings, and is an
error only where the history could not be read. -/
theorem perform_cases {s s' : Service τ} {request : Request} {response : Response}
    (checked : request.check = .ok ()) (performed : s.perform request = .ok (response, s')) :
    s'.machine = s.machine ∧
      ((∃ p, response = .ok p ∧ ∀ j ∈ p.config, j = s.settings.shown) ∨
        response = .error s!"History query aborted: {s.machine.abortNote s.crashes}" ∨
        ∃ fault : Fault, response = .error s!"History query failed: {fault.message}") := by
  cases request with
  | ping | version | removeHint | clearOverride =>
    cases performed
    exact ⟨rfl, .inl ⟨_, rfl, nofun⟩⟩
  | getConfig =>
    cases performed
    exact ⟨rfl, .inl ⟨_, rfl, fun j same => (Option.some.inj same).symm⟩⟩
  | getStatus =>
    obtain ⟨now, -, performed⟩ := ok_of_bind performed
    obtain ⟨status, -, performed⟩ := ok_of_bind performed
    cases performed
    exact ⟨rfl, .inl ⟨_, rfl, nofun⟩⟩
  | getHistory duration =>
    obtain ⟨window, -, performed⟩ := ok_of_bind performed
    split at performed
    · cases performed
      exact ⟨rfl, .inr (.inl rfl)⟩
    · cases performed
      exact ⟨rfl, .inr (.inr ⟨_, rfl⟩)⟩
    · cases performed
      exact ⟨rfl, .inl ⟨_, rfl, nofun⟩⟩
  | addHint kind action intensity duration source =>
    rw [perform] at performed
    split at performed
    · cases performed
      exact ⟨rfl, .inl ⟨_, rfl, nofun⟩⟩
    · obtain ⟨span, -, performed⟩ := ok_of_bind performed
      obtain ⟨now, -, performed⟩ := ok_of_bind performed
      obtain ⟨⟨hint, controller⟩, -, performed⟩ := ok_of_bind performed
      cases performed
      exact ⟨rfl, .inl ⟨_, rfl, nofun⟩⟩
  | setOverride speed duration reason =>
    obtain ⟨span, -, performed⟩ := ok_of_bind performed
    obtain ⟨now, -, performed⟩ := ok_of_bind performed
    obtain ⟨⟨result, controller⟩, set, performed⟩ := ok_of_bind performed
    cases result with
    | ok override =>
      cases performed
      exact ⟨rfl, .inl ⟨_, rfl, nofun⟩⟩
    | error fault =>
      have percentage := (checkSpeed_ok_iff _).mp (check_setOverride_iff.mp checked).1
      obtain ⟨⟨result, registry⟩, refused, same⟩ := ok_of_bind set
      cases same
      rw [Registry.setOverride, if_pos percentage] at refused
      obtain ⟨expires, -, same⟩ := ok_of_bind refused
      cases same

/-- A line asks for a request that passes the checks. -/
def Asks (line : List Char) (e : RequestEnvelope) : Prop :=
  RequestEnvelope.read? (Text.trim line) = some e ∧ e.request.check = .ok ()

theorem answer_ok_iff (s : Service τ) (line : List Char) :
    (∃ reply, s.answer line = .ok reply) ↔ ∀ e, Asks line e → s.machine.CanAnswer e.request := by
  rw [answer]
  cases read : RequestEnvelope.read? (Text.trim line) with
  | none =>
    refine iff_of_true (exists_ok_pure _) fun e asks => ?_
    rw [Asks, read] at asks
    cases asks.1
  | some e =>
    have asks : ∀ e', Asks line e' ↔ e = e' ∧ e.request.check = .ok () := by
      intro e'
      rw [Asks, read, Option.some.injEq]
      exact and_congr_right fun same => by rw [same]
    simp only [asks, and_imp, forall_eq']
    cases checked : e.request.check with
    | error refusal => exact iff_of_true (exists_ok_pure _) nofun
    | ok =>
      simp only [exists_ok_bind_iff, forall_const, exists_ok_pure, and_true]
      exact perform_ok_iff checked

/-- An answer bears the number of the request on its line. -/
theorem id_of_answer {line : List Char} {response : ResponseEnvelope} {s' : Service τ}
    {e : RequestEnvelope} (read : RequestEnvelope.read? (Text.trim line) = some e)
    (answered : s.answer line = .ok (response, s')) : response.id = e.id := by
  simp only [answer, read] at answered
  split at answered
  · cases answered
    rfl
  · obtain ⟨_, -, same⟩ := ok_of_bind answered
    cases same
    rfl

/-- An answer changes no machine, and shows no free data but the settings. -/
theorem answer_cases {line : List Char} {response : ResponseEnvelope} {s' : Service τ}
    (answered : s.answer line = .ok (response, s')) : s'.machine = s.machine ∧
      ∀ p, response.response = .ok p → ∀ j ∈ p.config, j = s.settings.shown := by
  rw [answer] at answered
  split at answered
  · cases answered
    exact ⟨rfl, fun p same => by cases same⟩
  · split at answered
    · cases answered
      exact ⟨rfl, fun p same => by cases same⟩
    · next checked =>
      obtain ⟨⟨reply, next⟩, performed, same⟩ := ok_of_bind answered
      cases same
      obtain ⟨same, ⟨p, rfl, free⟩ | rfl | ⟨fault, rfl⟩⟩ := perform_cases checked performed
      · exact ⟨same, fun p' ok => by cases ok; exact free⟩
      · exact ⟨same, fun p ok => by cases ok⟩
      · exact ⟨same, fun p ok => by cases ok⟩

/-- What is answered is made of texts, whole numbers and doubles. -/
theorem isMadeOf_of_answer {form : Json.Numeral → Prop} [Json.CoversInts form]
    [Json.CoversDoubles form] {line : List Char} {response : ResponseEnvelope} {s' : Service τ}
    (answered : s.answer line = .ok (response, s')) : response.toJson.IsMadeOf form := by
  refine ResponseEnvelope.isMadeOf_toJson fun p ok j config => ?_
  rw [(answer_cases answered).2 p ok j config]
  exact s.settings.isMadeOf_shown

/-- A line that is no request is answered by an error under the number 0. -/
theorem answer_of_unread {line : List Char}
    (unread : RequestEnvelope.read? (Text.trim line) = none) :
    s.answer line = .ok (⟨0, .error "Invalid request format"⟩, s) := by
  rw [answer, unread]

end Service

/-! ## Clocks that show a common time -/

theorem canHold_of_common {m : Machine τ} {now : Instant} (shown : m.time = .ok now)
    (common : now.IsCommon) {seconds : Int} (checked : checkDuration seconds = .ok ()) :
    m.CanHold seconds := by
  obtain ⟨firstSecond, firstCommon, lastCommon, lastSecond⟩ := Instant.bounds
  obtain ⟨low, high⟩ := (checkDuration_ok_iff seconds).mp checked
  have first := common.first
  have last := common.last
  rw [maxDuration] at high
  refine ⟨now, shown, ?_⟩
  rw [expiry]
  split
  · exact ⟨_, rfl⟩
  · obtain ⟨later, added⟩ := (Instant.add_seconds_iff common.nano seconds).mpr (by omega)
    rw [added]
    exact ⟨_, rfl⟩

/-- At a common time only the window of a history request can reach beyond the calendar. -/
theorem canAnswer_iff_of_common {m : Machine τ} {now : Instant} (shown : m.time = .ok now)
    (common : now.IsCommon) {request : Request} (checked : request.check = .ok ()) :
    m.CanAnswer request ↔
      ∀ duration, request = .getHistory duration → (duration.toNat : Int) ≤ Span.maxSeconds := by
  cases request with
  | getHistory duration =>
    simp only [Machine.CanAnswer, Request.getHistory.injEq, forall_eq']
  | getStatus =>
    refine iff_of_true ?_ nofun
    obtain ⟨firstSecond, firstCommon, lastCommon, lastSecond⟩ := Instant.bounds
    have first := common.first
    have last := common.last
    exact ⟨now, shown, (Instant.sub_seconds_iff common.nano 60).mpr (by omega)⟩
  | addHint =>
    exact iff_of_true (.inr (canHold_of_common shown common (check_addHint_iff.mp checked).2.2.2.2))
      nofun
  | setOverride =>
    exact iff_of_true (canHold_of_common shown common (check_setOverride_iff.mp checked).2.1) nofun
  | ping | version | removeHint | clearOverride | getConfig => exact iff_of_true trivial nofun

theorem answer_ok_iff_of_common (s : Service τ) {now : Instant} (shown : s.machine.time = .ok now)
    (common : now.IsCommon) (line : List Char) :
    (∃ reply, s.answer line = .ok reply) ↔ ∀ id duration,
      RequestEnvelope.read? (Text.trim line) = some ⟨id, .getHistory duration⟩ →
        duration.toNat ≤ 9223372036854775 := by
  rw [Service.answer_ok_iff]
  constructor
  · intro all id duration read
    by_cases none : duration = 0
    · rw [none]
      decide
    · have asks : Service.Asks line ⟨id, .getHistory duration⟩ := ⟨read, if_neg none⟩
      have short : (duration.toNat : Int) ≤ Span.maxSeconds := all _ asks
      rw [Span.maxSeconds] at short
      omega
  · intro bounded e asks
    rw [canAnswer_iff_of_common shown common asks.2]
    rintro duration same
    obtain ⟨id, request⟩ := e
    cases same
    have short := bounded id duration asks.1
    rw [Span.maxSeconds]
    omega

/-- A line has no answer exactly if it asks for something that needs a time beyond the calendar.
While the clock shows a common time, that is a window of the history longer than any span. Every
answer bears the number of its request, and 0 and an error if the line is no request. -/
theorem line_answered_iff (s : Service τ) (line : List Char) :
    ((∃ reply, s.answer line = .ok reply) ↔
      ∀ e, Service.Asks line e → s.machine.CanAnswer e.request) ∧
    (∀ now, s.machine.time = .ok now → now.IsCommon →
      ((∃ reply, s.answer line = .ok reply) ↔ ∀ id duration,
        RequestEnvelope.read? (Text.trim line) = some ⟨id, .getHistory duration⟩ →
          duration.toNat ≤ 9223372036854775)) ∧
    (∀ e response s', RequestEnvelope.read? (Text.trim line) = some e →
      s.answer line = .ok (response, s') → response.id = e.id) ∧
    (RequestEnvelope.read? (Text.trim line) = none →
      ∃ message, s.answer line = .ok (⟨0, .error message⟩, s)) :=
  ⟨s.answer_ok_iff line, fun _ shown common => answer_ok_iff_of_common s shown common line,
    fun _ _ _ => Service.id_of_answer, fun unread => ⟨_, Service.answer_of_unread unread⟩⟩

/-- A service with the default settings and no devices, whose clock is set by hand. -/
def plainService (now : Instant) : Service Unit :=
  .new .default ⟨now, .manual, .empty, ⟨"history.jsonl", 0⟩, (), fun _ => "task panicked"⟩

theorem ping_answered :
    let s := plainService (.ofMillis 1748764800000)
    ∃ response s', s.answer (RequestEnvelope.line ⟨7, .ping⟩).toList = .ok (response, s') ∧
      response.id = 7 := by
  intro s
  have common : (Instant.ofMillis 1748764800000).IsCommon := ⟨by decide, by decide, by decide⟩
  have read := RequestEnvelope.read?_trim_line ⟨7, .ping⟩
  obtain ⟨-, answered, numbered, -⟩ :=
    line_answered_iff s (RequestEnvelope.line ⟨7, .ping⟩).toList
  have short : ∀ id duration,
      RequestEnvelope.read? (Text.trim (RequestEnvelope.line ⟨7, .ping⟩).toList) =
        some ⟨id, .getHistory duration⟩ → duration.toNat ≤ 9223372036854775 := by
    intro id duration got
    rw [read] at got
    cases got
  obtain ⟨⟨response, s'⟩, answer⟩ := (answered _ rfl common).mpr short
  exact ⟨response, s', answer, numbered _ _ _ read answer⟩

/-- A window of one second more than the longest span passes the checks, and has no answer. -/
theorem long_window_unanswered :
    let s := plainService (.ofMillis 1748764800000)
    let e : RequestEnvelope := ⟨1, .getHistory 9223372036854776⟩
    s.settings.check = .ok () ∧ e.request.check = .ok () ∧
      RequestEnvelope.read? (Text.trim e.line.toList) = some e ∧
      ¬ ∃ reply, s.answer e.line.toList = .ok reply := by
  intro s e
  have read := e.read?_trim_line
  refine ⟨rfl, rfl, read, ?_⟩
  rw [Service.answer_ok_iff]
  intro all
  have short : ((9223372036854776 : UInt64).toNat : Int) ≤ Span.maxSeconds := all e ⟨read, rfl⟩
  revert short
  decide

end Server

end ChassisCooling
