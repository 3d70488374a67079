import ChassisCooling.Proofs.Delivery
import ChassisCooling.Proofs.Handlers

/-! # The count of connections

The count is that of the tasks that are alive, of the one that is about to begin, and of those that
have broken: a task that breaks is never counted off. Only the acceptor counts up, and since it
looked the count can only have gone down, so it never passes the limit.
-/

namespace ChassisCooling.Server

open Calendar Control Wire

variable {τ : Type} {r r' : Reception τ} {e : Option ConnectionEvent}

namespace Reception

/-! ## Counting tasks -/

theorem countP_put {i : Nat} {h : Handler} (found : r.handlers[i]? = some h) (h' : Handler)
    (p : Handler → Bool) :
    (r.put i h').handlers.countP p + (p h).toNat = r.handlers.countP p + (p h').toNat := by
  obtain ⟨inside, same⟩ := List.getElem?_eq_some_iff.mp found
  have counted : p h = true → 0 < r.handlers.countP p := fun holds =>
    List.countP_pos_iff.mpr ⟨h, same ▸ List.getElem_mem inside, holds⟩
  rw [put, List.countP_set inside, same]
  cases before : p h with
  | false =>
    cases p h'
    all_goals simp
  | true =>
    have positive := counted before
    cases p h'
    all_goals
      simp only [Bool.toNat_true, Bool.toNat_false, Bool.false_eq_true, ↓reduceIte]
      omega

theorem lost_put {i : Nat} {h : Handler} (found : r.handlers[i]? = some h)
    (living : h.isAlive = true) (h' : Handler) :
    (r.put i h').lost = r.lost + h'.isBroken.toNat := by
  have counts := countP_put found h' Handler.isBroken
  rwa [Handler.not_isBroken living] at counts

/-- The connections that are being served, those about to be included. -/
def occupied (r : Reception τ) : Nat :=
  r.alive + r.pending

theorem occupied_put {i : Nat} {h : Handler} (found : r.handlers[i]? = some h)
    (living : h.isAlive = true) (h' : Handler) :
    (r.put i h').occupied + 1 = r.occupied + h'.isAlive.toNat := by
  have counts := countP_put found h' Handler.isAlive
  rw [living, Bool.toNat_true] at counts
  change (r.put i h').alive + r.pending + 1 = r.alive + r.pending + h'.isAlive.toNat
  rw [alive, alive]
  omega

/-- What the changes do to the counts. An arrival finds no room, or room was seen. -/
def Counts (r : Reception τ) (e : Option ConnectionEvent) (r' : Reception τ) : Prop :=
  match e with
  | none => r'.slots = r.slots ∧ r'.occupied = r.occupied ∧ r'.lost = r.lost
  | some .arrival => r'.lost = r.lost ∧
    (r'.slots = r.slots ∧ r'.occupied = r.occupied ∧ maxConnections ≤ r.slots.taken ∨
      r'.slots = ⟨r.slots.taken + 1⟩ ∧ r'.occupied = r.occupied + 1 ∧
        ∃ seen incoming, r.acceptor = .decide seen incoming ∧ seen < maxConnections)
  | some (.ending broken) => r'.slots = r.slots.release broken ∧
    r'.occupied + 1 = r.occupied ∧ r'.lost = r.lost + broken.toNat

theorem Transition.counts (made : r.Transition e r') : r.Counts e r' := by
  cases made with
  | turn service => exact ⟨rfl, rfl, rfl⟩
  | connect incoming free | close free =>
    exact ⟨rfl, by simp only [occupied, pending, free]; rfl, rfl⟩
  | look arrived room => exact ⟨rfl, by simp only [occupied, pending, arrived]; rfl, rfl⟩
  | lookFull arrived full =>
    exact ⟨rfl, .inl ⟨rfl, by simp only [occupied, pending, arrived]; rfl, full⟩⟩
  | letIn looked room =>
    refine ⟨rfl, .inr ⟨rfl, ?_, _, _, looked, room⟩⟩
    simp only [occupied, pending, looked]
    rfl
  | turnAway looked full => exact ⟨rfl, by simp only [occupied, pending, looked]; rfl, rfl⟩
  | @begin incoming counted =>
    have living : (r.handlers ++ [Handler.new incoming]).countP Handler.isAlive = r.alive + 1 :=
      List.countP_append
    have broken : (r.handlers ++ [Handler.new incoming]).countP Handler.isBroken = r.lost :=
      List.countP_append
    refine ⟨rfl, ?_, broken⟩
    simp only [occupied, pending, counted]
    exact living
  | @goOn i h h' found living stays service =>
    have count := occupied_put found living h'
    have whole := lost_put found living h'
    rw [stays] at count
    rw [Handler.not_isBroken stays] at whole
    exact ⟨rfl, Nat.succ.inj count, whole⟩
  | breakOff found living | countOff found living =>
    exact ⟨rfl, occupied_put found living _, lost_put found living _⟩

/-! ## What the count is of -/

/-- The count is of the connections that are being served and of those that have broken, and keeps
the limit. From what the acceptor has seen it can only have fallen. -/
structure Accounted (r : Reception τ) : Prop where
  taken : r.slots.taken = r.occupied + r.lost
  bound : r.slots.taken ≤ maxConnections
  seen : ∀ n incoming, r.acceptor = .decide n incoming → r.slots.taken ≤ n

theorem accounted_opened (s : Service τ) : Accounted (opened s) :=
  ⟨rfl, Nat.zero_le _, nofun⟩

theorem seen_transition (seen : ∀ n incoming, r.acceptor = .decide n incoming → r.slots.taken ≤ n)
    (made : r.Transition e r') :
    ∀ n incoming, r'.acceptor = .decide n incoming → r'.slots.taken ≤ n := by
  intro n incoming looked
  cases made with
  | turn | goOn | breakOff => exact seen n incoming looked
  | countOff => exact Nat.le_trans (Nat.sub_le ..) (seen n incoming looked)
  | look | lookFull =>
    cases looked
    exact Nat.le_refl _
  | connect | close | letIn | turnAway | begin => cases looked

theorem Accounted.transition (accounted : Accounted r) (made : r.Transition e r') :
    Accounted r' := by
  have counts := made.counts
  obtain ⟨taken, bound, seen⟩ := accounted
  suffices both : r'.slots.taken = r'.occupied + r'.lost ∧ r'.slots.taken ≤ maxConnections from
    ⟨both.1, both.2, seen_transition seen made⟩
  match e, counts with
  | none, ⟨slots, occupied, lost⟩ =>
    rw [slots]
    omega
  | some .arrival, ⟨lost, .inl ⟨slots, occupied, full⟩⟩ =>
    rw [slots]
    omega
  | some .arrival, ⟨lost, .inr ⟨slots, occupied, n, incoming, looked, room⟩⟩ =>
    have below := seen n incoming looked
    rw [slots]
    dsimp only
    omega
  | some (.ending true), ⟨slots, occupied, lost⟩ =>
    rw [slots, Slots.release, if_pos rfl]
    simp only [Bool.toNat_true] at lost
    omega
  | some (.ending false), ⟨slots, occupied, lost⟩ =>
    have less : (r.slots.release false).taken = r.slots.taken - 1 := rfl
    simp only [Bool.toNat_false] at lost
    rw [slots]
    omega

theorem Accounted.run (accounted : Accounted r) (moves : List (Move τ)) :
    Accounted (r.run moves) := by
  induction moves generalizing r with
  | nil => exact accounted
  | cons m moves ih => exact ih (accounted.transition (r.step_transition m))

/-! ## Arrivals and endings at once -/

/-- The count beside the connections that are being served. -/
def traffic (r : Reception τ) : Traffic :=
  ⟨r.slots, r.occupied⟩

/-- A change does to the count what its event does when it happens at once. -/
theorem Accounted.traffic_transition (accounted : Accounted r) (made : r.Transition e r') :
    r'.traffic = r.traffic.run e.toList := by
  have counts := made.counts
  match e, counts with
  | none, ⟨slots, occupied, _⟩ =>
    rw [traffic, slots, occupied]
    rfl
  | some .arrival, ⟨_, .inl ⟨slots, occupied, full⟩⟩ =>
    have none : r.slots.take? = none := if_neg (Nat.not_lt.mpr full)
    change _ = r.traffic.step .arrival
    simp only [traffic, Traffic.step, slots, occupied, none]
  | some .arrival, ⟨_, .inr ⟨slots, occupied, n, incoming, looked, room⟩⟩ =>
    have below := accounted.seen n incoming looked
    have some : r.slots.take? = some ⟨r.slots.taken + 1⟩ := if_pos (Nat.lt_of_le_of_lt below room)
    change _ = r.traffic.step .arrival
    simp only [traffic, Traffic.step, slots, occupied, some]
  | some (.ending broken), ⟨slots, occupied, _⟩ =>
    have living : r.occupied ≠ 0 := by omega
    have less : r'.occupied = r.occupied - 1 := by omega
    change _ = r.traffic.step (.ending broken)
    simp only [traffic, Traffic.step, slots, less, living, ↓reduceIte]

theorem Accounted.traffic_run (accounted : Accounted r) (moves : List (Move τ)) :
    (r.run moves).traffic = r.traffic.run (r.events moves) := by
  induction moves generalizing r with
  | nil => rfl
  | cons m moves ih =>
    have made := r.step_transition m
    rw [run_cons, ih (accounted.transition made), accounted.traffic_transition made, events]
    exact (List.foldl_append ..).symm

/-! ## Broken tasks -/

/-- A move breaks a task: the next line of its connection asks for something that cannot be
answered. -/
def Breaks (r : Reception τ) (m : Move τ) : Prop :=
  ∃ i unread responses, m = .handle i ∧ r.handlers[i]? = some ⟨.serving unread, responses⟩ ∧
    ∃ bytes rest line e, readLine maxLine [] unread = .line bytes rest ∧
      Text.Utf8.decode? bytes = some line ∧ Service.Asks line e ∧
      ¬ r.service.machine.CanAnswer e.request

theorem event?_eq_break_iff (r : Reception τ) (m : Move τ) :
    r.event? m = some (.ending true) ↔ r.Breaks m := by
  simp only [Breaks, ← reply_breaks_iff]
  constructor
  · intro broke
    cases m with
    | connect | close | giveUp | turn => cases broke
    | accept =>
      rw [event?] at broke
      split at broke
      · split at broke <;> cases broke
      · split at broke <;> cases broke
      all_goals cases broke
    | handle i =>
      rw [event?] at broke
      split at broke
      · next unread responses found =>
        split at broke
        · next silent => exact ⟨i, unread, responses, rfl, found, silent⟩
        all_goals cases broke
      all_goals cases broke
  · rintro ⟨i, unread, responses, rfl, found, broke⟩
    simp only [event?, found, broke]

theorem lost_transition (made : r.Transition e r') :
    r'.lost = r.lost + e.toList.count (.ending true) := by
  have counts := made.counts
  match e, counts with
  | none, ⟨_, _, lost⟩ => exact lost
  | some .arrival, ⟨lost, _⟩ => exact lost
  | some (.ending true), ⟨_, _, lost⟩ => exact lost
  | some (.ending false), ⟨_, _, lost⟩ => exact lost

theorem lost_run (r : Reception τ) (moves : List (Move τ)) :
    (r.run moves).lost = r.lost + (r.events moves).count (.ending true) := by
  induction moves generalizing r with
  | nil => rfl
  | cons m moves ih =>
    rw [run_cons, ih, lost_transition (r.step_transition m), events, List.count_append,
      Nat.add_assoc]

theorem mem_events_iff {r : Reception τ} {moves : List (Move τ)} {event : ConnectionEvent} :
    event ∈ r.events moves ↔
      ∃ before m after, moves = before ++ m :: after ∧ (r.run before).event? m = some event := by
  induction moves generalizing r with
  | nil => simp [events]
  | cons m moves ih =>
    rw [events, List.mem_append, ih, Option.mem_toList]
    constructor
    · rintro (first | ⟨before, m', after, rfl, found⟩)
      · exact ⟨[], m, moves, rfl, first⟩
      · exact ⟨m :: before, m', after, rfl, found⟩
    · rintro ⟨before, m', after, same, found⟩
      cases before with
      | nil =>
        cases same
        exact .inl found
      | cons first before =>
        obtain ⟨rfl, rfl⟩ := List.cons.inj same
        exact .inr ⟨before, m', after, rfl, found⟩

/-! ## New connections -/

theorem handle_frame (r : Reception τ) (i : Nat) (h : Handler) :
    (r.handle i h).acceptor = r.acceptor ∧
      (r.handle i h).handlers.length = r.handlers.length := by
  rw [handle]
  split
  · split <;> exact ⟨rfl, List.length_set⟩
  · exact ⟨rfl, List.length_set⟩
  all_goals exact ⟨rfl, rfl⟩

theorem giveUp_frame (r : Reception τ) (i : Nat) (h : Handler) :
    (r.giveUp i h).acceptor = r.acceptor ∧
      (r.giveUp i h).handlers.length = r.handlers.length := by
  rw [giveUp]
  split
  · exact ⟨rfl, List.length_set⟩
  all_goals exact ⟨rfl, rfl⟩

/-- While the acceptor is busy with a connection, others do not change where it stands, and no task
begins. -/
theorem step_quiet (busy : r.acceptor ≠ .listen) {m : Move τ} (quiet : m ≠ .accept) :
    (r.step m).acceptor = r.acceptor ∧ (r.step m).handlers.length = r.handlers.length := by
  cases m with
  | connect | close =>
    rw [step]
    split
    · next free => exact absurd free busy
    all_goals exact ⟨rfl, rfl⟩
  | accept => exact absurd rfl quiet
  | handle i =>
    rw [step]
    split
    · exact handle_frame ..
    · exact ⟨rfl, rfl⟩
  | giveUp i =>
    rw [step]
    split
    · exact giveUp_frame ..
    · exact ⟨rfl, rfl⟩
  | turn change => exact ⟨rfl, rfl⟩

theorem run_quiet (busy : r.acceptor ≠ .listen) {moves : List (Move τ)} (quiet : .accept ∉ moves) :
    (r.run moves).acceptor = r.acceptor ∧
      (r.run moves).handlers.length = r.handlers.length := by
  induction moves generalizing r with
  | nil => exact ⟨rfl, rfl⟩
  | cons m moves ih =>
    obtain ⟨acceptor, length⟩ := step_quiet busy (Ne.symm (List.ne_of_not_mem_cons quiet))
    obtain ⟨acceptor', length'⟩ := ih (acceptor ▸ busy) (List.not_mem_of_not_mem_cons quiet)
    exact ⟨acceptor'.trans acceptor, length'.trans length⟩

section Decision

variable {incoming : Incoming} {quiet quiet' : List (Move τ)}

/-- Between the look and the decision nothing keeps the acceptor from what it has seen. -/
theorem run_look (arrived : r.acceptor = .look incoming) (calm : .accept ∉ quiet) :
    (r.run (.accept :: quiet)).acceptor = .decide r.slots.taken incoming ∧
      (r.run (.accept :: quiet)).handlers.length = r.handlers.length := by
  have looked : r.step .accept = { r with acceptor := .decide r.slots.taken incoming } := by
    rw [step, accept, arrived]
  rw [run_cons, looked]
  exact run_quiet (by simp) calm

/-- A connection is let in if there was a slot when the acceptor looked. -/
theorem begins_of_room (arrived : r.acceptor = .look incoming)
    (room : r.slots.taken < maxConnections) (calm : .accept ∉ quiet) (calm' : .accept ∉ quiet') :
    let r' := r.run (.accept :: quiet ++ .accept :: quiet' ++ [.accept])
    r'.handlers.length = r.handlers.length + 1 ∧
      r'.handlers[r.handlers.length]? = some (.new incoming) := by
  intro r'
  have parts : r' = (((r.run (.accept :: quiet)).step .accept).run quiet').step .accept :=
    (run_append ..).trans (congrArg (step · .accept) (run_append ..))
  obtain ⟨looked, length⟩ := run_look arrived calm
  have admitted : ((r.run (.accept :: quiet)).step .accept).acceptor = .begin incoming ∧
      ((r.run (.accept :: quiet)).step .accept).handlers.length = r.handlers.length := by
    rw [step, accept, looked]
    dsimp only
    rw [if_pos room]
    exact ⟨rfl, length⟩
  have busy : ((r.run (.accept :: quiet)).step .accept).acceptor ≠ .listen := by
    simp [admitted.1]
  obtain ⟨counted, begun⟩ := run_quiet busy calm'
  rw [admitted.1] at counted
  rw [admitted.2] at begun
  rw [parts, step, accept, counted, ← begun]
  exact ⟨List.length_append, List.getElem?_concat_length⟩

/-- A connection is turned away if there was none. -/
theorem turned_away_of_full (arrived : r.acceptor = .look incoming)
    (full : maxConnections ≤ r.slots.taken) (calm : .accept ∉ quiet) :
    let r' := r.run (.accept :: quiet ++ [.accept])
    r'.acceptor = .listen ∧ r'.handlers.length = r.handlers.length := by
  intro r'
  obtain ⟨looked, length⟩ := run_look arrived calm
  have same : r' = (r.run (.accept :: quiet)).step .accept := run_append ..
  rw [same, step, accept, looked]
  dsimp only
  rw [if_neg (Nat.not_lt.mpr full)]
  exact ⟨rfl, length⟩

end Decision

/-- While the clock shows a common time, a task breaks only on a request for a window of the history
that is longer than any span. -/
theorem breaks_iff_of_common {now : Instant} (shown : r.service.machine.time = .ok now)
    (common : now.IsCommon) (m : Move τ) : r.Breaks m ↔
      ∃ i unread responses, m = .handle i ∧ r.handlers[i]? = some ⟨.serving unread, responses⟩ ∧
        ∃ bytes rest line id duration, readLine maxLine [] unread = .line bytes rest ∧
          Text.Utf8.decode? bytes = some line ∧
          RequestEnvelope.read? (Text.trim line) = some ⟨id, .getHistory duration⟩ ∧
          9223372036854775 < duration.toNat := by
  have unanswered (line : List Char) :
      (∃ e, Service.Asks line e ∧ ¬ r.service.machine.CanAnswer e.request) ↔
        ∃ id duration, RequestEnvelope.read? (Text.trim line) = some ⟨id, .getHistory duration⟩ ∧
          9223372036854775 < duration.toNat := by
    rw [← unanswered_iff, answer_ok_iff_of_common r.service shown common]
    simp only [not_forall, not_le, exists_prop]
  simp only [Breaks, exists_and_left, unanswered]

/-! ## Connections that break -/

/-- A client connects, is let in, and its task takes a step. -/
def visit (incoming : Incoming) (i : Nat) : List (Move τ) :=
  [.connect incoming, .accept, .accept, .accept, .handle i]

/-- Every connection that breaks takes its slot with it. -/
theorem run_visits {s : Service τ} {incoming : Incoming}
    (breaks : ∀ crashes, Service.reply { s with crashes } incoming = .breaks) {n : Nat}
    (few : n ≤ maxConnections) :
    (opened s).run ((List.range n).flatMap (visit incoming)) =
      ⟨{ s with crashes := s.crashes + n }, ⟨n⟩, .listen, .replicate n ⟨.broken, []⟩⟩ := by
  induction n with
  | zero => rfl
  | succ n ih =>
    have room : n < maxConnections := few
    have found : (List.replicate n (⟨.broken, []⟩ : Handler) ++ [Handler.new incoming])[n]? =
        some ⟨.serving incoming, []⟩ := by
      simp [Handler.new]
    have last : (List.replicate n (⟨.broken, []⟩ : Handler) ++ [Handler.new incoming]).set n
        ⟨.broken, []⟩ = .replicate (n + 1) ⟨.broken, []⟩ := by
      simp [List.replicate_succ']
    rw [List.range_succ, List.flatMap_append, run_append, ih (Nat.le_of_succ_le few),
      List.flatMap_singleton]
    simp only [visit, run_cons, step, accept, room, ↓reduceIte, found, handle, breaks, put, last]
    rfl

end Reception

/-- A checked request that cannot be answered breaks the connection that it comes in on. -/
theorem reply_breaks_of_request (s : Service τ) {e : RequestEnvelope}
    (checked : e.request.check = .ok ()) (cannot : ¬ s.machine.CanAnswer e.request)
    {unread : Incoming} {more : List UInt8}
    (sent : unread.flatten = Text.Utf8.encodeString e.line ++ lineFeed :: more) :
    s.reply unread = .breaks := by
  obtain ⟨rest, -, read, decoded⟩ := read_request checked sent
  exact (reply_breaks_iff s unread).mpr
    ⟨_, rest, _, e, read, decoded, ⟨read?_requestText e, checked⟩, cannot⟩

/-- A line that asks for a window of one second more than the longest span. -/
def longWindow : Incoming :=
  [Text.Utf8.encodeString (RequestEnvelope.line ⟨1, .getHistory 9223372036854776⟩) ++ [lineFeed]]

theorem longWindow_breaks (now : Instant) (crashes : Nat) :
    Service.reply { plainService now with crashes } longWindow = .breaks := by
  refine reply_breaks_of_request _ (e := ⟨1, .getHistory 9223372036854776⟩) rfl ?_
    (List.append_nil _)
  rw [Machine.CanAnswer, Span.maxSeconds]
  decide

/-- The count is of the connections whose tasks are alive or about to begin, and of those whose
tasks have broken, through every run, and it never passes the limit. It is of the first alone
exactly if no task has broken, which happens only on a request that cannot be answered; while the
clock shows a common time, that is a window of the history longer than any span. A connection gets
its task exactly if there were fewer than 32 of both when the acceptor looked, whatever happens
until its task begins. Arrivals and endings that happen at once lead to the same count. -/
theorem slots_follow_tasks (s : Service τ) (moves : List (Reception.Move τ)) :
    let r := (Reception.opened s).run moves
    r.slots.taken = r.alive + r.pending + r.lost ∧ r.slots.taken ≤ 32 ∧
    (r.slots.taken = r.alive + r.pending ↔ ∀ before m after, moves = before ++ m :: after →
      ¬ ((Reception.opened s).run before).Breaks m) ∧
    (∀ now m, r.service.machine.time = .ok now → now.IsCommon → (r.Breaks m ↔
      ∃ i unread responses, m = .handle i ∧ r.handlers[i]? = some ⟨.serving unread, responses⟩ ∧
        ∃ bytes rest line id duration, readLine maxLine [] unread = .line bytes rest ∧
          Text.Utf8.decode? bytes = some line ∧
          RequestEnvelope.read? (Text.trim line) = some ⟨id, .getHistory duration⟩ ∧
          9223372036854775 < duration.toNat)) ∧
    (∀ incoming quiet quiet', r.acceptor = .look incoming → .accept ∉ quiet → .accept ∉ quiet' →
      (r.alive + r.lost < 32 →
        let r' := r.run (.accept :: quiet ++ .accept :: quiet' ++ [.accept])
        r'.handlers.length = r.handlers.length + 1 ∧
          r'.handlers[r.handlers.length]? = some (.new incoming)) ∧
      (32 ≤ r.alive + r.lost →
        let r' := r.run (.accept :: quiet ++ [.accept])
        r'.acceptor = .listen ∧ r'.handlers.length = r.handlers.length)) ∧
    Traffic.idle.run ((Reception.opened s).events moves) = ⟨r.slots, r.alive + r.pending⟩ := by
  intro r
  have opened := Reception.accounted_opened s
  have accounted : Reception.Accounted r := opened.run moves
  have taken : r.slots.taken = r.alive + r.pending + r.lost := accounted.taken
  refine ⟨taken, accounted.bound, ?_, ?_, ?_, (opened.traffic_run moves).symm⟩
  · have lost : r.lost = 0 + _ := Reception.lost_run (.opened s) moves
    have whole : r.slots.taken = r.alive + r.pending ↔
        ((Reception.opened s).events moves).count (.ending true) = 0 := by omega
    rw [whole, List.count_eq_zero, Reception.mem_events_iff]
    simp only [not_exists, not_and, Reception.event?_eq_break_iff]
  · exact fun now m shown common => Reception.breaks_iff_of_common shown common m
  · intro incoming quiet quiet' arrived calm calm'
    have none : r.pending = 0 := by rw [Reception.pending, arrived]
    have seen : r.alive + r.lost = r.slots.taken := by omega
    rw [seen]
    exact ⟨fun room => Reception.begins_of_room arrived room calm calm',
      fun full => Reception.turned_away_of_full arrived full calm⟩

/-- After 31 connections that have broken there is a slot left for one more. -/
theorem connection_beside_broken_begins :
    let s := plainService (.ofMillis 1748764800000)
    let moves := (List.range 31).flatMap (Reception.visit longWindow) ++ [.connect []]
    let r := (Reception.opened s).run moves
    r.acceptor = .look [] ∧ r.slots.taken = 31 ∧ r.alive + r.lost < 32 ∧
      (r.run [.accept, .accept, .accept]).handlers[31]? = some (.new []) := by
  intro s moves r
  have visits := Reception.run_visits (longWindow_breaks (.ofMillis 1748764800000)) (n := 31)
    (by decide)
  have state : r = ⟨{ s with crashes := 31 }, ⟨31⟩, .look [], .replicate 31 ⟨.broken, []⟩⟩ :=
    (Reception.run_append ..).trans (congrArg (Reception.run · [.connect []]) visits)
  obtain ⟨-, -, -, -, begins, -⟩ := slots_follow_tasks s moves
  have arrived : r.acceptor = .look [] := congrArg Reception.acceptor state
  have room : r.alive + r.lost < 32 := by
    rw [state]
    decide
  have begun : (r.run [.accept, .accept, .accept]).handlers[r.handlers.length]? = some (.new []) :=
    ((begins [] [] [] arrived List.not_mem_nil List.not_mem_nil).1 room).2
  have length : r.handlers.length = 31 := congrArg (·.handlers.length) state
  rw [length] at begun
  exact ⟨arrived, congrArg (·.slots.taken) state, room, begun⟩

/-- After 32 of them no task is alive, and the next connection is turned away. -/
theorem broken_connections_exhaust_slots :
    let s := plainService (.ofMillis 1748764800000)
    let r := (Reception.opened s).run
      ((List.range 32).flatMap (Reception.visit longWindow) ++ [.connect [], .accept, .accept])
    r.slots.taken = 32 ∧ r.alive = 0 ∧ r.pending = 0 ∧ r.acceptor = .listen ∧
      r.handlers.length = 32 := by
  intro s r
  have visits := Reception.run_visits (longWindow_breaks (.ofMillis 1748764800000)) (n := 32)
    (by decide)
  have state : r = ⟨{ s with crashes := 32 }, ⟨32⟩, .listen, .replicate 32 ⟨.broken, []⟩⟩ :=
    (Reception.run_append ..).trans
      (congrArg (Reception.run · [.connect [], .accept, .accept]) visits)
  rw [state]
  exact ⟨rfl, rfl, rfl, rfl, rfl⟩

end ChassisCooling.Server
