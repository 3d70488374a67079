import ChassisCooling.Daemon.Serving
import ChassisCooling.Proofs.Framing

/-! # Connections side by side

One task accepts connections, and each connection that is let in has a task of its own. The
acceptor looks at the count of connections, decides, counts the new one, and begins its task, one
step after the other; a task answers one line in a step, and when its connection has ended it is
counted off in another. Between any two steps of one task others may take theirs, clients may leave,
and the service may change.

A task by itself does what is done to a connection from its first byte to its last, and acceptor and
tasks together do what arrivals and endings do to the count when each happens at once.
-/

namespace ChassisCooling.Server

open Calendar Control Wire

variable {τ : Type}

/-! ## The next line of a connection -/

/-- What becomes of a connection with the next line that it reads: it ends, it breaks on a request
that has no answer, or it is answered and goes on. -/
inductive Reply (τ : Type) where
  | ends (farewell : List ResponseEnvelope)
  | breaks
  | goesOn (response : ResponseEnvelope) (service : Service τ) (rest : Incoming)

/-- Reads a line and answers it. -/
def Service.reply (s : Service τ) (unread : Incoming) : Reply τ :=
  match readLine maxLine [] unread with
  | .closed => .ends []
  | .tooLong => .ends [⟨0, .error "Message too large"⟩]
  | .line bytes rest =>
    match Text.Utf8.decode? bytes with
    | none => .ends [⟨0, .error "Invalid request encoding"⟩]
    | some line =>
      match s.answer line with
      | .error _ => .breaks
      | .ok (response, service) => .goesOn response service rest

/-- A connection is served line by line. -/
theorem serve_eq_reply (s : Service τ) (unread : Incoming) : serve s unread =
    match s.reply unread with
    | .ends farewell => ⟨farewell, s, false⟩
    | .breaks => ⟨[], s.crash, true⟩
    | .goesOn response service rest =>
      let served := serve service rest
      { served with responses := response :: served.responses } := by
  rw [Service.reply]
  cases read : readLine maxLine [] unread with
  | closed => exact serve_closed read
  | tooLong => exact serve_tooLong read
  | line bytes rest =>
    rw [serve_line read]
    dsimp only
    cases Text.Utf8.decode? bytes with
    | none => rfl
    | some line =>
      dsimp only
      cases s.answer line <;> rfl

theorem reply_size {s service : Service τ} {unread rest : Incoming} {response : ResponseEnvelope}
    (replied : s.reply unread = .goesOn response service rest) : rest.size < unread.size := by
  rw [Service.reply] at replied
  split at replied
  · cases replied
  · cases replied
  · next read =>
    split at replied
    · cases replied
    · split at replied
      · cases replied
      · cases replied
        exact readLine_size read

/-- A line has no answer exactly if it asks for something that the service cannot answer. -/
theorem unanswered_iff (s : Service τ) (line : List Char) :
    (¬ ∃ reply, s.answer line = .ok reply) ↔
      ∃ e, Service.Asks line e ∧ ¬ s.machine.CanAnswer e.request := by
  rw [Service.answer_ok_iff]
  simp only [not_forall, exists_prop]

/-- A connection breaks exactly on a line that asks for something that cannot be answered. -/
theorem reply_breaks_iff (s : Service τ) (unread : Incoming) : s.reply unread = .breaks ↔
    ∃ bytes rest line e, readLine maxLine [] unread = .line bytes rest ∧
      Text.Utf8.decode? bytes = some line ∧ Service.Asks line e ∧
      ¬ s.machine.CanAnswer e.request := by
  constructor
  · intro broke
    rw [Service.reply] at broke
    split at broke
    · cases broke
    · cases broke
    · next bytes rest read =>
      split at broke
      · cases broke
      · next line decoded =>
        have unanswered : ¬ ∃ reply, s.answer line = .ok reply := by
          rintro ⟨reply, answered⟩
          rw [answered] at broke
          cases broke
        obtain ⟨e, asks, cannot⟩ := (unanswered_iff s line).mp unanswered
        exact ⟨bytes, rest, line, e, read, decoded, asks, cannot⟩
  · rintro ⟨bytes, rest, line, e, read, decoded, asks, cannot⟩
    have unanswered := (unanswered_iff s line).mpr ⟨e, asks, cannot⟩
    simp only [Service.reply, read, decoded]
    cases answered : s.answer line with
    | error => rfl
    | ok reply => exact absurd ⟨reply, answered⟩ unanswered

/-! ## Tasks -/

/-- The next step of a connection's task. -/
inductive HandlerPoint where
  | serving (unread : Incoming)
  /-- The connection has ended and is still counted. -/
  | leaving
  | ended
  /-- A request broke off, and the task with it. -/
  | broken

/-- The task of a connection, with what it has answered. -/
structure Handler where
  point : HandlerPoint
  responses : List ResponseEnvelope

namespace Handler

/-- The task of a new connection. -/
def new (incoming : Incoming) : Handler :=
  ⟨.serving incoming, []⟩

/-- The task has neither returned nor broken. -/
def isAlive (h : Handler) : Bool :=
  match h.point with
  | .serving _ | .leaving => true
  | .ended | .broken => false

def isBroken (h : Handler) : Bool :=
  match h.point with
  | .broken => true
  | .serving _ | .leaving | .ended => false

theorem not_isBroken {h : Handler} (alive : h.isAlive = true) : h.isBroken = false := by
  obtain ⟨point, responses⟩ := h
  cases point with
  | serving | leaving => rfl
  | ended | broken => cases alive

end Handler

/-- The next step of the task that accepts connections. -/
inductive AcceptorPoint where
  | listen
  /-- Looks how many connections are counted. -/
  | look (incoming : Incoming)
  /-- Turns the connection away, or counts it. -/
  | decide (seen : Nat) (incoming : Incoming)
  /-- Begins the task of the connection. -/
  | begin (incoming : Incoming)
  | closed

/-- All tasks of a server, and what they share. -/
structure Reception (τ : Type) where
  service : Service τ
  slots : Slots
  acceptor : AcceptorPoint
  handlers : List Handler

namespace Reception

/-- A server that has just begun to listen. -/
def opened (s : Service τ) : Reception τ :=
  ⟨s, ⟨0⟩, .listen, []⟩

/-- The tasks of connections that are alive. -/
def alive (r : Reception τ) : Nat :=
  r.handlers.countP Handler.isAlive

/-- The tasks of connections that have broken. -/
def lost (r : Reception τ) : Nat :=
  r.handlers.countP Handler.isBroken

/-- The connection that is counted and whose task is about to begin. -/
def pending (r : Reception τ) : Nat :=
  match r.acceptor with
  | .begin _ => 1
  | .listen | .look _ | .decide .. | .closed => 0

/-- A task goes on to another point. -/
def put (r : Reception τ) (i : Nat) (h : Handler) : Reception τ :=
  { r with handlers := r.handlers.set i h }

/-- The acceptor's next step, when a connection is there. -/
def accept (r : Reception τ) : Reception τ :=
  match r.acceptor with
  | .look incoming => { r with acceptor := .decide r.slots.taken incoming }
  | .decide seen incoming =>
    if seen < maxConnections then
      { r with acceptor := .begin incoming, slots := ⟨r.slots.taken + 1⟩ }
    else { r with acceptor := .listen }
  | .begin incoming => { r with acceptor := .listen, handlers := r.handlers ++ [.new incoming] }
  | .listen | .closed => r

/-- The next step of a connection's task: it answers a line, or is counted off. -/
def handle (r : Reception τ) (i : Nat) (h : Handler) : Reception τ :=
  match h.point with
  | .serving unread =>
    match r.service.reply unread with
    | .ends farewell => r.put i ⟨.leaving, h.responses ++ farewell⟩
    | .breaks =>
      { r.put i ⟨.broken, h.responses⟩ with
        service := r.service.crash, slots := r.slots.release true }
    | .goesOn response service rest =>
      { r.put i ⟨.serving rest, h.responses ++ [response]⟩ with service }
  | .leaving => { r.put i ⟨.ended, h.responses⟩ with slots := r.slots.release false }
  | .ended | .broken => r

/-- A connection ends before its input does: its client is not known or too slow, or takes no
answer. -/
def giveUp (r : Reception τ) (i : Nat) (h : Handler) : Reception τ :=
  match h.point with
  | .serving _ => r.put i ⟨.leaving, h.responses⟩
  | .leaving | .ended | .broken => r

/-- What can happen next. -/
inductive Move (τ : Type) where
  /-- A client connects, with all that it is going to send. -/
  | connect (incoming : Incoming)
  /-- The server is told to stop. -/
  | close
  | accept
  | handle (i : Nat)
  | giveUp (i : Nat)
  /-- Time goes on, a cycle runs, or the machine changes. -/
  | turn (change : Service τ → Service τ)

/-- What a move leads to. A move that cannot be made changes nothing. -/
def step (r : Reception τ) : Move τ → Reception τ
  | .connect incoming =>
    match r.acceptor with
    | .listen => { r with acceptor := .look incoming }
    | .look _ | .decide .. | .begin _ | .closed => r
  | .close =>
    match r.acceptor with
    | .listen => { r with acceptor := .closed }
    | .look _ | .decide .. | .begin _ | .closed => r
  | .accept => r.accept
  | .handle i =>
    match r.handlers[i]? with
    | some h => r.handle i h
    | none => r
  | .giveUp i =>
    match r.handlers[i]? with
    | some h => r.giveUp i h
    | none => r
  | .turn change => { r with service := change r.service }

/-- What moves lead to, one after another. -/
def run (r : Reception τ) (moves : List (Move τ)) : Reception τ :=
  moves.foldl step r

theorem run_cons (r : Reception τ) (m : Move τ) (moves : List (Move τ)) :
    r.run (m :: moves) = (r.step m).run moves :=
  rfl

theorem run_append (r : Reception τ) (moves more : List (Move τ)) :
    r.run (moves ++ more) = (r.run moves).run more :=
  List.foldl_append ..

/-! ## What a move can do -/

/-- What a move does to the count, as an arrival or an ending that happens at once. A connection
that is turned away arrives when the acceptor looks, any other one when it is counted. -/
def event? (r : Reception τ) : Move τ → Option ConnectionEvent
  | .accept =>
    match r.acceptor with
    | .look _ => if r.slots.taken < maxConnections then none else some .arrival
    | .decide seen _ => if seen < maxConnections then some .arrival else none
    | .listen | .begin _ | .closed => none
  | .handle i =>
    match r.handlers[i]? with
    | some ⟨.serving unread, _⟩ =>
      match r.service.reply unread with
      | .breaks => some (.ending true)
      | .ends _ | .goesOn .. => none
    | some ⟨.leaving, _⟩ => some (.ending false)
    | some ⟨.ended, _⟩ | some ⟨.broken, _⟩ | none => none
  | .connect _ | .close | .giveUp _ | .turn _ => none

/-- The arrivals and endings of a run. -/
def events (r : Reception τ) : List (Move τ) → List ConnectionEvent
  | [] => []
  | m :: rest => (r.event? m).toList ++ (r.step m).events rest

/-- The changes that moves make. -/
inductive Transition (r : Reception τ) : Option ConnectionEvent → Reception τ → Prop
  | turn (service : Service τ) : Transition r none { r with service }
  | connect (incoming : Incoming) (free : r.acceptor = .listen) :
    Transition r none { r with acceptor := .look incoming }
  | close (free : r.acceptor = .listen) : Transition r none { r with acceptor := .closed }
  | look {incoming : Incoming} (arrived : r.acceptor = .look incoming)
    (room : r.slots.taken < maxConnections) :
    Transition r none { r with acceptor := .decide r.slots.taken incoming }
  | lookFull {incoming : Incoming} (arrived : r.acceptor = .look incoming)
    (full : maxConnections ≤ r.slots.taken) :
    Transition r (some .arrival) { r with acceptor := .decide r.slots.taken incoming }
  | letIn {seen : Nat} {incoming : Incoming} (looked : r.acceptor = .decide seen incoming)
    (room : seen < maxConnections) :
    Transition r (some .arrival)
      { r with acceptor := .begin incoming, slots := ⟨r.slots.taken + 1⟩ }
  | turnAway {seen : Nat} {incoming : Incoming} (looked : r.acceptor = .decide seen incoming)
    (full : maxConnections ≤ seen) : Transition r none { r with acceptor := .listen }
  | begin {incoming : Incoming} (counted : r.acceptor = .begin incoming) :
    Transition r none { r with acceptor := .listen, handlers := r.handlers ++ [.new incoming] }
  | goOn {i : Nat} {h h' : Handler} (found : r.handlers[i]? = some h) (alive : h.isAlive = true)
    (stays : h'.isAlive = true) (service : Service τ) :
    Transition r none { r.put i h' with service }
  | breakOff {i : Nat} {h : Handler} (found : r.handlers[i]? = some h) (alive : h.isAlive = true) :
    Transition r (some (.ending true)) { r.put i ⟨.broken, h.responses⟩ with
      service := r.service.crash, slots := r.slots.release true }
  | countOff {i : Nat} {h : Handler} (found : r.handlers[i]? = some h) (alive : h.isAlive = true) :
    Transition r (some (.ending false)) { r.put i ⟨.ended, h.responses⟩ with
      slots := r.slots.release false }

theorem accept_transition (r : Reception τ) : r.Transition (r.event? .accept) r.accept := by
  rw [accept, event?]
  cases at_ : r.acceptor with
  | listen | closed => exact .turn r.service
  | look incoming =>
    dsimp only
    split
    · next room => exact .look at_ room
    · next full => exact .lookFull at_ (Nat.not_lt.mp full)
  | decide seen incoming =>
    dsimp only
    split
    · next room => exact .letIn at_ room
    · next full => exact .turnAway at_ (Nat.not_lt.mp full)
  | begin incoming => exact .begin at_

theorem handle_transition {r : Reception τ} {i : Nat} {h : Handler}
    (found : r.handlers[i]? = some h) : r.Transition (r.event? (.handle i)) (r.handle i h) := by
  obtain ⟨point, responses⟩ := h
  rw [handle, event?, found]
  cases point with
  | serving unread =>
    dsimp only
    cases r.service.reply unread with
    | ends farewell => exact .goOn found rfl rfl r.service
    | breaks => exact .breakOff found rfl
    | goesOn response service rest => exact .goOn found rfl rfl service
  | leaving => exact .countOff found rfl
  | ended | broken => exact .turn r.service

/-- Every move makes one of the changes. -/
theorem step_transition (r : Reception τ) (m : Move τ) : r.Transition (r.event? m) (r.step m) := by
  cases m with
  | connect incoming =>
    rw [step, event?]
    split
    · next free => exact .connect incoming free
    all_goals exact .turn r.service
  | close =>
    rw [step, event?]
    split
    · next free => exact .close free
    all_goals exact .turn r.service
  | accept => exact r.accept_transition
  | handle i =>
    rw [step]
    split
    · next h found => exact handle_transition found
    · next absent =>
      rw [event?, absent]
      exact .turn r.service
  | giveUp i =>
    rw [step, event?]
    split
    · next h found =>
      obtain ⟨point, responses⟩ := h
      rw [giveUp]
      cases point with
      | serving => exact .goOn found rfl rfl r.service
      | leaving | ended | broken => exact .turn r.service
    · exact .turn r.service
  | turn change => exact .turn _

/-! ## A task by itself -/

section Alone

variable {r : Reception τ} {i : Nat} {h : Handler}

theorem getElem?_put (found : r.handlers[i]? = some h) (h' : Handler) :
    (r.put i h').handlers[i]? = some h' := by
  obtain ⟨inside, -⟩ := List.getElem?_eq_some_iff.mp found
  exact List.getElem?_set_self inside

@[simp] theorem put_put (r : Reception τ) (i : Nat) (h h' : Handler) :
    (r.put i h).put i h' = r.put i h' := by
  simp only [put, List.set_set]

theorem step_handle (found : r.handlers[i]? = some h) : r.step (.handle i) = r.handle i h := by
  rw [step, found]

/-- A task that nobody interrupts serves its connection as it is served from its first byte to its
last, and gives back its slot unless it breaks. -/
theorem run_alone {unread : Incoming} {responses : List ResponseEnvelope}
    (found : r.handlers[i]? = some ⟨.serving unread, responses⟩) :
    ∃ n, r.run (.replicate n (.handle i)) =
      let served := serve r.service unread
      { r.put i ⟨if served.broken then .broken else .ended, responses ++ served.responses⟩ with
        service := served.service, slots := r.slots.release served.broken } := by
  induction size : unread.size using Nat.strongRecOn generalizing r unread responses with
  | ind size ih =>
    have first := step_handle found
    rw [serve_eq_reply]
    cases replied : r.service.reply unread with
    | ends farewell =>
      simp only [handle, replied] at first
      have second : (r.put i ⟨.leaving, responses ++ farewell⟩).step (.handle i) =
          { r.put i ⟨.ended, responses ++ farewell⟩ with slots := r.slots.release false } := by
        rw [step_handle (getElem?_put found _)]
        simp only [handle, put_put]
        rfl
      refine ⟨2, ?_⟩
      rw [List.replicate_succ, run_cons, first]
      exact second
    | breaks =>
      simp only [handle, replied] at first
      refine ⟨1, ?_⟩
      rw [List.replicate_succ, run_cons, first]
      simp only [List.append_nil, ↓reduceIte]
      rfl
    | goesOn response service rest =>
      simp only [handle, replied] at first
      obtain ⟨n, onward⟩ := ih rest.size (size ▸ reply_size replied)
        (r := { r.put i ⟨.serving rest, responses ++ [response]⟩ with service })
        (getElem?_put found _) rfl
      refine ⟨n + 1, ?_⟩
      rw [List.replicate_succ, run_cons, first, onward]
      simp only [put, List.set_set, List.append_assoc, List.singleton_append]

/-- A connection that finds a slot, and whose task nobody interrupts. -/
theorem run_connection (free : r.acceptor = .listen) (room : r.slots.taken < maxConnections)
    (incoming : Incoming) :
    ∃ n, r.run ([.connect incoming, .accept, .accept, .accept] ++
        .replicate n (.handle r.handlers.length)) =
      let served := serve r.service incoming
      { r with
        service := served.service
        slots := Slots.release ⟨r.slots.taken + 1⟩ served.broken
        handlers :=
          r.handlers ++ [⟨if served.broken then .broken else .ended, served.responses⟩] } := by
  have begun : r.run [.connect incoming, .accept, .accept, .accept] =
      { r with slots := ⟨r.slots.taken + 1⟩, handlers := r.handlers ++ [.new incoming] } := by
    simp only [run_cons, step, accept, free, room, ↓reduceIte]
    rfl
  obtain ⟨n, alone⟩ := run_alone (r := { r with
    slots := ⟨r.slots.taken + 1⟩, handlers := r.handlers ++ [.new incoming] })
    List.getElem?_concat_length
  refine ⟨n, ?_⟩
  have last (h : Handler) : (r.handlers ++ [Handler.new incoming]).set r.handlers.length h =
      r.handlers ++ [h] := by simp
  rw [run_append, begun, alone]
  simp only [put, last, List.nil_append]

end Alone

end Reception

/-- A connection that finds no slot. -/
theorem Reception.run_refused {r : Reception τ} (free : r.acceptor = .listen)
    (full : ¬ r.slots.taken < maxConnections) (incoming : Incoming) :
    r.run [.connect incoming, .accept, .accept] = r := by
  obtain ⟨service, slots, acceptor, handlers⟩ := r
  cases free
  simp only [run_cons, step, accept, full, ↓reduceIte]
  rfl

/-- What a daemon does to connections one after another is a run in which each task begins when the
one before has ended and nobody interrupts it. -/
theorem run_daemon_connection {σ : Type} (d : Daemon.Running σ) (incoming : Incoming)
    {r : Reception (Daemon.Devices σ)} (free : r.acceptor = .listen)
    (service : r.service = d.service) (slots : r.slots = d.slots) :
    let (responses, broken, d') := d.connection incoming
    ∃ moves, r.run (.connect incoming :: moves) = { r with
      service := d'.service
      slots := d'.slots
      handlers := r.handlers ++ if d.slots.taken < maxConnections then
        [⟨if broken then .broken else .ended, responses⟩] else [] } := by
  by_cases room : d.slots.taken < maxConnections
  · have take : d.slots.take? = some ⟨d.slots.taken + 1⟩ := if_pos room
    obtain ⟨n, alone⟩ := Reception.run_connection free (slots ▸ room) incoming
    let noticed (s : Service (Daemon.Devices σ)) : Service (Daemon.Devices σ) :=
      { s with machine.devices :=
          Daemon.afterCrashes d.hardware (s.crashes - d.service.crashes) s.machine.devices }
    simp only [Daemon.Running.connection, take, room, ↓reduceIte]
    refine ⟨[.accept, .accept, .accept] ++ .replicate n (.handle r.handlers.length) ++
      [.turn noticed], ?_⟩
    rw [← List.cons_append, Reception.run_append, ← List.cons_append, alone, service, slots]
    rfl
  · have take : d.slots.take? = none := if_neg room
    simp only [Daemon.Running.connection, take, room, ↓reduceIte, List.append_nil]
    refine ⟨[.accept, .accept], ?_⟩
    rw [Reception.run_refused free (slots ▸ room), ← service, ← slots]

end ChassisCooling.Server
