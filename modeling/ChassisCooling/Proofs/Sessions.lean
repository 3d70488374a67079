import ChassisCooling.Client.Session
import ChassisCooling.Text.Lines

/-! # Whose answer a client takes

The requests of a session go out under numbers of their own, while the bytes that come back are one
stream, which the daemon at the other end may fill as it likes: with answers that are late,
repeated, cut off, too long or unasked for. A client takes the front of what it has not read yet,
and takes it for an answer only if it bears the number of the request, or no number, which is
written 0.
-/

namespace ChassisCooling.Client

open Wire

variable {π : Type} {peer : Peer π} {link next : Link} {line : List UInt8}

/-! ## What is taken from a link -/

namespace Link

/-- The bytes that a client takes of those that it has not read yet. -/
def front (unread : List UInt8) : List UInt8 :=
  (takeLine (maxResponse + 1) unread).1

theorem front_append (unread : List UInt8) :
    front unread ++ (takeLine (maxResponse + 1) unread).2 = unread :=
  List.take_append_drop ..

/-- Waiting for a line takes the front of what is unread, or nothing. -/
theorem receive_unread (link : Link) : link.receive.2.unread <:+ link.unread := by
  have taken : (takeLine (maxResponse + 1) link.unread).2 <:+ link.unread := ⟨_, front_append _⟩
  rw [receive]
  simp only
  split
  · exact taken
  split
  · exact List.suffix_rfl
  split
  · exact taken
  · exact taken

theorem receive_ok (received : link.receive.1 = .ok line) : line = front link.unread := by
  rw [receive] at received
  simp only at received
  split at received
  · cases received
  split at received
  · cases received
  split at received
  · cases received
  · exact (Except.ok.inj received).symm

end Link

namespace Session

variable {s : Session π} {r : Request} {id : UInt64} {data : Payload}

/-! ## One request -/

/-- A line is understood as the answer to a request if it bears the number of the request or 0. -/
theorem understand_ok_iff :
    understand id line = .ok data ↔
      ∃ e, (Text.Utf8.decode? line).bind ResponseEnvelope.read? = some e ∧
        e.response = .ok data ∧ (e.id = id ∨ e.id = 0) := by
  rw [understand]
  cases (Text.Utf8.decode? line).bind ResponseEnvelope.read? with
  | none => simp
  | some e =>
    obtain ⟨number, response⟩ := e
    simp only [Option.some.injEq, exists_eq_left']
    by_cases own : number = id ∨ number = 0
    · rw [if_neg fun foreign => own.elim foreign.1 foreign.2]
      cases response <;> simp [own]
    · rw [if_pos (not_or.mp own)]
      simp [own]

/-- What a daemon does with the line of a request. -/
def handle (peer : Peer π) (s : Session π) (r : Request) : Reply × π :=
  peer (lineOf ⟨s.nextId, r⟩) s.daemon

/-- The bytes that a daemon sends on a request, if the request reaches it. -/
def reply (peer : Peer π) (s : Session π) (r : Request) : List UInt8 :=
  if r.check.isOk && !s.link.hungUp then (s.handle peer r).1.bytes else []

/-- The connection when a daemon has handled a request. -/
def answered (peer : Peer π) (s : Session π) (r : Request) : Link :=
  ⟨s.link.unread ++ s.reply peer r, (s.handle peer r).1.hangsUp⟩

/-- The number of the request after a given one: a request that passes its check takes a number. -/
def numberAfter (s : Session π) (r : Request) : UInt64 :=
  if r.check.isOk then s.nextId + 1 else s.nextId

/-- A request does not reach the daemon, or its answer is what is then received. -/
theorem request_cases (peer : Peer π) (s : Session π) (r : Request) :
    (s.reply peer r = [] ∧
      ∃ fault, s.request peer r = (.error fault, { s with nextId := s.numberAfter r })) ∨
    (r.check.isOk = true ∧
      s.request peer r = ((s.answered peer r).receive.1.bind (understand s.nextId),
        ⟨s.numberAfter r, (s.answered peer r).receive.2, (s.handle peer r).2⟩)) := by
  unfold request reply numberAfter answered reply
  cases r.check with
  | error refusal => exact .inl ⟨rfl, _, rfl⟩
  | ok u =>
    simp only [Link.send]
    cases s.link.hungUp with
    | true => exact .inl ⟨rfl, _, rfl⟩
    | false =>
      refine .inr ⟨rfl, ?_⟩
      simp only [handle, Bool.false_eq_true, ↓reduceIte]
      split
      · next received =>
        simp only [Except.isOk, Except.toBool, Bool.not_false, Bool.and_self, ↓reduceIte, received]
        rfl
      · next received =>
        simp only [Except.isOk, Except.toBool, Bool.not_false, Bool.and_self, ↓reduceIte, received]
        rfl

theorem request_nextId (peer : Peer π) (s : Session π) (r : Request) :
    (s.request peer r).2.nextId = s.numberAfter r := by
  rcases s.request_cases peer r with ⟨_, _, same⟩ | ⟨_, same⟩
  · rw [same]
  · rw [same]

/-- What a client has not read after a request is the end of what it had not read before and of the
reply. -/
theorem request_unread (peer : Peer π) (s : Session π) (r : Request) :
    (s.request peer r).2.link.unread <:+ s.link.unread ++ s.reply peer r := by
  rcases s.request_cases peer r with ⟨silent, _, same⟩ | ⟨_, same⟩
  · simp only [same, silent, List.append_nil, List.suffix_rfl]
  · rw [same]
    exact Link.receive_unread _

/-- What is taken for the answer to a request stands at the front of what is unread and bears the
number of the request or 0. -/
theorem request_ok (peer : Peer π) (s : Session π) (r : Request)
    (taken : (s.request peer r).1 = .ok data) :
    r.check.isOk = true ∧
      ∃ e, (Text.Utf8.decode? (Link.front (s.link.unread ++ s.reply peer r))).bind
          ResponseEnvelope.read? = some e ∧
        e.response = .ok data ∧ (e.id = s.nextId ∨ e.id = 0) := by
  rcases s.request_cases peer r with ⟨_, _, same⟩ | ⟨checked, same⟩
  · rw [same] at taken
    cases taken
  · rw [same] at taken
    cases received : (s.answered peer r).receive.1 with
    | error fault =>
      rw [received] at taken
      cases taken
    | ok line =>
      rw [received] at taken
      have front : line = Link.front (s.link.unread ++ s.reply peer r) := Link.receive_ok received
      exact ⟨checked, front ▸ understand_ok_iff.mp taken⟩

/-! ## A run of requests -/

/-- One request of a session, with what passes between the two ends. -/
structure Exchange where
  /-- The number that the request is sent under, if it passes its check. -/
  id : UInt64
  request : Request
  /-- The bytes that the daemon sends on the request. -/
  reply : List UInt8
  /-- The bytes that a client waiting for the answer takes. -/
  taken : List UInt8
  result : Except Fault Payload

/-- What passes for one request. -/
def exchange (peer : Peer π) (s : Session π) (r : Request) : Exchange where
  id := s.nextId
  request := r
  reply := s.reply peer r
  taken := Link.front (s.link.unread ++ s.reply peer r)
  result := (s.request peer r).1

/-- What passes for several requests, one after another. -/
def exchanges (peer : Peer π) : Session π → List Request → List Exchange
  | _, [] => []
  | s, r :: requests => s.exchange peer r :: exchanges peer (s.request peer r).2 requests

/-- A request takes a number. -/
def Exchange.isNumbered (x : Exchange) : Bool :=
  x.request.check.isOk

variable {requests : List Request} {before after between : List Exchange} {x y : Exchange}

/-- An exchange of a run is that of a session whose number tells how many numbers were taken before,
and whose unread bytes are the end of what was sent before. -/
theorem exists_session (run : s.exchanges peer requests = before ++ x :: after) :
    ∃ s' : Session π, ∃ r, x = s'.exchange peer r ∧
      s'.nextId = s.nextId + .ofNat (before.countP Exchange.isNumbered) ∧
      s'.link.unread <:+ s.link.unread ++ before.flatMap Exchange.reply := by
  induction before generalizing s requests with
  | nil =>
    cases requests with
    | nil => cases run
    | cons r requests =>
      obtain ⟨rfl, -⟩ := List.cons.inj run
      exact ⟨s, r, rfl, (UInt64.add_zero _).symm, by simp⟩
  | cons first before ih =>
    cases requests with
    | nil => cases run
    | cons r requests =>
      obtain ⟨rfl, later⟩ := List.cons.inj run
      obtain ⟨s', r', same, number, unread⟩ := ih later
      refine ⟨s', r', same, ?_, ?_⟩
      · rw [number, request_nextId, numberAfter, List.countP_cons]
        have numbered : (s.exchange peer r).isNumbered = r.check.isOk := rfl
        rw [numbered]
        split
        · rw [UInt64.add_assoc, UInt64.ofNat_add, UInt64.add_comm 1]
          rfl
        · rfl
      · obtain ⟨passed, same⟩ := s.request_unread peer r
        refine unread.trans ⟨passed, ?_⟩
        rw [← List.append_assoc, same, List.flatMap_cons, List.append_assoc]
        rfl

theorem length_exchanges (peer : Peer π) (s : Session π) (requests : List Request) :
    (s.exchanges peer requests).length = requests.length := by
  induction requests generalizing s with
  | nil => rfl
  | cons r requests ih => exact congrArg (· + 1) (ih _)

/-- Two requests of a run have different numbers, as long as there are numbers left. -/
theorem id_ne_id (run : s.exchanges peer requests = before ++ x :: (between ++ y :: after))
    (numbered : x.isNumbered = true) (few : requests.length < UInt64.size) : x.id ≠ y.id := by
  have again : s.exchanges peer requests = (before ++ x :: between) ++ y :: after := by
    rw [run, List.append_assoc, List.cons_append]
  obtain ⟨s₁, r₁, rfl, first, -⟩ := exists_session run
  obtain ⟨s₂, r₂, rfl, second, -⟩ := exists_session again
  have length := congrArg List.length run
  rw [length_exchanges, List.length_append, List.length_cons, List.length_append,
    List.length_cons] at length
  have start : before.countP Exchange.isNumbered ≤ before.length := List.countP_le_length
  have middle : between.countP Exchange.isNumbered ≤ between.length := List.countP_le_length
  rw [List.countP_append, List.countP_cons_of_pos numbered] at second
  intro same
  have equal : s.nextId + .ofNat (before.countP Exchange.isNumbered) = s.nextId + .ofNat _ :=
    first.symm.trans (same.trans second)
  have counts := congrArg UInt64.toNat ((UInt64.add_right_inj _).mp equal)
  rw [UInt64.toNat_ofNat', UInt64.toNat_ofNat'] at counts
  have size : UInt64.size = 18446744073709551616 := rfl
  omega

/-- The payload that a request comes to stands in an answer among the bytes that the daemon has sent
by then; the answer bears the number of the request, which no other request has, or 0. -/
theorem answer_of_run {peer : Peer π} {s : Session π} {requests : List Request}
    {before after : List Exchange} {x : Exchange} {data : Payload}
    (run : s.exchanges peer requests = before ++ x :: after) (taken : x.result = .ok data) :
    (∃ e, (Text.Utf8.decode? x.taken).bind ResponseEnvelope.read? = some e ∧
      e.response = .ok data ∧ (e.id = x.id ∨ e.id = 0)) ∧
    x.taken <:+: s.link.unread ++ (before ++ [x]).flatMap Exchange.reply ∧
    (requests.length < UInt64.size → ∀ y ∈ before ++ after, y.isNumbered = true → y.id ≠ x.id) := by
  obtain ⟨s', r, rfl, -, passed, stream⟩ := exists_session run
  obtain ⟨numbered, answer⟩ := request_ok peer s' r taken
  refine ⟨answer, ?_, ?_⟩
  · have front := Link.front_append (s'.link.unread ++ s'.reply peer r)
    let rest := (Link.takeLine (Link.maxResponse + 1) (s'.link.unread ++ s'.reply peer r)).2
    refine ⟨passed, rest, ?_⟩
    rw [List.append_assoc]
    have same : (s'.exchange peer r).taken = Link.front (s'.link.unread ++ s'.reply peer r) := rfl
    rw [same, front, List.flatMap_append, ← List.append_assoc, ← List.append_assoc, stream]
    simp [exchange]
  · intro few y listed other
    rcases List.mem_append.mp listed with earlier | later
    · obtain ⟨start, between, rfl⟩ := List.append_of_mem earlier
      rw [List.append_assoc, List.cons_append] at run
      exact id_ne_id run other few
    · obtain ⟨between, rest, rfl⟩ := List.append_of_mem later
      exact (id_ne_id run numbered few).symm

/-- A daemon that answers the lines it gets with prepared ones, and hangs up after the last. -/
def prepared : Peer (List String)
  | _, [] => (⟨[], true⟩, [])
  | _, text :: texts => (⟨Text.Utf8.encodeString text ++ [0x0A], false⟩, texts)

/-- A ping to a daemon that answers it with a given line. -/
def pinged (text : String) : Exchange :=
  (start [text]).exchange prepared .ping

/-- A line that answers the second request of a session. -/
def numberedPong : String :=
  "\x7b\"id\":2,\"status\":\"ok\",\"value\":\"pong\"\x7d"

/-- A line that answers the seventh. -/
def foreignPong : String :=
  "\x7b\"id\":7,\"status\":\"ok\",\"value\":\"pong\"\x7d"

/-- A line that answers no request. -/
def unnumberedPong : String :=
  "\x7b\"id\":0,\"status\":\"ok\",\"value\":\"pong\"\x7d"

theorem exists_ok_of_value {result : Except Fault Payload} {text : String}
    (valued : result.toOption.bind Payload.value = some text) :
    ∃ data, result = .ok data ∧ data.value = some text := by
  cases result with
  | error fault => cases valued
  | ok data => exact ⟨data, rfl, valued⟩

/-- A daemon answers twice on the first request, and again on the second. The first answer is not
taken, for it bears another number; the request after it is not sent. The answer that is left over
is taken for the request that is sent next, whose number it bears. -/
theorem numberedPong_taken :
    let first := start [foreignPong ++ "\n" ++ numberedPong, numberedPong]
    ∃ refused unsent x data,
      first.exchanges prepared [.version, .getHistory 0, .ping] = [refused, unsent, x] ∧
      refused.result.isOk = false ∧ unsent.isNumbered = false ∧ x.id = 2 ∧ x.result = .ok data ∧
      data.value = some "pong" ∧ x.taken <:+: [refused, unsent, x].flatMap Exchange.reply ∧
      (∃ e : ResponseEnvelope, e.response = .ok data ∧ (e.id = x.id ∨ e.id = 0)) ∧
      refused.id ≠ x.id := by
  intro first
  let second := (first.request prepared .version).2
  let third := (second.request prepared (.getHistory 0)).2
  let refused := first.exchange prepared .version
  let unsent := second.exchange prepared (.getHistory 0)
  let x := third.exchange prepared .ping
  have run : first.exchanges prepared [.version, .getHistory 0, .ping] =
      [refused, unsent] ++ x :: [] := rfl
  obtain ⟨data, taken, value⟩ : ∃ data, x.result = .ok data ∧ data.value = some "pong" :=
    exists_ok_of_value (by decide +kernel)
  obtain ⟨⟨e, -, payload, number⟩, stands, others⟩ := answer_of_run run taken
  exact ⟨refused, unsent, x, data, run, by decide +kernel, rfl, by decide +kernel, taken, value,
    stands, ⟨e, payload, number⟩, others (by decide) refused (.head _) rfl⟩

/-- An answer without a number is taken for the answer to the request, though nothing that the
daemon sends bears the number of the request. -/
theorem unnumberedPong_taken :
    (∃ data, (pinged unnumberedPong).result = .ok data ∧ data.value = some "pong") ∧
      ∀ line ∈ Text.byteLines (pinged unnumberedPong).reply, ∀ e,
        (Text.Utf8.decode? line).bind ResponseEnvelope.read? = some e →
          e.id ≠ (pinged unnumberedPong).id := by
  constructor
  · exact exists_ok_of_value (by decide +kernel)
  · intro line listed e read
    have others : ((Text.byteLines (pinged unnumberedPong).reply).all fun line =>
        ((Text.Utf8.decode? line).bind ResponseEnvelope.read?).all fun e =>
          e.id != (pinged unnumberedPong).id) = true := by
      decide +kernel
    have other := List.all_eq_true.mp others line listed
    rw [read] at other
    exact bne_iff_ne.mp other

end Session

end ChassisCooling.Client
