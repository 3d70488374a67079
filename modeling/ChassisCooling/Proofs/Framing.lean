import Mathlib.Data.List.TakeWhile
import ChassisCooling.Proofs.Answers
import ChassisCooling.Proofs.Utf8
import ChassisCooling.Server.Connection

/-! # Lines out of chunks

What a connection is answered depends on the bytes that arrive and not on the chunks in which they
arrive. A line is read from the chunks as it is cut from all their bytes together: what is held of
it is never longer than the limit, so the room that is left compares as the whole line does. From
that the connection is followed line by line.
-/

namespace ChassisCooling.Server

open Calendar Control Wire

/-! ## Cutting off a line -/

theorem cutLine_of_mem {text after : List UInt8} (inside : lineFeed ∉ text) :
    cutLine (text ++ lineFeed :: after) = some (text ++ [lineFeed], after) := by
  have taken : (text ++ lineFeed :: after).takeWhile (· != lineFeed) = text := by
    have before : ∀ b ∈ text, (b != lineFeed) = true := fun b among =>
      bne_iff_ne.mpr (ne_of_mem_of_not_mem among inside)
    rw [List.takeWhile_append_of_pos before, List.takeWhile_cons_of_neg (by simp), List.append_nil]
  simp only [cutLine, taken, List.drop_left]

theorem cutLine_of_not_mem {bytes : List UInt8} (inside : lineFeed ∉ bytes) :
    cutLine bytes = none := by
  have taken : bytes.takeWhile (· != lineFeed) = bytes :=
    List.takeWhile_eq_self_iff.mpr fun b among => bne_iff_ne.mpr (ne_of_mem_of_not_mem among inside)
  simp only [cutLine, taken, List.drop_length]

/-- Bytes have a line to cut off, or none. -/
theorem cutLine_cases (bytes : List UInt8) :
    (∃ text after, lineFeed ∉ text ∧ bytes = text ++ lineFeed :: after ∧
      cutLine bytes = some (text ++ [lineFeed], after)) ∨
    lineFeed ∉ bytes ∧ cutLine bytes = none := by
  by_cases ends : lineFeed ∈ bytes
  · obtain ⟨text, after, same, inside⟩ := List.eq_append_cons_of_mem ends
    exact .inl ⟨text, after, inside, same, by rw [same, cutLine_of_mem inside]⟩
  · exact .inr ⟨ends, cutLine_of_not_mem ends⟩

/-- There is one way to cut off a line. -/
theorem line_unique {text text' after after' : List UInt8} (inside : lineFeed ∉ text)
    (inside' : lineFeed ∉ text') (same : text ++ lineFeed :: after = text' ++ lineFeed :: after') :
    text = text' ∧ after = after' := by
  have cut := congrArg cutLine same
  rw [cutLine_of_mem inside, cutLine_of_mem inside'] at cut
  obtain ⟨line, rest⟩ := Prod.mk.inj (Option.some.inj cut)
  exact ⟨List.append_cancel_right line, rest⟩

/-- What comes before the end of a line is no longer than the line. -/
theorem length_le_line {part rest text after : List UInt8} (inside : lineFeed ∉ part)
    (same : part ++ rest = text ++ lineFeed :: after) : part.length ≤ text.length := by
  obtain ⟨between, line, -⟩ | ⟨beyond, line, end_⟩ := List.append_eq_append_iff.mp same
  · rw [line, List.length_append]
    exact Nat.le_add_right _ _
  · cases beyond with
    | nil => exact Nat.le_of_eq (congrArg List.length (line.trans (List.append_nil _)))
    | cons b beyond =>
      obtain ⟨rfl, -⟩ := List.cons.inj end_
      rw [line] at inside
      simp at inside

/-! ## Reading a line from chunks -/

section ReadLine

variable (limit : Nat) {held text after : List UInt8} {chunks : Incoming}

/-- A line is read if it fits with its end, wherever the chunks are cut. -/
theorem readLine_of_line (inside : lineFeed ∉ text) (clean : lineFeed ∉ held)
    (same : held ++ chunks.flatten = text ++ lineFeed :: after) (room : held.length ≤ limit) :
    limit < text.length + 1 ∧ readLine limit held chunks = .tooLong ∨
      text.length + 1 ≤ limit ∧ ∃ rest,
        readLine limit held chunks = .line (text ++ [lineFeed]) rest ∧ rest.flatten = after := by
  induction chunks generalizing held with
  | nil =>
    rw [List.flatten_nil, List.append_nil] at same
    rw [same] at clean
    simp at clean
  | cons chunk chunks ih =>
    rw [readLine]
    obtain ⟨part, later, partInside, found, cut⟩ | ⟨noEnd, cut⟩ := cutLine_cases chunk
    · have whole : (held ++ part) ++ lineFeed :: (later ++ chunks.flatten) =
          text ++ lineFeed :: after := by
        rw [← same, found]
        simp
      have held' : lineFeed ∉ held ++ part := by simp [clean, partInside]
      obtain ⟨line, rest⟩ := line_unique held' inside whole
      have length := congrArg List.length line
      rw [List.length_append] at length
      simp only [cut, List.length_append, List.length_singleton]
      split
      · next long => exact .inl ⟨by omega, rfl⟩
      · next fits =>
        exact .inr ⟨by omega, later :: chunks, by rw [← List.append_assoc, line], rest⟩
    · have whole : (held ++ chunk) ++ chunks.flatten = text ++ lineFeed :: after := by
        rw [List.append_assoc, ← List.flatten_cons, same]
      have held' : lineFeed ∉ held ++ chunk := by simp [clean, noEnd]
      have short := length_le_line held' whole
      rw [List.length_append] at short
      simp only [cut]
      split
      · next long => exact .inl ⟨by omega, rfl⟩
      · next fits => exact ih held' whole (by rw [List.length_append]; omega)

/-- Bytes without an end of a line are no line, and too much of them is too long. -/
theorem readLine_unfinished (held : List UInt8) (noEnd : lineFeed ∉ held ++ chunks.flatten)
    (room : held.length ≤ limit) : readLine limit held chunks =
      if limit < (held ++ chunks.flatten).length then .tooLong else .closed := by
  induction chunks generalizing held with
  | nil =>
    rw [List.flatten_nil, List.append_nil, if_neg (Nat.not_lt.mpr room)]
    rfl
  | cons chunk chunks ih =>
    rw [List.flatten_cons, ← List.append_assoc] at noEnd ⊢
    have chunkClean : lineFeed ∉ chunk := by
      intro among
      simp [among] at noEnd
    simp only [readLine, cutLine_of_not_mem chunkClean]
    split
    · next long => rw [if_pos (by simp only [List.length_append]; omega)]
    · next fits => exact ih _ noEnd (by rw [List.length_append]; omega)

end ReadLine

/-! ## Answering line by line -/

variable {τ : Type}

/-- The answers to texts one after another, up to the first that has none. -/
def Service.replies (s : Service τ) : List (List Char) → Served τ
  | [] => ⟨[], s, false⟩
  | text :: rest =>
    match s.answer text with
    | .error _ => ⟨[], s.crash, true⟩
    | .ok (response, s) =>
      let served := s.replies rest
      { served with responses := response :: served.responses }

/-- What is sent before a connection is closed, unless it is broken. -/
def Served.close (served : Served τ) (farewell : List ResponseEnvelope) : Served τ :=
  if served.broken then served
  else { served with responses := served.responses ++ farewell }

/-- The text of a line with its end, or why it is refused. -/
def lineText (line : List UInt8) : Except String (List Char) :=
  if maxLine < line.length then .error "Message too large"
  else match Text.Utf8.decode? line with
    | none => .error "Invalid request encoding"
    | some text => .ok text

/-- The texts of the lines before the first that is refused. -/
def readable : List (List UInt8) → List (List Char)
  | [] => []
  | line :: rest =>
    match lineText line with
    | .error _ => []
    | .ok text => text :: readable rest

/-- The answer to the first line that is refused, or else to a tail that is too long for a line. -/
def farewell (tail : List UInt8) : List (List UInt8) → List ResponseEnvelope
  | [] => if maxLine < tail.length then [⟨0, .error "Message too large"⟩] else []
  | line :: rest =>
    match lineText line with
    | .error message => [⟨0, .error message⟩]
    | .ok _ => farewell tail rest

/-- The lines in some bytes, with their ends. -/
def linesOf (bytes : List UInt8) : List (List UInt8) :=
  (bytes.splitOn lineFeed).dropLast.map (· ++ [lineFeed])

/-- The bytes after the end of the last line. -/
def tailOf (bytes : List UInt8) : List UInt8 :=
  (bytes.splitOn lineFeed).getLast (List.splitOn_ne_nil lineFeed bytes)

theorem linesOf_unfinished {bytes : List UInt8} (noEnd : lineFeed ∉ bytes) :
    linesOf bytes = [] ∧ tailOf bytes = bytes := by
  simp [linesOf, tailOf, List.splitOn_eq_singleton noEnd]

theorem linesOf_line {text : List UInt8} (inside : lineFeed ∉ text) (after : List UInt8) :
    linesOf (text ++ lineFeed :: after) = (text ++ [lineFeed]) :: linesOf after ∧
      tailOf (text ++ lineFeed :: after) = tailOf after := by
  have parts := List.splitOn_append_cons_self_of_not_mem inside after
  have some := List.splitOn_ne_nil lineFeed after
  constructor
  · rw [linesOf, parts, List.dropLast_cons_of_ne_nil some, List.map_cons, linesOf]
  · simp only [tailOf, parts, List.getLast_cons some]

/-- The answers to a line and to what follows it. -/
theorem replies_cons (s : Service τ) (text : List Char) (rest : List (List Char))
    (last : List ResponseEnvelope) : (s.replies (text :: rest)).close last =
      match s.answer text with
      | .error _ => ⟨[], s.crash, true⟩
      | .ok (response, s) =>
        let served := (s.replies rest).close last
        { served with responses := response :: served.responses } := by
  rw [Service.replies]
  split
  · rfl
  · next response s' _ =>
    simp only [Served.close]
    split <;> rfl

section Serve

variable {s : Service τ} {chunks : Incoming}

theorem serve_closed (read : readLine maxLine [] chunks = .closed) :
    serve s chunks = ⟨[], s, false⟩ := by
  rw [serve]
  split
  · rfl
  · next other => rw [read] at other; cases other
  · next other => rw [read] at other; cases other

theorem serve_tooLong (read : readLine maxLine [] chunks = .tooLong) :
    serve s chunks = ⟨[⟨0, .error "Message too large"⟩], s, false⟩ := by
  rw [serve]
  split
  · next other => rw [read] at other; cases other
  · rfl
  · next other => rw [read] at other; cases other

theorem serve_line {bytes : List UInt8} {rest : Incoming}
    (read : readLine maxLine [] chunks = .line bytes rest) : serve s chunks =
      match Text.Utf8.decode? bytes with
      | none => ⟨[⟨0, .error "Invalid request encoding"⟩], s, false⟩
      | some line =>
        match s.answer line with
        | .error _ => ⟨[], s.crash, true⟩
        | .ok (response, s) =>
          let served := serve s rest
          { served with responses := response :: served.responses } := by
  rw [serve]
  split
  · next other => rw [read] at other; cases other
  · next other => rw [read] at other; cases other
  · next other =>
    rw [read] at other
    cases other
    rfl

end Serve

/-- A connection is answered as the lines in all its bytes are, however the bytes are cut into
chunks. -/
theorem serve_eq (s : Service τ) (chunks : Incoming) : serve s chunks =
    (s.replies (readable (linesOf chunks.flatten))).close
      (farewell (tailOf chunks.flatten) (linesOf chunks.flatten)) := by
  induction bytes : chunks.size using Nat.strongRecOn generalizing s chunks with
  | ind size ih =>
    by_cases ends : lineFeed ∈ chunks.flatten
    · obtain ⟨text, after, same, inside⟩ := List.eq_append_cons_of_mem ends
      obtain ⟨lines, tail⟩ := linesOf_line inside after
      rw [same, lines, tail]
      obtain ⟨long, read⟩ | ⟨fits, rest, read, later⟩ :=
        readLine_of_line maxLine inside List.not_mem_nil same (Nat.zero_le _)
      · have refused : lineText (text ++ [lineFeed]) = .error "Message too large" :=
          if_pos (by rwa [List.length_append])
        rw [serve_tooLong read]
        simp only [readable, farewell, refused]
        rfl
      · have smaller : rest.size < size := bytes ▸ readLine_size read
        rw [serve_line read]
        cases decoded : Text.Utf8.decode? (text ++ [lineFeed]) with
        | none =>
          have refused : lineText (text ++ [lineFeed]) = .error "Invalid request encoding" := by
            rw [lineText, if_neg (by rw [List.length_append]; exact Nat.not_lt.mpr fits), decoded]
          simp only [readable, farewell, refused]
          rfl
        | some line =>
          have taken : lineText (text ++ [lineFeed]) = .ok line := by
            rw [lineText, if_neg (by rw [List.length_append]; exact Nat.not_lt.mpr fits), decoded]
          simp only [readable, farewell, taken, replies_cons]
          rw [← later]
          split
          · rfl
          · rw [ih _ smaller _ rest rfl]
    · obtain ⟨lines, tail⟩ := linesOf_unfinished ends
      have read := readLine_unfinished maxLine [] ends (Nat.zero_le _)
      rw [lines, tail]
      simp only [readable, farewell, Service.replies, Served.close, Bool.false_eq_true, ↓reduceIte,
        List.nil_append] at read ⊢
      split
      · next long =>
        rw [if_pos long] at read
        rw [serve_tooLong read]
      · next fits =>
        rw [if_neg fits] at read
        rw [serve_closed read]

/-! ## Lines of responses -/

/-- The lines of responses end where their responses do. -/
theorem splitOn_written {responses : List ResponseEnvelope}
    (single : ∀ r ∈ responses, lineFeed ∉ Text.Utf8.encodeString r.line) :
    (written responses).splitOn lineFeed =
      responses.map (fun r => Text.Utf8.encodeString r.line) ++ [[]] := by
  induction responses with
  | nil => rfl
  | cons r responses ih =>
    obtain ⟨first, later⟩ := List.forall_mem_cons.mp single
    have cons : written (r :: responses) =
        Text.Utf8.encodeString r.line ++ lineFeed :: written responses := by
      rw [written, List.flatMap_cons, List.append_assoc, List.singleton_append]
      rfl
    rw [cons, List.splitOn_append_cons_self_of_not_mem first, ih later]
    rfl

/-- What is made of texts and of plain numbers is written on one line. -/
theorem lineFeed_not_mem_compactString {j : Json} (made : j.IsMadeOf Json.Numeral.IsPlain) :
    lineFeed ∉ Text.Utf8.encodeString j.compactString := by
  have inside : '\n' ∉ j.compactString.toList := by
    rw [Json.compactString, String.toList_ofList]
    exact Json.lineFeed_not_mem_compact made
  exact fun among => inside ((Text.Utf8.mem_encode_iff (c := '\n') (by decide) _).mp among)

section Made

variable {form : Json.Numeral → Prop} [Json.CoversInts form] [Json.CoversDoubles form]

theorem isMadeOf_error (id : UInt64) (message : String) :
    (ResponseEnvelope.toJson ⟨id, .error message⟩).IsMadeOf form :=
  ResponseEnvelope.isMadeOf_toJson fun p same => by cases same

theorem isMadeOf_replies (s : Service τ) (texts : List (List Char)) :
    ∀ r ∈ (s.replies texts).responses, r.toJson.IsMadeOf form := by
  induction texts generalizing s with
  | nil => exact List.forall_mem_nil _
  | cons text texts ih =>
    rw [Service.replies]
    split
    · exact List.forall_mem_nil _
    · next response s' answered =>
      exact List.forall_mem_cons.mpr ⟨Service.isMadeOf_of_answer answered, ih s'⟩

theorem isMadeOf_farewell (tail : List UInt8) (lines : List (List UInt8)) :
    ∀ r ∈ farewell tail lines, r.toJson.IsMadeOf form := by
  induction lines with
  | nil =>
    rw [farewell]
    split
    · exact List.forall_mem_singleton.mpr (isMadeOf_error 0 _)
    · exact List.forall_mem_nil _
  | cons line lines ih =>
    rw [farewell]
    split
    · exact List.forall_mem_singleton.mpr (isMadeOf_error 0 _)
    · exact ih

theorem isMadeOf_serve (s : Service τ) (chunks : Incoming) :
    ∀ r ∈ (serve s chunks).responses, r.toJson.IsMadeOf form := by
  rw [serve_eq, Served.close]
  split
  · exact isMadeOf_replies s _
  · exact List.forall_mem_append.mpr ⟨isMadeOf_replies s _, isMadeOf_farewell _ _⟩

end Made

/-! ## Connections that do not break -/

/-- Texts are all answered exactly if none asks for something that needs a time beyond the
calendar. -/
theorem broken_replies_iff (s : Service τ) (texts : List (List Char)) :
    (s.replies texts).broken = false ↔
      ∀ text ∈ texts, ∀ e, Service.Asks text e → s.machine.CanAnswer e.request := by
  induction texts generalizing s with
  | nil => exact iff_of_true rfl (List.forall_mem_nil _)
  | cons text texts ih =>
    rw [List.forall_mem_cons, ← s.answer_ok_iff text, Service.replies]
    cases answered : s.answer text with
    | error =>
      refine iff_of_false nofun fun ⟨⟨_, same⟩, _⟩ => ?_
      cases same
    | ok reply =>
      obtain ⟨response, s'⟩ := reply
      rw [← (Service.answer_cases answered).1]
      exact (ih s').trans (and_iff_right ⟨_, rfl⟩).symm

theorem length_replies {s : Service τ} {texts : List (List Char)}
    (whole : (s.replies texts).broken = false) :
    (s.replies texts).responses.length = texts.length := by
  induction texts generalizing s with
  | nil => rfl
  | cons text texts ih =>
    rw [Service.replies] at whole ⊢
    split at whole
    · cases whole
    · exact congrArg Nat.succ (ih whole)

/-- The line of a request as it is read off a connection. -/
def requestText (e : RequestEnvelope) : List Char :=
  e.line.toList ++ ['\n']

theorem read?_requestText (e : RequestEnvelope) :
    RequestEnvelope.read? (Text.trim (requestText e)) = some e := by
  rw [requestText, e.trim_line ['\n'] (List.forall_mem_singleton.mpr rfl), e.read?_line]

/-- Requests are answered in their order, each under its own number. -/
theorem ids_of_replies {s : Service τ} {requests : List RequestEnvelope}
    (whole : (s.replies (requests.map requestText)).broken = false) :
    (s.replies (requests.map requestText)).responses.map (·.id) = requests.map (·.id) := by
  induction requests generalizing s with
  | nil => rfl
  | cons e requests ih =>
    rw [List.map_cons, Service.replies] at whole ⊢
    split at whole
    · cases whole
    · next response s' answered =>
      rw [List.map_cons, List.map_cons, ih whole,
        Service.id_of_answer (read?_requestText e) answered]

/-- The lines of a connection are answered one by one in their order, each by one line, up to the
first that is too long or no text: that is answered by an error, as is a tail too long for a line,
and ends the connection. A shorter tail changes nothing, and the chunks do not matter. Only a request
that needs a time beyond the calendar can break the connection off, and while the clock shows a
common time only a window of the history that is longer than any span. -/
theorem connection_answered (s : Service τ) (chunks : Incoming) :
    let lines := linesOf chunks.flatten
    let last := farewell (tailOf chunks.flatten) lines
    let replies := s.replies (readable lines)
    serve s chunks = replies.close last ∧
    (written (serve s chunks).responses).splitOn lineFeed =
      (serve s chunks).responses.map (fun r => Text.Utf8.encodeString r.line) ++ [[]] ∧
    (∀ chunks' : Incoming, chunks'.flatten = chunks.flatten → serve s chunks' = serve s chunks) ∧
    (replies.broken = false ↔ ∀ text ∈ readable lines, ∀ e, Service.Asks text e →
      s.machine.CanAnswer e.request) ∧
    (replies.broken = false → replies.responses.length = (readable lines).length ∧
      serve s chunks = ⟨replies.responses ++ last, replies.service, false⟩) ∧
    ∀ now, s.machine.time = .ok now → now.IsCommon →
      (∀ text ∈ readable lines, ∀ id duration,
        RequestEnvelope.read? (Text.trim text) = some ⟨id, .getHistory duration⟩ →
          duration.toNat ≤ 9223372036854775) →
      replies.broken = false := by
  intro lines last replies
  refine ⟨serve_eq s chunks, splitOn_written fun r among => ?_, fun chunks' same => ?_,
    broken_replies_iff s _, fun whole => ⟨length_replies whole, ?_⟩, ?_⟩
  · exact lineFeed_not_mem_compactString (isMadeOf_serve s chunks r among)
  · rw [serve_eq, serve_eq s chunks, same]
  · rw [serve_eq, Served.close, if_neg (Bool.eq_false_iff.mp whole)]
    rw [whole]
  · intro now shown common short
    refine (broken_replies_iff s _).mpr fun text among => ?_
    exact (s.answer_ok_iff text).mp
      ((answer_ok_iff_of_common s shown common text).mpr (short text among))

/-- A ping and a query of the last hour. -/
def sampleRequests : List RequestEnvelope :=
  [⟨1, .ping⟩, ⟨2, .getHistory 3600⟩]

/-- The two requests and the beginning of a third line, in chunks that end in the middle of them. -/
def splitRequests : Incoming :=
  let bytes := Text.Utf8.encode (sampleRequests.flatMap requestText) ++ [0x7B]
  [bytes.take 10, (bytes.drop 10).take 40, bytes.drop 50]

theorem split_requests_answered :
    let s := plainService (.ofMillis 1748764800000)
    (serve s splitRequests).responses.map (·.id) = [1, 2] ∧
      (serve s splitRequests).broken = false := by
  intro s
  have common : (Instant.ofMillis 1748764800000).IsCommon := ⟨by decide, by decide, by decide⟩
  have texts : readable (linesOf splitRequests.flatten) = sampleRequests.map requestText := by
    decide +kernel
  have silent : farewell (tailOf splitRequests.flatten) (linesOf splitRequests.flatten) = [] :=
    List.isEmpty_iff.mp (by decide +kernel)
  obtain ⟨-, -, -, -, answered, whole⟩ := connection_answered s splitRequests
  rw [texts] at answered whole
  have short : ∀ text ∈ sampleRequests.map requestText, ∀ id duration,
      RequestEnvelope.read? (Text.trim text) = some ⟨id, .getHistory duration⟩ →
        duration.toNat ≤ 9223372036854775 := by
    intro text among id duration asked
    obtain ⟨e, listed, rfl⟩ := List.mem_map.mp among
    rw [Option.some.inj ((read?_requestText e).symm.trans asked)] at listed
    simp only [sampleRequests, List.mem_cons, RequestEnvelope.mk.injEq, reduceCtorEq, and_false,
      Request.getHistory.injEq, List.not_mem_nil, or_false, false_or] at listed
    rw [listed.2]
    decide
  have unbroken := whole _ rfl common short
  obtain ⟨-, served⟩ := answered unbroken
  have ids := ids_of_replies unbroken
  rw [served, silent]
  simp only [List.append_nil, ids, and_true]
  rfl

end ChassisCooling.Server
