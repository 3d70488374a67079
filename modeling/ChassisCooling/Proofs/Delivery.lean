import Mathlib.Algebra.GroupWithZero.Nat
import ChassisCooling.Proofs.Framing

/-! # Requests that arrive

A request that passes the checks fits on a line: its texts are short, and an escape is at most six
times as long as the character that it stands for. So the line arrives as one line, and what it is
answered is what the service does for the request.
-/

namespace ChassisCooling

open Text Wire

/-! ## How long documents are -/

namespace Text.Utf8

theorem length_encode_ascii {text : List Char} (ascii : ∀ c ∈ text, c.val.toNat < 0x80) :
    (encode text).length = text.length := by
  induction text with
  | nil => rfl
  | cons c text ih =>
    obtain ⟨first, later⟩ := List.forall_mem_cons.mp ascii
    have one : (String.utf8EncodeChar c).length = 1 := by
      rw [String.utf8EncodeChar, if_pos (Nat.le_of_lt_succ first)]
      rfl
    rw [encode_cons, List.length_append, one, ih later, List.length_cons, Nat.add_comm]

theorem length_utf8EncodeChar_pos (c : Char) : 0 < (String.utf8EncodeChar c).length := by
  rw [String.length_utf8EncodeChar]
  exact c.utf8Size_pos

end Text.Utf8

namespace Json

open Text.Utf8

theorem length_encode_escape_le (c : Char) :
    (encode (escape c)).length ≤ 6 * (String.utf8EncodeChar c).length := by
  have positive := length_utf8EncodeChar_pos c
  have short : ∀ {text : List Char}, text.all (·.val.toNat < 0x80) = true → text.length ≤ 6 →
      (encode text).length ≤ 6 * (String.utf8EncodeChar c).length := by
    intro text ascii six
    rw [length_encode_ascii fun c among => of_decide_eq_true (List.all_eq_true.mp ascii c among)]
    omega
  unfold escape
  split
  case h_8 =>
    split
    · next control =>
      refine short ?_ (Nat.le_refl 6)
      have digit : ∀ d : Fin 16, d.val.digitChar.val.toNat < 0x80 := by decide
      have upper := digit ⟨c.toNat / 16 % 16, by omega⟩
      have lower := digit ⟨c.toNat % 16, by omega⟩
      simp only [hexPair, List.all_cons, upper, lower, decide_true, Bool.true_and]
      decide
    · rw [encode_cons, encode_nil, List.append_nil]
      omega
  all_goals exact short (by decide) (by decide)

theorem length_encode_quote_le (text : List Char) :
    (encode (quote text)).length ≤ 6 * (encode text).length + 2 := by
  have escapes : (encode (text.flatMap escape)).length ≤ 6 * (encode text).length := by
    induction text with
    | nil => exact Nat.le_refl 0
    | cons c text ih =>
      have first := length_encode_escape_le c
      rw [List.flatMap_cons, encode_append, encode_cons, List.length_append, List.length_append]
      omega
  have ends : (encode ['"']).length = 1 := rfl
  have whole : (encode (quote text)).length =
      (encode ['"']).length + (encode (text.flatMap escape)).length + (encode ['"']).length := by
    rw [← List.length_append, ← List.length_append, ← encode_append, ← encode_append]
    rfl
  omega

theorem length_str_le (text : String) :
    (encode (str text).compact).length ≤ 6 * byteSize text + 2 :=
  length_encode_quote_le text.toList

theorem Numeral.ascii_of_isPart {c : Char} (part : Numeral.isPart c = true) :
    c.val.toNat < 0x80 := by
  simp only [Numeral.isPart, Char.isDigit, Bool.or_eq_true, Bool.and_eq_true, decide_eq_true_eq,
    beq_iff_eq] at part
  obtain (((((⟨-, digit⟩ | rfl) | rfl) | rfl) | rfl) | rfl) := part
  · exact Nat.lt_of_le_of_lt (UInt32.le_iff_toNat_le.mp digit) (by decide)
  all_goals decide

/-- A whole number of 64 bits takes at most twenty characters. -/
theorem length_int_le {n : Int} (low : -9223372036854775808 ≤ n) (high : n < 18446744073709551616) :
    (encode (int n).compact).length ≤ 20 := by
  have text : (int n).compact = (if n < 0 then ['-'] else []) ++ digits n.natAbs := by
    rw [int, compact, Numeral.text, Numeral.ofInt]
    simp [Numeral.exponentText]
  have ascii : ∀ c ∈ (int n).compact, c.val.toNat < 0x80 := fun c among =>
    Numeral.ascii_of_isPart ((Numeral.isWritten_ofInt n).isPart among)
  rw [length_encode_ascii ascii, text, List.length_append]
  split
  · have short : (digits n.natAbs).length ≤ 19 :=
      (Nat.length_toDigits_le_iff (by decide) (by decide)).mpr (by omega)
    rw [List.length_singleton]
    omega
  · have short : (digits n.natAbs).length ≤ 20 :=
      (Nat.length_toDigits_le_iff (by decide) (by decide)).mpr (by omega)
    rw [List.length_nil]
    omega

theorem length_uint64_le (n : UInt64) : (encode (uint64 n).compact).length ≤ 20 := by
  have bound := n.toNat_lt
  exact length_int_le (by omega) (by omega)

theorem length_int64_le (n : Int64) : (encode (int64 n).compact).length ≤ 20 := by
  have low := n.le_toInt
  have high := n.toInt_lt
  exact length_int_le (by omega) (by omega)

/-- Members are as long as their keys and values, with two characters for each. -/
theorem length_compactMembers_le (members : List (Option String × Json)) :
    (encode (compactMembers members)).length ≤
      (members.map fun m => 6 * byteSize (m.1.getD "") + 4 + (encode m.2.compact).length).sum := by
  induction members with
  | nil => exact Nat.le_refl 0
  | cons m members ih =>
    obtain ⟨key, value⟩ := m
    have name : (encode (quoteText key)).length ≤ 6 * byteSize (key.getD "") + 2 :=
      length_encode_quote_le _
    have mark : ∀ rest : List Char, (encode (':' :: rest)).length = 1 + (encode rest).length ∧
        (encode (',' :: rest)).length = 1 + (encode rest).length := fun rest =>
      ⟨by rw [encode_cons, List.length_append]; rfl, by rw [encode_cons, List.length_append]; rfl⟩
    rw [List.map_cons, List.sum_cons]
    cases members with
    | nil =>
      rw [compactMembers, encode_append, List.length_append, (mark _).1]
      simp only
      omega
    | cons next members =>
      rw [compactMembers, List.append_assoc, encode_append, List.length_append, List.cons_append,
        (mark _).1, encode_append, List.length_append, (mark _).2]
      · simp only
        omega
      · exact List.cons_ne_nil _ _

/-- An object is as long as its members, with two characters around them and two for each. -/
theorem length_obj_le (members : List (String × Json)) : (encode (obj members).compact).length ≤
    2 + (members.map fun m => 6 * byteSize m.1 + 4 + (encode m.2.compact).length).sum := by
  have inside := length_compactMembers_le (members.map fun m => (some m.1, m.2))
  rw [List.map_map] at inside
  have named : obj members = .object (members.map fun m => (some m.1, m.2)) := rfl
  have braces : ∀ text : List Char, (encode ('{' :: text ++ ['}'])).length =
      1 + (encode text).length + 1 := by
    intro text
    rw [encode_append, List.length_append, encode_cons, List.length_append]
    rfl
  rw [named, compact, braces]
  change _ ≤ (members.map fun m => 6 * byteSize m.1 + 4 + (encode m.2.compact).length).sum at inside
  omega

end Json

namespace Wire

theorem byteSize_le_of_checkLabel {field value : String} {required : Bool}
    (checked : checkLabel field value required = .ok ()) : byteSize value ≤ maxLabelSize := by
  rw [checkLabel] at checked
  split at checked
  · cases checked
  split at checked
  · cases checked
  · next short => exact Nat.le_of_not_lt short

theorem byteSize_le_of_checkReason {reason : String} (checked : checkReason reason = .ok ()) :
    byteSize reason ≤ maxReasonSize := by
  rw [checkReason] at checked
  split at checked
  · cases checked
  · next short => exact Nat.le_of_not_lt short

theorem length_label_le {field value : String} {required : Bool}
    (checked : checkLabel field value required = .ok ()) :
    (Text.Utf8.encode (Json.str value).compact).length ≤ 770 := by
  have text := Json.length_str_le value
  have short := byteSize_le_of_checkLabel checked
  rw [maxLabelSize] at short
  omega

/-- The arguments of a checked request are short. -/
theorem length_data_le {request : Request} (checked : request.check = .ok ()) {data : Json}
    (given : data ∈ request.data?) : (Text.Utf8.encode data.compact).length ≤ 4000 := by
  have keys : byteSize "duration" = 8 ∧ byteSize "type" = 4 ∧ byteSize "action" = 6 ∧
      byteSize "intensity" = 9 ∧ byteSize "duration_estimate" = 17 ∧ byteSize "source" = 6 ∧
      byteSize "speed" = 5 ∧ byteSize "reason" = 6 := ⟨rfl, rfl, rfl, rfl, rfl, rfl, rfl, rfl⟩
  cases request with
  | ping | version | getStatus | clearOverride | getConfig => cases given
  | getHistory duration =>
    obtain rfl := Option.some.inj given
    have number := Json.length_uint64_le duration
    refine Nat.le_trans (Json.length_obj_le _) ?_
    simp only [List.map_cons, List.map_nil, List.sum_cons, List.sum_nil]
    omega
  | addHint kind action intensity duration source =>
    obtain rfl := Option.some.inj given
    obtain ⟨kindFits, actionFits, sourceFits, intensityFits, -⟩ := check_addHint_iff.mp checked
    have kindText := length_label_le kindFits
    have actionText := length_label_le actionFits
    have sourceText := length_label_le sourceFits
    have intensityText := length_label_le intensityFits
    have number := Json.length_int64_le duration
    refine Nat.le_trans (Json.length_obj_le _) ?_
    simp only [List.map_cons, List.map_nil, List.sum_cons, List.sum_nil]
    omega
  | removeHint source =>
    obtain rfl := Option.some.inj given
    have sourceText := length_label_le checked
    refine Nat.le_trans (Json.length_obj_le _) ?_
    simp only [List.map_cons, List.map_nil, List.sum_cons, List.sum_nil]
    omega
  | setOverride speed duration reason =>
    obtain rfl := Option.some.inj given
    have reasonText := Json.length_str_le reason
    have short := byteSize_le_of_checkReason (check_setOverride_iff.mp checked).2.2
    have speedNumber := Json.length_int64_le speed
    have durationNumber := Json.length_int64_le duration
    rw [maxReasonSize] at short
    refine Nat.le_trans (Json.length_obj_le _) ?_
    simp only [List.map_cons, List.map_nil, List.sum_cons, List.sum_nil]
    omega

theorem byteSize_name_le (request : Request) : byteSize request.name ≤ 13 := by
  cases request <;> (rw [Request.name]; decide)

namespace RequestEnvelope

/-- The line of a checked request fits with its end. -/
theorem byteSize_line_lt {e : RequestEnvelope} (checked : e.request.check = .ok ()) :
    byteSize e.line < Server.maxLine := by
  have keys : byteSize "id" = 2 ∧ byteSize "cmd" = 3 ∧ byteSize "data" = 4 := ⟨rfl, rfl, rfl⟩
  have number := Json.length_uint64_le e.id
  have command := Json.length_str_le e.request.name
  have name := byteSize_name_le e.request
  have whole : byteSize e.line = (Text.Utf8.encode e.toJson.compact).length := by
    rw [byteSize, Text.Utf8.encodeString, toList_line]
  rw [whole, Server.maxLine]
  refine Nat.lt_of_le_of_lt (Json.length_obj_le _) ?_
  cases given : e.request.data? with
  | none =>
    simp only [Json.optional, List.append_nil, List.map_cons, List.map_nil, List.sum_cons,
      List.sum_nil]
    omega
  | some data =>
    have arguments := length_data_le checked given
    simp only [Json.optional, List.cons_append, List.nil_append, List.map_cons, List.map_nil,
      List.sum_cons, List.sum_nil]
    omega

theorem lineFeed_not_mem_line (e : RequestEnvelope) :
    Server.lineFeed ∉ Text.Utf8.encodeString e.line :=
  Server.lineFeed_not_mem_compactString e.isMadeOf_toJson

end RequestEnvelope

end Wire

namespace Server

open Calendar Control

variable {τ : Type}

/-- The answer to a line on which a checked request stands. -/
theorem answer_line (s : Service τ) {e : RequestEnvelope} (checked : e.request.check = .ok ()) :
    s.answer (requestText e) = (s.perform e.request).map fun (response, s') =>
      (⟨e.id, response⟩, s') := by
  rw [Service.answer, read?_requestText]
  simp only [checked]
  cases s.perform e.request <;> rfl

/-- The line of a checked request is read off the connection in one piece. -/
theorem read_request {e : RequestEnvelope} (checked : e.request.check = .ok ()) {chunks : Incoming}
    {more : List UInt8}
    (sent : chunks.flatten = Text.Utf8.encodeString e.line ++ lineFeed :: more) :
    ∃ rest : Incoming, rest.flatten = more ∧
      readLine maxLine [] chunks = .line (Text.Utf8.encodeString e.line ++ [lineFeed]) rest ∧
      Text.Utf8.decode? (Text.Utf8.encodeString e.line ++ [lineFeed]) = some (requestText e) := by
  have fits := RequestEnvelope.byteSize_line_lt checked
  obtain ⟨long, -⟩ | ⟨-, rest, read, after⟩ :=
    readLine_of_line maxLine e.lineFeed_not_mem_line List.not_mem_nil sent (Nat.zero_le _)
  · exact absurd long (Nat.not_lt.mpr fits)
  · refine ⟨rest, after, read, ?_⟩
    rw [← Text.Utf8.decode?_encode, requestText, Text.Utf8.encode_append]
    rfl

/-- A checked request is read off the connection, and answered as the service performs it. -/
theorem serve_request (s : Service τ) {e : RequestEnvelope} (checked : e.request.check = .ok ())
    {chunks : Incoming} {more : List UInt8}
    (sent : chunks.flatten = Text.Utf8.encodeString e.line ++ lineFeed :: more) :
    ∃ rest : Incoming, rest.flatten = more ∧ serve s chunks = match s.perform e.request with
      | .error _ => ⟨[], s.crash, true⟩
      | .ok (response, s') =>
        { serve s' rest with responses := ⟨e.id, response⟩ :: (serve s' rest).responses } := by
  obtain ⟨rest, after, read, decoded⟩ := read_request checked sent
  refine ⟨rest, after, ?_⟩
  rw [serve_line read, decoded]
  simp only [answer_line s checked]
  cases s.perform e.request <;> rfl

/-- What a client sends is understood. The line of a request is read as the request, and the line of
a checked request arrives in one piece: it is answered under its own number by what the service does
for it, and by an error only where the history could not be read. -/
theorem sent_request_understood (e : RequestEnvelope) :
    RequestEnvelope.read? e.line.toList = some e ∧
    (e.request.check = .ok () →
      lineFeed ∉ Text.Utf8.encodeString e.line ∧ byteSize e.line + 1 ≤ maxLine ∧
      ∀ (s : Service τ) (chunks : Incoming) (more : List UInt8),
        chunks.flatten = Text.Utf8.encodeString e.line ++ lineFeed :: more →
        (∃ rest : Incoming, rest.flatten = more ∧ serve s chunks = match s.perform e.request with
          | .error _ => ⟨[], s.crash, true⟩
          | .ok (response, s') =>
            { serve s' rest with responses := ⟨e.id, response⟩ :: (serve s' rest).responses }) ∧
        ∀ message s', s.perform e.request = .ok (.error message, s') →
          message = s!"History query aborted: {s.machine.abortNote s.crashes}" ∨
            ∃ fault : Fault, message = s!"History query failed: {fault.message}") := by
  refine ⟨e.read?_line, fun checked => ⟨e.lineFeed_not_mem_line,
    RequestEnvelope.byteSize_line_lt checked, fun s chunks more sent => ?_⟩⟩
  refine ⟨serve_request s checked sent, fun message s' performed => ?_⟩
  obtain ⟨-, ⟨p, ok, -⟩ | aborted | ⟨fault, failed⟩⟩ := Service.perform_cases checked performed
  · cases ok
  · exact .inl (Response.error.inj aborted)
  · exact .inr ⟨fault, Response.error.inj failed⟩

/-- A source that is named by a quote is understood. -/
theorem quote_understood :
    let s := plainService (.ofMillis 1748764800000)
    let e : RequestEnvelope := ⟨7, .removeHint "\""⟩
    e.request.check = .ok () ∧
      (serve s [Text.Utf8.encodeString e.line, [lineFeed]]).responses.head?.map (·.id) =
        some 7 := by
  intro s e
  have checked : e.request.check = .ok () := rfl
  obtain ⟨-, -, all⟩ := (sent_request_understood (τ := Unit) e).2 checked
  obtain ⟨⟨rest, -, served⟩, -⟩ := all s [Text.Utf8.encodeString e.line, [lineFeed]] [] rfl
  rw [served]
  exact ⟨checked, rfl⟩

end Server

end ChassisCooling
