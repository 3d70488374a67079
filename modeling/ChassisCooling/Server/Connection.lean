import ChassisCooling.Server.Service

/-! # Connections

A client's bytes arrive in chunks of any size. They are cut into lines, and each line is answered
by a line. A line that is too long or no text is answered by an error, and then the connection is
closed; an unfinished line at the end is dropped.
-/

namespace ChassisCooling.Server

open Calendar Control Wire

/-- The greatest size of a request line in bytes, its end included. -/
def maxLine : Nat := 8192

/-- The end of a line. -/
def lineFeed : UInt8 := 0x0A

/-- The bytes that are still to be read, in the chunks in which they arrive. -/
abbrev Incoming := List (List UInt8)

/-- The number of bytes that are still to be read. -/
def Incoming.size (chunks : Incoming) : Nat :=
  chunks.flatten.length

/-- What reading a line comes to. -/
inductive ReadLine where
  /-- The input ended; an unfinished line is dropped. -/
  | closed
  | tooLong
  /-- A line with its end, and what comes after it. -/
  | line (bytes : List UInt8) (rest : Incoming)

/-- The bytes up to the first line feed and including it, and those after it; without a line feed,
nothing. -/
def cutLine (bytes : List UInt8) : Option (List UInt8 × List UInt8) :=
  let line := bytes.takeWhile fun b => b != lineFeed
  match bytes.drop line.length with
  | [] => none
  | b :: rest => some (line ++ [b], rest)

/-- Reads a line of which some bytes are held, chunk by chunk. What of a chunk belongs to the line
has to fit together with what is held. -/
def readLine (limit : Nat) (held : List UInt8) : Incoming → ReadLine
  | [] => .closed
  | chunk :: rest =>
    match cutLine chunk with
    | some (line, after) =>
      if limit - held.length < line.length then .tooLong
      else .line (held ++ line) (after :: rest)
    | none =>
      if limit - held.length < chunk.length then .tooLong
      else readLine limit (held ++ chunk) rest

theorem cutLine_length {bytes line after : List UInt8} (h : cutLine bytes = some (line, after)) :
    after.length < bytes.length := by
  unfold cutLine at h
  simp only at h
  split at h
  · simp at h
  · rename_i b rest he
    simp only [Option.some.injEq, Prod.mk.injEq] at h
    have length := congrArg List.length he
    rw [List.length_drop, List.length_cons, h.2] at length
    omega

/-- What comes after a line is shorter than what the line was read from. -/
theorem readLine_size {limit : Nat} {held bytes : List UInt8} {chunks rest : Incoming}
    (h : readLine limit held chunks = .line bytes rest) : rest.size < chunks.size := by
  induction chunks generalizing held with
  | nil => simp [readLine] at h
  | cons chunk chunks ih =>
    unfold readLine at h
    split at h
    · rename_i line after hc
      split at h
      · simp at h
      · simp only [ReadLine.line.injEq] at h
        have := cutLine_length hc
        simp only [← h.2, Incoming.size, List.flatten_cons, List.length_append]
        omega
    · split at h
      · simp at h
      · have := ih h
        simp only [Incoming.size, List.flatten_cons, List.length_append] at this ⊢
        omega

/-- What became of a connection: the responses in order, the service afterwards, and whether it
broke on a request that has no answer. -/
structure Served (τ : Type) where
  responses : List ResponseEnvelope
  service : Service τ
  broken : Bool

/-- Answers the lines of a connection until it ends. -/
def serve {τ : Type} (s : Service τ) (chunks : Incoming) : Served τ :=
  match _h : readLine maxLine [] chunks with
  | .closed => ⟨[], s, false⟩
  | .tooLong => ⟨[⟨0, .error "Message too large"⟩], s, false⟩
  | .line bytes rest =>
    match Text.Utf8.decode? bytes with
    | none => ⟨[⟨0, .error "Invalid request encoding"⟩], s, false⟩
    | some line =>
      match s.answer line with
      | .error _ => ⟨[], s.crash, true⟩
      | .ok (response, s) =>
        let served := serve s rest
        { served with responses := response :: served.responses }
termination_by chunks.size
decreasing_by exact readLine_size ‹_›

/-- The bytes that answer a connection. -/
def written (responses : List ResponseEnvelope) : List UInt8 :=
  responses.flatMap fun r => Text.Utf8.encodeString r.line ++ [lineFeed]

end ChassisCooling.Server
