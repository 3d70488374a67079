import ChassisCooling.Calendar.Instant
import ChassisCooling.Text.Blank
import ChassisCooling.Text.Digit

/-! # Written times

Times are written in the form of RFC 3339, in UTC, with as many digits after the point as are
exact: none, three, six or nine. Reading is more liberal than writing: fields may be short, blanks
may stand around them, and any offset from UTC is accepted.
-/

namespace ChassisCooling.Calendar.Rfc3339

open Text

/-! ## Writing -/

/-- A year: four digits from 0 to 9999, elsewhere a sign and at least four digits. -/
def yearText (year : Int) : List Char :=
  if 0 ≤ year ∧ year ≤ 9999 then zeroPadded 4 year.toNat
  else (if year < 0 then '-' else '+') :: zeroPadded 4 year.natAbs

/-- The date of a time. -/
def dateText (t : Instant) : List Char :=
  let d := Date.ofDays (t.second / 86400)
  yearText d.year ++ '-' :: zeroPadded 2 d.month ++ '-' :: zeroPadded 2 d.day

/-- The hour, minute and second of a time; a leap second is the second 60. -/
def clockText (t : Instant) : List Char :=
  let s := (t.second % 86400).toNat
  zeroPadded 2 (s / 3600) ++ ':' :: zeroPadded 2 (s / 60 % 60) ++
    ':' :: zeroPadded 2 (s % 60 + t.nano / 1000000000)

/-- The part of a second, with the fewest of 0, 3, 6 or 9 digits that are exact. -/
def fractionText (t : Instant) : List Char :=
  let nano := t.nano % 1000000000
  if nano = 0 then []
  else if nano % 1000000 = 0 then '.' :: zeroPadded 3 (nano / 1000000)
  else if nano % 1000 = 0 then '.' :: zeroPadded 6 (nano / 1000)
  else '.' :: zeroPadded 9 nano

/-- A time without its offset from UTC. -/
def plainText (t : Instant) : List Char :=
  dateText t ++ 'T' :: clockText t ++ fractionText t

/-- A time as documents hold it. -/
def text (t : Instant) : String :=
  String.ofList (plainText t ++ ['Z'])

/-- A time with its offset from UTC in digits. -/
def textWithOffset (t : Instant) : String :=
  String.ofList (plainText t ++ ['+', '0', '0', ':', '0', '0'])

/-! ## Reading -/

/-- A reader of the front of a text: its result and the rest. -/
abbrev Scan := StateT (List Char) Option

/-- Skips blanks. -/
def blanks : Scan Unit :=
  fun text => some ((), trimStart text)

/-- One given character. -/
def literal (c : Char) : Scan Unit
  | d :: rest => if c = d then some ((), rest) else none
  | [] => none

/-- Takes the digits at the front of a text, at most `most` of them. -/
def takeDigits : Nat → List Char → List Char × List Char
  | 0, text => ([], text)
  | _ + 1, [] => ([], [])
  | most + 1, c :: rest =>
    if c.isDigit then
      let (ds, rest) := takeDigits most rest
      (c :: ds, rest)
    else ([], c :: rest)

/-- A number of 1 to `most` digits. -/
def number (most : Nat) : Scan Nat := fun text =>
  match takeDigits most text with
  | ([], _) => none
  | (ds, rest) => some (digitsValue ds, rest)

/-- A number of one or two digits in a range, after blanks. -/
def twoDigits (low high : Nat) : Scan Nat := do
  blanks
  let n ← number 2
  if low ≤ n ∧ n ≤ high then pure n else failure

/-- A year after blanks: up to four digits, or a sign and any number of digits. -/
def year : Scan Int := do
  blanks
  fun text => match text with
    | '-' :: rest => (number rest.length rest).map fun (n, rest) => (-(n : Int), rest)
    | '+' :: rest => (number rest.length rest).map fun (n, rest) => ((n : Int), rest)
    | text => (number 4 text).map fun (n, rest) => ((n : Int), rest)

/-- The sign between two fields, after blanks. -/
def separator (c : Char) : Scan Unit := do
  blanks
  literal c

/-- The letter T or a blank between date and clock. -/
def dateEnd : Scan Unit
  | 't' :: rest | 'T' :: rest | ' ' :: rest => some ((), rest)
  | _ => none

/-- The nanoseconds that digits after the point write; those after the ninth are dropped. -/
def fraction : Scan Nat
  | '.' :: rest =>
    match takeDigits 9 rest with
    | ([], _) => none
    | (ds, rest) =>
      some (digitsValue ds * Nat.pow 10 (9 - ds.length), rest.dropWhile Char.isDigit)
  | text => some (0, text)

/-- Two digits with the first at most `first`. -/
def digitPair (first : Nat) : Scan Nat
  | a :: b :: rest =>
    let high := a.toNat - '0'.toNat
    if a.isDigit ∧ b.isDigit ∧ high ≤ first then
      some (high * 10 + (b.toNat - '0'.toNat), rest)
    else none
  | _ => none

/-- Hours and minutes of an offset, in seconds; colons and blanks may stand between them. -/
def offsetSize : Scan Int := do
  let hours ← digitPair 9
  modify fun text => text.dropWhile fun c => c == ':' || isBlank c
  let minutes ← digitPair 5
  let seconds := hours * 3600 + minutes * 60
  if seconds < 86400 then pure seconds else failure

/-- The offset from UTC in seconds: a letter Z, the letters UTC, or a signed size. -/
def offset : Scan Int := fun text =>
  if (text.take 3).map lowerAscii = ['u', 't', 'c'] then some (0, text.drop 3)
  else match text with
    | 'z' :: rest | 'Z' :: rest => some (0, rest)
    | '+' :: rest => offsetSize rest
    | '-' :: rest | '−' :: rest => (offsetSize rest).map fun (n, rest) => (-n, rest)
    | _ => none

/-- A time of some offset. The second 60 is a leap second in the second before it. -/
def instant : Scan Instant := do
  let y ← year
  separator '-'
  let month ← twoDigits 1 12
  separator '-'
  let day ← twoDigits 1 31
  dateEnd
  let hour ← twoDigits 0 23
  separator ':'
  let minute ← twoDigits 0 59
  separator ':'
  let second ← twoDigits 0 60
  let nano ← fraction
  blanks
  let off ← offset
  let d : Date := ⟨y, month, day⟩
  if d.isValid ∧ Date.inCalendar y then
    let clock : Nat := hour * 3600 + minute * 60 + (if second = 60 then 59 else second)
    let utc := d.toDays * 86400 + clock - off
    let nano := (if second = 60 then 1000000000 else 0) + nano
    if h : nano < 2000000000 then
      if Instant.inCalendar utc then pure ⟨utc, nano, h⟩ else failure
    else failure
  else failure

/-- The time that a text writes, with blanks after it at most. -/
def read? (text : String) : Option Instant :=
  match instant text.toList with
  | some (t, rest) => if rest.all isBlank then some t else none
  | none => none

end ChassisCooling.Calendar.Rfc3339
