import ChassisCooling.Calendar.Instant

/-! # Where the calendar ends

Spans of whole seconds, and times some whole seconds back from a time that a clock shows, exist
within plain bounds. All four digits of a year lie far inside the calendar.
-/

namespace ChassisCooling.Calendar

/-- A computation that comes to its end has come to the end of its first part. -/
theorem ok_of_bind {ε α β : Type} {part : Except ε α} {rest : α → Except ε β} {b : β}
    (ended : part >>= rest = .ok b) : ∃ a, part = .ok a ∧ rest a = .ok b := by
  cases part with
  | error e => cases ended
  | ok a => exact ⟨a, rfl, ended⟩

theorem ok_bind_iff {ε α β : Type} {part : Except ε α} {rest : α → Except ε β} {b : β} :
    part >>= rest = .ok b ↔ ∃ a, part = .ok a ∧ rest a = .ok b :=
  ⟨ok_of_bind, fun ⟨_, first, second⟩ => by rw [first]; exact second⟩

theorem exists_ok_bind_iff {ε α β : Type} {part : Except ε α} {rest : α → Except ε β} :
    (∃ b, part >>= rest = .ok b) ↔ ∃ a, part = .ok a ∧ ∃ b, rest a = .ok b := by
  simp only [ok_bind_iff]
  exact exists_comm.trans (exists_congr fun a => exists_and_left)

theorem exists_ok_pure {ε α : Type} (a : α) : ∃ b, (pure a : Except ε α) = .ok b :=
  ⟨a, rfl⟩

theorem ok_of_map {α β : Type} {part : Except OutOfCalendar α} {f : α → β} {b : β}
    (ended : f <$> part = .ok b) : ∃ a, part = .ok a ∧ f a = b := by
  cases part with
  | error e => cases ended
  | ok a => exact ⟨a, rfl, Except.ok.inj ended⟩

theorem ok_of_mapError {ε ε' α : Type} {part : Except ε α} {f : ε → ε'} {a : α}
    (ended : part.mapError f = .ok a) : part = .ok a := by
  cases part with
  | error e => cases ended
  | ok b => exact congrArg Except.ok (Except.ok.inj ended)

theorem Span.ofSeconds_iff (seconds : Int) :
    (∃ span, ofSeconds seconds = .ok span) ↔ -maxSeconds ≤ seconds ∧ seconds ≤ maxSeconds := by
  rw [ofSeconds]
  split
  · next inside => exact iff_of_true ⟨_, rfl⟩ inside
  · next outside => exact iff_of_false nofun outside

theorem Span.eq_of_ofSeconds {seconds : Int} {span : Span} (made : ofSeconds seconds = .ok span) :
    span = ⟨seconds * 1000000000⟩ := by
  rw [ofSeconds] at made
  split at made
  · exact (Except.ok.inj made).symm
  · cases made

namespace Instant

theorem eq_of_checked {t t' : Instant} (inside : t.checked = .ok t') : t' = t := by
  rw [checked] at inside
  split at inside
  · exact (Except.ok.inj inside).symm
  · cases inside

/-- The first second of the year 0. -/
def firstCommon : Int :=
  (⟨0, 1, 1⟩ : Date).toDays * 86400

/-- The last second of the year 9999. -/
def lastCommon : Int :=
  (⟨9999, 12, 31⟩ : Date).toDays * 86400 + 86399

/-- A time in the years 0 to 9999, as clocks show it. -/
structure IsCommon (t : Instant) : Prop where
  first : firstCommon ≤ t.second
  last : t.second ≤ lastCommon
  nano : t.nano < 1000000000

theorem bounds : firstSecond = -8334601228800 ∧ firstCommon = -62167219200 ∧
    lastCommon = 253402300799 ∧ lastSecond = 8210266876799 := by
  decide

/-- Whole seconds before a time that a clock shows lies a time if the calendar reaches there. -/
theorem sub_seconds_iff {t : Instant} (shown : t.nano < 1000000000) (seconds : Int) :
    (∃ earlier, t.sub ⟨seconds * 1000000000⟩ = .ok earlier) ↔
      firstSecond ≤ t.second - seconds ∧ t.second - seconds ≤ lastSecond := by
  have second : (ofNanos (t.nanos - seconds * 1000000000)).second = t.second - seconds := by
    simp only [ofNanos, nanos]
    omega
  simp only [sub, checked, second, inCalendar, Bool.and_eq_true, decide_eq_true_eq]
  split
  · next inside => exact iff_of_true ⟨_, rfl⟩ inside
  · next outside => exact iff_of_false nofun outside

/-- Whole seconds after a time that a clock shows lies a time if the calendar reaches there. -/
theorem add_seconds_iff {t : Instant} (shown : t.nano < 1000000000) (seconds : Int) :
    (∃ later, t.add ⟨seconds * 1000000000⟩ = .ok later) ↔
      firstSecond ≤ t.second + seconds ∧ t.second + seconds ≤ lastSecond := by
  have second : (ofNanos (t.nanos + seconds * 1000000000)).second = t.second + seconds := by
    simp only [ofNanos, nanos]
    omega
  simp only [add, checked, second, inCalendar, Bool.and_eq_true, decide_eq_true_eq]
  split
  · next inside => exact iff_of_true ⟨_, rfl⟩ inside
  · next outside => exact iff_of_false nofun outside

end Instant

end ChassisCooling.Calendar
