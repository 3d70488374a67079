import Mathlib.Logic.ExistsUnique
import ChassisCooling.Proofs.Fields
import ChassisCooling.Proofs.Numerals
import ChassisCooling.Settings.Environment

/-! # Settings in the environment

Every variable speaks for a field of its own, and for no other. What it says counts if its text can
be understood as a value of the field's kind; else the field stays as it is. So the order in which
environments are applied matters only where they speak for the same field.
-/

namespace ChassisCooling

namespace Text

variable {text ds : List Char} {n : Nat} {z : Int}

/-! ## Numbers as they are written -/

/-- A natural number is one or more digits 0 to 9, with or without a plus sign in front. -/
inductive WritesNatural : Nat → List Char → Prop
  | plain {ds : List Char} (filled : ds ≠ []) (digits : ∀ c ∈ ds, c.isDigit = true) :
    WritesNatural (digitsValue ds) ds
  | plus {ds : List Char} (filled : ds ≠ []) (digits : ∀ c ∈ ds, c.isDigit = true) :
    WritesNatural (digitsValue ds) ('+' :: ds)

/-- A whole number may also have a minus sign in front of the digits. -/
inductive WritesInteger : Int → List Char → Prop
  | natural {n : Nat} {text : List Char} (written : WritesNatural n text) : WritesInteger n text
  | minus {ds : List Char} (filled : ds ≠ []) (digits : ∀ c ∈ ds, c.isDigit = true) :
    WritesInteger (-(digitsValue ds : Int)) ('-' :: ds)

theorem readUnsigned?_eq_some_iff : readUnsigned? text = some n ↔ WritesNatural n text := by
  constructor
  · intro read
    rw [readUnsigned?.eq_def] at read
    split at read
    · obtain ⟨filled, digits, rfl⟩ := readDigits?_eq_some_iff.mp read
      exact .plus filled digits
    · obtain ⟨filled, digits, rfl⟩ := readDigits?_eq_some_iff.mp read
      exact .plain filled digits
  · rintro (⟨filled, digits⟩ | ⟨filled, digits⟩)
    · rw [readUnsigned?.eq_2]
      · exact readDigits?_eq_some_iff.mpr ⟨filled, digits, rfl⟩
      · rintro rest rfl
        cases digits _ (List.mem_cons_self ..)
    · exact readDigits?_eq_some_iff.mpr ⟨filled, digits, rfl⟩

theorem WritesNatural.head_ne_minus (written : WritesNatural n ('-' :: ds)) : False := by
  cases written with
  | plain _ digits => cases digits _ (List.mem_cons_self ..)

theorem readSigned?_eq_some_iff : readSigned? text = some z ↔ WritesInteger z text := by
  constructor
  · intro read
    rw [readSigned?.eq_def] at read
    split at read
    · next rest =>
      cases number : readDigits? rest with
      | none =>
        rw [number] at read
        cases read
      | some n =>
        obtain ⟨filled, digits, rfl⟩ := readDigits?_eq_some_iff.mp number
        rw [number] at read
        cases read
        exact .minus filled digits
    · cases number : readUnsigned? text with
      | none =>
        rw [number] at read
        cases read
      | some n =>
        rw [number] at read
        cases read
        exact .natural (readUnsigned?_eq_some_iff.mp number)
  · rintro (written | ⟨filled, digits⟩)
    · rw [readSigned?.eq_2, readUnsigned?_eq_some_iff.mpr written]
      · rfl
      · rintro rest rfl
        exact written.head_ne_minus
    · rw [readSigned?, readDigits?_eq_some_iff.mpr ⟨filled, digits, rfl⟩]
      rfl

end Text

namespace Settings

open Text

/-! ## What a variable says -/

/-- The variable that speaks for a field. -/
def Field.variableName? : Field → Option String
  | .host => some "IDRAC_HOST"
  | .username => some "IDRAC_USERNAME"
  | .password => some "IDRAC_PASSWORD"
  | .interval => some "CHECK_INTERVAL"
  | .gpuEnabled => some "GPU_ENABLED"
  | .minSpeed => some "FAN_MIN_SPEED"
  | .maxSpeed => some "FAN_MAX_SPEED"
  | .idleSpeed => some "FAN_IDLE_SPEED"
  | .cpuThreshold => some "FAN_CPU_THRESHOLD"
  | .gpuThreshold => some "FAN_GPU_THRESHOLD"
  | .stepSize => some "FAN_STEP_SIZE"
  | .cooldown => some "FAN_COOLDOWN_DELAY"
  | .socket => some "OFC_SOCKET"
  | .retention | .gpuTool | .zones | .historyPath | .logLevel => none

/-- The kinds of values, numbers by their range. -/
inductive Kind
  | text
  | truth
  | natural (high : Nat)
  | integer (low high : Int)
  | bands

/-- The kind of a field. -/
def Field.kind : Field → Kind
  | .host | .username | .password | .gpuTool | .socket | .historyPath | .logLevel => .text
  | .gpuEnabled => .truth
  | .minSpeed | .maxSpeed | .idleSpeed | .stepSize => .natural 255
  | .interval | .retention | .cooldown => .natural 18446744073709551615
  | .cpuThreshold | .gpuThreshold => .integer (-2147483648) 2147483647
  | .zones => .bands

/-- A text is understood as a value of a kind. Around a number there may be blanks. -/
inductive Kind.Reads : Kind → String → Value → Prop
  | text (raw : String) : Kind.Reads .text raw (.text raw)
  | truth (raw : String) : Kind.Reads .truth raw (.truth (raw = "true" ∨ raw = "1"))
  | natural {high n : Nat} {raw : String} (written : WritesNatural n (trim raw.toList))
    (fits : n ≤ high) : Kind.Reads (.natural high) raw (.number n)
  | integer {low high n : Int} {raw : String} (written : WritesInteger n (trim raw.toList))
    (reaches : low ≤ n) (fits : n ≤ high) : Kind.Reads (.integer low high) raw (.number n)

/-- The value that a text is understood as. -/
def Kind.read? : Kind → String → Option Value
  | .text, raw => some (.text raw)
  | .truth, raw => some (.truth (raw == "true" || raw == "1"))
  | .natural high, raw => (Environment.readUnsigned? high raw).map fun n : Nat => .number n
  | .integer low high, raw => (Environment.readSigned? low high raw).map .number
  | .bands, _ => none

variable {s : Settings} {e e₁ e₂ : Environment} {f : Field} {v : Value} {raw : String}

theorem Kind.read?_eq_some_iff {kind : Kind} : kind.read? raw = some v ↔ kind.Reads raw v := by
  cases kind with
  | text =>
    rw [read?, Option.some.injEq]
    constructor
    · rintro rfl
      exact .text raw
    · rintro ⟨⟩
      rfl
  | truth =>
    have same : (raw == "true" || raw == "1") = decide (raw = "true" ∨ raw = "1") := by
      rw [Bool.eq_iff_iff, Bool.or_eq_true, beq_iff_eq, beq_iff_eq, decide_eq_true_iff]
    rw [read?, Option.some.injEq, same]
    constructor
    · rintro rfl
      exact .truth raw
    · rintro ⟨⟩
      rfl
  | natural high =>
    rw [read?, Option.map_eq_some_iff]
    simp only [Environment.readUnsigned?, Option.filter_eq_some_iff, decide_eq_true_eq,
      readUnsigned?_eq_some_iff]
    constructor
    · rintro ⟨n, ⟨written, fits⟩, rfl⟩
      exact .natural written fits
    · intro reads
      cases reads with
      | natural written fits => exact ⟨_, ⟨written, fits⟩, rfl⟩
  | integer low high =>
    rw [read?, Option.map_eq_some_iff]
    simp only [Environment.readSigned?, Option.filter_eq_some_iff, decide_eq_true_eq,
      readSigned?_eq_some_iff]
    constructor
    · rintro ⟨n, ⟨written, reaches, fits⟩, rfl⟩
      exact .integer written reaches fits
    · intro reads
      cases reads with
      | integer written reaches fits => exact ⟨_, ⟨written, reaches, fits⟩, rfl⟩
  | bands =>
    constructor
    · intro read
      cases read
    · intro reads
      cases reads

/-- An environment says a value for a field: the text of the field's variable is understood so. -/
def Says (e : Environment) (f : Field) (v : Value) : Prop :=
  ∃ name raw, f.variableName? = some name ∧ e name = some raw ∧ f.kind.Reads raw v

/-- The value that an environment says for a field. -/
def said? (e : Environment) (f : Field) : Option Value :=
  (f.variableName?.bind e).bind f.kind.read?

theorem said?_eq_some_iff : said? e f = some v ↔ Says e f v := by
  simp only [said?, Option.bind_eq_some_iff, Kind.read?_eq_some_iff, Says]
  constructor
  · rintro ⟨raw, ⟨name, speaks, given⟩, reads⟩
    exact ⟨name, raw, speaks, given, reads⟩
  · rintro ⟨name, raw, speaks, given, reads⟩
    exact ⟨raw, ⟨name, speaks, given⟩, reads⟩

theorem said?_eq_none_iff : said? e f = none ↔ ¬ ∃ v, Says e f v := by
  simp only [← said?_eq_some_iff, ← Option.isSome_iff_exists, Option.not_isSome_iff_eq_none]

/-! ## One field -/

theorem Value.text_of_variable (e : Environment) (name value : String) :
    Value.text (e.text name value) = ((e name).bind Kind.text.read?).getD (.text value) := by
  rw [Environment.text]
  cases e name <;> rfl

theorem Value.truth_of_variable (e : Environment) (name : String) (value : Bool) :
    Value.truth (e.truth name value) = ((e name).bind Kind.truth.read?).getD (.truth value) := by
  rw [Environment.truth]
  cases e name <;> rfl

theorem readUnsigned?_le {high n : Nat} (read : Environment.readUnsigned? high raw = some n) :
    n ≤ high :=
  of_decide_eq_true (Option.filter_eq_some_iff.mp read).2

theorem readSigned?_bounds {low high n : Int}
    (read : Environment.readSigned? low high raw = some n) : low ≤ n ∧ n ≤ high :=
  of_decide_eq_true (Option.filter_eq_some_iff.mp read).2

theorem Value.uint8_of_variable (e : Environment) (name : String) (value : UInt8) :
    Value.number (e.uint8 name value).toNat =
      ((e name).bind (Kind.natural 255).read?).getD (.number value.toNat) := by
  rw [Environment.uint8]
  cases e name with
  | none => rfl
  | some raw =>
    rw [Option.bind_some, Option.bind_some, Kind.read?]
    cases read : Environment.readUnsigned? 255 raw with
    | none => rfl
    | some n =>
      have fits := readUnsigned?_le read
      exact congrArg (fun n : Nat => Value.number n) (UInt8.toNat_ofNat_of_lt (Nat.lt_succ_of_le fits))

theorem Value.uint64_of_variable (e : Environment) (name : String) (value : UInt64) :
    Value.number (e.uint64 name value).toNat =
      ((e name).bind (Kind.natural 18446744073709551615).read?).getD (.number value.toNat) := by
  rw [Environment.uint64]
  cases e name with
  | none => rfl
  | some raw =>
    rw [Option.bind_some, Option.bind_some, Kind.read?]
    cases read : Environment.readUnsigned? 18446744073709551615 raw with
    | none => rfl
    | some n =>
      have fits := readUnsigned?_le read
      exact congrArg (fun n : Nat => Value.number n) (UInt64.toNat_ofNat_of_lt (Nat.lt_succ_of_le fits))

theorem Value.int32_of_variable (e : Environment) (name : String) (value : Int32) :
    Value.number (e.int32 name value).toInt =
      ((e name).bind (Kind.integer (-2147483648) 2147483647).read?).getD (.number value.toInt) := by
  rw [Environment.int32]
  cases e name with
  | none => rfl
  | some raw =>
    rw [Option.bind_some, Option.bind_some, Kind.read?]
    cases read : Environment.readSigned? (-2147483648) 2147483647 raw with
    | none => rfl
    | some n =>
      obtain ⟨reaches, fits⟩ := readSigned?_bounds read
      exact congrArg Value.number (Int32.toInt_ofInt_of_le reaches (by omega))

/-- A field has what the environment says for it, or what it had. -/
theorem value_overrideBy (s : Settings) (e : Environment) (f : Field) :
    (s.overrideBy e).value f = (said? e f).getD (s.value f) := by
  cases f with
  | host | username | password | socket => exact Value.text_of_variable ..
  | gpuEnabled => exact Value.truth_of_variable ..
  | interval | cooldown => exact Value.uint64_of_variable ..
  | minSpeed | maxSpeed | idleSpeed | stepSize => exact Value.uint8_of_variable ..
  | cpuThreshold | gpuThreshold => exact Value.int32_of_variable ..
  | retention | gpuTool | zones | historyPath | logLevel => rfl

/-! ## All variables -/

theorem variableName?_inj {g : Field} {name : String} (speaks : f.variableName? = some name)
    (also : g.variableName? = some name) : f = g := by
  have all : ∀ f g : Field, f.variableName? ≠ none → f.variableName? = g.variableName? → f = g := by
    intro f g
    cases f <;> cases g <;> decide
  apply all f g
  · rw [speaks]
    exact Option.some_ne_none name
  · rw [speaks, also]

theorem variableName?_mem {name : String} (speaks : f.variableName? = some name) :
    name ∈ variableNames := by
  have all : ∀ f : Field, ∀ name ∈ f.variableName?, name ∈ variableNames := by
    intro f
    cases f <;> decide
  exact all f name speaks

theorem exists_field {name : String} (listed : name ∈ variableNames) :
    ∃ f : Field, f.variableName? = some name := by
  revert name
  simp only [variableNames, List.forall_mem_cons]
  exact ⟨⟨.host, rfl⟩, ⟨.username, rfl⟩, ⟨.password, rfl⟩, ⟨.interval, rfl⟩, ⟨.gpuEnabled, rfl⟩,
    ⟨.minSpeed, rfl⟩, ⟨.maxSpeed, rfl⟩, ⟨.idleSpeed, rfl⟩, ⟨.cpuThreshold, rfl⟩,
    ⟨.gpuThreshold, rfl⟩, ⟨.stepSize, rfl⟩, ⟨.cooldown, rfl⟩, ⟨.socket, rfl⟩, nofun⟩

theorem said?_congr (same : ∀ name, f.variableName? = some name → e₁ name = e₂ name) :
    said? e₁ f = said? e₂ f := by
  rw [said?, said?]
  cases speaks : f.variableName? with
  | none => rfl
  | some name => rw [Option.bind_some, Option.bind_some, same name speaks]

/-! ## Environments together -/

/-- No variable that settings are taken from is in both environments. -/
def AreApart (e₁ e₂ : Environment) : Prop :=
  ∀ name ∈ variableNames, e₁ name = none ∨ e₂ name = none

theorem AreApart.symm (apart : AreApart e₁ e₂) : AreApart e₂ e₁ := by
  intro name listed
  exact (apart name listed).symm

/-- The variables of two environments. -/
def union (e₁ e₂ : Environment) : Environment :=
  fun name => (e₁ name).or (e₂ name)

theorem said?_apart (apart : AreApart e₁ e₂) (f : Field) :
    said? e₁ f = none ∨ said? e₂ f = none := by
  cases speaks : f.variableName? with
  | none =>
    apply Or.inl
    rw [said?, speaks, Option.bind_none, Option.bind_none]
  | some name =>
    apply (apart name (variableName?_mem speaks)).imp
    · intro unset
      rw [said?, speaks, Option.bind_some, unset, Option.bind_none]
    · intro unset
      rw [said?, speaks, Option.bind_some, unset, Option.bind_none]

/-- Two environments that are apart say together what each of them says. -/
theorem said?_union (apart : AreApart e₁ e₂) (f : Field) :
    said? (union e₁ e₂) f = (said? e₁ f).or (said? e₂ f) := by
  cases speaks : f.variableName? with
  | none => simp only [said?, speaks, Option.bind_none, Option.or_none]
  | some name =>
    simp only [said?, speaks, Option.bind_some, union]
    rcases apart name (variableName?_mem speaks) with unset | unset
    · rw [unset, Option.none_or, Option.bind_none, Option.none_or]
    · rw [unset, Option.or_none, Option.bind_none, Option.or_none]

theorem overrideBy_self (s : Settings) (e : Environment) :
    (s.overrideBy e).overrideBy e = s.overrideBy e := by
  apply ext_value
  intro f
  rw [value_overrideBy, value_overrideBy]
  cases said? e f <;> rfl

theorem overrideBy_overrideBy (s : Settings) (apart : AreApart e₁ e₂) :
    (s.overrideBy e₁).overrideBy e₂ = s.overrideBy (union e₁ e₂) := by
  apply ext_value
  intro f
  rw [value_overrideBy, value_overrideBy, value_overrideBy, said?_union apart]
  rcases said?_apart apart f with silent | silent
  · rw [silent, Option.none_or, Option.getD_none]
  · rw [silent, Option.or_none, Option.getD_none]

theorem overrideBy_union_comm (s : Settings) (apart : AreApart e₁ e₂) :
    s.overrideBy (union e₂ e₁) = s.overrideBy (union e₁ e₂) := by
  apply ext_value
  intro f
  rw [value_overrideBy, value_overrideBy, said?_union apart, said?_union apart.symm]
  rcases said?_apart apart f with silent | silent
  · rw [silent, Option.none_or, Option.or_none]
  · rw [silent, Option.none_or, Option.or_none]

/-- Each of the variables speaks for one field and no two for the same, and a field depends on its
own variable only: it has what the variable says, and what it had before if the variable says
nothing. An environment that is applied again changes nothing, and of two that share no variable
either can be applied first: what comes out is what they say together. -/
theorem overrides_are_local (s : Settings) :
    (∀ name ∈ variableNames, ∃! f : Field, f.variableName? = some name) ∧
    (∀ (e₁ e₂ : Environment) f, (∀ name, f.variableName? = some name → e₁ name = e₂ name) →
      (s.overrideBy e₁).value f = (s.overrideBy e₂).value f) ∧
    (∀ e f v, Says e f v → (s.overrideBy e).value f = v) ∧
    (∀ e f, (¬ ∃ v, Says e f v) → (s.overrideBy e).value f = s.value f) ∧
    (∀ e, (s.overrideBy e).overrideBy e = s.overrideBy e) ∧
    (∀ e₁ e₂, AreApart e₁ e₂ →
      (s.overrideBy e₁).overrideBy e₂ = s.overrideBy (union e₁ e₂) ∧
      (s.overrideBy e₂).overrideBy e₁ = s.overrideBy (union e₁ e₂)) := by
  refine ⟨?one, ?own, ?said, ?silent, overrideBy_self s, ?apart⟩
  case one =>
    intro name listed
    obtain ⟨f, speaks⟩ := exists_field listed
    exact ⟨f, speaks, fun g also => variableName?_inj also speaks⟩
  case own =>
    intro e₁ e₂ f same
    rw [value_overrideBy, value_overrideBy, said?_congr same]
  case said =>
    intro e f v saying
    rw [value_overrideBy, said?_eq_some_iff.mpr saying, Option.getD_some]
  case silent =>
    intro e f silent
    rw [value_overrideBy, said?_eq_none_iff.mpr silent, Option.getD_none]
  case apart =>
    intro e₁ e₂ apart
    constructor
    · exact overrideBy_overrideBy s apart
    · rw [overrideBy_overrideBy s apart.symm, overrideBy_union_comm s apart]

/-- Speeds for the fans, one of them too high for any field. -/
def fanEnvironment : Environment :=
  .ofList [("FAN_MIN_SPEED", " +7 "), ("FAN_MAX_SPEED", "256")]

def boardEnvironment : Environment :=
  .ofList [("IDRAC_HOST", "10.0.0.2")]

theorem fanEnvironment_applied :
    (Settings.default.overrideBy fanEnvironment).value .minSpeed = .number 7 ∧
      (Settings.default.overrideBy fanEnvironment).value .maxSpeed = .number 100 ∧
      (Settings.default.overrideBy fanEnvironment).overrideBy boardEnvironment =
        Settings.default.overrideBy (union fanEnvironment boardEnvironment) := by
  obtain ⟨-, -, said, silent, -, apart⟩ := overrides_are_local Settings.default
  refine ⟨said _ _ _ ?_, silent _ _ ?_, (apart _ _ ?_).1⟩
  · exact said?_eq_some_iff.mp (by decide +kernel)
  · exact said?_eq_none_iff.mp (by decide +kernel)
  · unfold AreApart
    decide +kernel

end Settings

end ChassisCooling
