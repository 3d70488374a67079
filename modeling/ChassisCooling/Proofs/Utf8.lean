import ChassisCooling.Text.Utf8

/-! # Text through its bytes

The bytes of a text are read back as the text. A lead byte fixes which bytes may follow it, and the
bytes of a character keep to that. A byte below 0x80 stands for itself wherever it occurs, so a text
has a line feed exactly where its bytes have one.
-/

namespace ChassisCooling.Text.Utf8

variable {read : List Char} {begun : Partial} {n : Nat}

/-! ## Single bytes -/

theorem toNat_byte (byte : n < 256) : (UInt8.ofNat n).toNat = n :=
  UInt8.toNat_ofNat_of_lt byte

theorem lead_ofNat (byte : n < 256) : lead (.ofNat n) =
    if 0xC2 ≤ n ∧ n ≤ 0xDF then some ⟨n - 0xC0, 1, 0x80, 0xBF⟩
    else if n = 0xE0 then some ⟨0, 2, 0xA0, 0xBF⟩
    else if n = 0xED then some ⟨0xD, 2, 0x80, 0x9F⟩
    else if 0xE1 ≤ n ∧ n ≤ 0xEF then some ⟨n - 0xE0, 2, 0x80, 0xBF⟩
    else if n = 0xF0 then some ⟨0, 3, 0x90, 0xBF⟩
    else if 0xF1 ≤ n ∧ n ≤ 0xF3 then some ⟨n - 0xF0, 3, 0x80, 0xBF⟩
    else if n = 0xF4 then some ⟨4, 3, 0x80, 0x8F⟩
    else none := by
  simp only [lead, UInt8.le_iff_toNat_le, ← UInt8.toNat_inj, toNat_byte byte, UInt8.reduceToNat,
    Bool.and_eq_true, decide_eq_true_eq]

theorem step_ascii (ascii : n < 0x80) :
    Reader.step ⟨read, none⟩ (.ofNat n) = some ⟨Char.ofNat n :: read, none⟩ := by
  have toNat := toNat_byte (Nat.lt_of_lt_of_le ascii (by decide))
  have low : UInt8.ofNat n < 0x80 := by
    rw [UInt8.lt_iff_toNat_lt, toNat]
    exact ascii
  simp only [Reader.step, if_pos low, toNat]

/-- A lead byte begins a character. -/
theorem step_lead (high : 0x80 ≤ n) (byte : n < 256) (leads : lead (.ofNat n) = some begun) :
    Reader.step ⟨read, none⟩ (.ofNat n) = some ⟨read, some begun⟩ := by
  have high : ¬ UInt8.ofNat n < 0x80 := by
    rw [UInt8.lt_iff_toNat_lt, toNat_byte byte]
    exact Nat.not_lt.mpr high
  simp only [Reader.step, if_neg high, leads, Option.map_some]

/-- A byte of six bits goes on with the character begun. -/
theorem step_tail (bits : n < 0x40) (least : begun.least.toNat ≤ n + 0x80)
    (greatest : n + 0x80 ≤ begun.greatest.toNat) :
    Reader.step ⟨read, some begun⟩ (.ofNat (n + 0x80)) =
      if begun.missing ≤ 1 then some ⟨Char.ofNat (begun.code * 64 + n) :: read, none⟩
      else some ⟨read, some ⟨begun.code * 64 + n, begun.missing - 1, 0x80, 0xBF⟩⟩ := by
  have toNat := toNat_byte (n := n + 0x80)
    (Nat.lt_of_lt_of_le (Nat.add_lt_add_right bits _) (by decide))
  simp only [Reader.step, UInt8.le_iff_toNat_le, toNat, least, greatest, decide_true,
    Bool.and_self, ↓reduceIte, Nat.add_sub_cancel]

/-! ## The bytes of a character -/

theorem foldlM_step_cons {reader next : Reader} {byte : UInt8} {bytes : List UInt8}
    (made : reader.step byte = some next) :
    (byte :: bytes).foldlM Reader.step reader = bytes.foldlM Reader.step next := by
  rw [List.foldlM_cons, made]
  rfl

/-- The lead byte of a character of three bytes lets its second byte follow. -/
theorem lead_of_three {v : Nat} (low : 0x7FF < v) (high : v ≤ 0xFFFF)
    (valid : v < 0xD800 ∨ 0xDFFF < v) :
    ∃ least greatest, lead (.ofNat (v / 4096 % 0x10 + 0xE0)) =
        some ⟨v / 4096, 2, least, greatest⟩ ∧
      least.toNat ≤ v / 64 % 0x40 + 0x80 ∧ v / 64 % 0x40 + 0x80 ≤ greatest.toNat := by
  rw [lead_ofNat (by omega), if_neg (by omega)]
  by_cases first : v / 4096 = 0
  · rw [if_pos (by omega), first]
    exact ⟨_, _, rfl, by simp; omega, by simp; omega⟩
  rw [if_neg (by omega)]
  by_cases surrogates : v / 4096 = 0xD
  · rw [if_pos (by omega), surrogates]
    exact ⟨_, _, rfl, by simp, by simp; omega⟩
  rw [if_neg (by omega), if_pos (by omega)]
  have code : v / 4096 % 0x10 + 0xE0 - 0xE0 = v / 4096 := by omega
  rw [code]
  exact ⟨_, _, rfl, by simp, by simp; omega⟩

/-- The lead byte of a character of four bytes lets its second byte follow. -/
theorem lead_of_four {v : Nat} (low : 0xFFFF < v) (valid : v < 0x110000) :
    ∃ least greatest, lead (.ofNat (v / 262144 % 0x08 + 0xF0)) =
        some ⟨v / 262144, 3, least, greatest⟩ ∧
      least.toNat ≤ v / 4096 % 0x40 + 0x80 ∧ v / 4096 % 0x40 + 0x80 ≤ greatest.toNat := by
  rw [lead_ofNat (by omega), if_neg (by omega), if_neg (by omega), if_neg (by omega),
    if_neg (by omega)]
  by_cases first : v / 262144 = 0
  · rw [if_pos (by omega), first]
    exact ⟨_, _, rfl, by simp; omega, by simp; omega⟩
  rw [if_neg (by omega)]
  by_cases last : v / 262144 = 4
  · rw [if_neg (by omega), if_pos (by omega), last]
    exact ⟨_, _, rfl, by simp, by simp; omega⟩
  rw [if_pos (by omega)]
  have code : v / 262144 % 0x08 + 0xF0 - 0xF0 = v / 262144 := by omega
  rw [code]
  exact ⟨_, _, rfl, by simp, by simp; omega⟩

/-- The bytes of a character are read as that character. -/
theorem foldlM_step_char (c : Char) (read : List Char) :
    (String.utf8EncodeChar c).foldlM Reader.step ⟨read, none⟩ = some ⟨c :: read, none⟩ := by
  have same : Char.ofNat c.val.toNat = c := c.ofNat_toNat
  have valid : c.val.toNat < 0xD800 ∨ 0xDFFF < c.val.toNat ∧ c.val.toNat < 0x110000 := c.valid
  rw [String.utf8EncodeChar]
  generalize c.val.toNat = v at same valid
  split
  · next ascii =>
    rw [foldlM_step_cons (step_ascii (Nat.lt_succ_of_le ascii)), same]
    rfl
  have tail : ∀ {k : Nat}, (0x80 : UInt8).toNat ≤ k % 0x40 + 0x80 ∧
      k % 0x40 + 0x80 ≤ (0xBF : UInt8).toNat := fun {k} => by simp; omega
  split
  · have leads := lead_ofNat (n := v / 64 % 0x20 + 0xC0) (by omega)
    rw [if_pos (by omega)] at leads
    rw [foldlM_step_cons (step_lead (by omega) (by omega) leads),
      foldlM_step_cons (step_tail (by omega) tail.1 tail.2)]
    have code : (v / 64 % 0x20 + 0xC0 - 0xC0) * 64 + v % 64 = v := by omega
    rw [code, same]
    rfl
  split
  · obtain ⟨least, greatest, leads, lower, upper⟩ :=
      lead_of_three (v := v) (by omega) (by omega) (by omega)
    rw [foldlM_step_cons (step_lead (by omega) (by omega) leads),
      foldlM_step_cons (step_tail (by omega) lower upper),
      foldlM_step_cons (step_tail (by omega) tail.1 tail.2)]
    have code : (v / 4096 * 64 + v / 64 % 64) * 64 + v % 64 = v := by omega
    simp only [code, same]
    rfl
  · obtain ⟨least, greatest, leads, lower, upper⟩ :=
      lead_of_four (v := v) (by omega) (by omega)
    rw [foldlM_step_cons (step_lead (by omega) (by omega) leads),
      foldlM_step_cons (step_tail (by omega) lower upper),
      foldlM_step_cons (step_tail (by omega) tail.1 tail.2),
      foldlM_step_cons (step_tail (by omega) tail.1 tail.2)]
    have code : ((v / 262144 * 64 + v / 4096 % 64) * 64 + v / 64 % 64) * 64 + v % 64 = v := by
      omega
    simp only [code, same]
    rfl

/-- A byte below 0x80 occurs only in the character that it stands for. -/
theorem mem_utf8EncodeChar_iff (ascii : n < 0x80) (c : Char) :
    UInt8.ofNat n ∈ String.utf8EncodeChar c ↔ c.val.toNat = n := by
  have valid : c.val.toNat < 0xD800 ∨ 0xDFFF < c.val.toNat ∧ c.val.toNat < 0x110000 := c.valid
  have same : ∀ m < 256, UInt8.ofNat n = UInt8.ofNat m ↔ n = m := fun m byte => by
    rw [← UInt8.toNat_inj, toNat_byte (by omega), toNat_byte byte]
  rw [String.utf8EncodeChar]
  generalize c.val.toNat = v at valid
  split
  · rw [List.mem_singleton, same _ (by omega), eq_comm]
  split
  · simp only [List.mem_cons, List.not_mem_nil, or_false]
    rw [same _ (by omega), same _ (by omega)]
    omega
  split
  · simp only [List.mem_cons, List.not_mem_nil, or_false]
    rw [same _ (by omega), same _ (by omega), same _ (by omega)]
    omega
  · simp only [List.mem_cons, List.not_mem_nil, or_false]
    rw [same _ (by omega), same _ (by omega), same _ (by omega), same _ (by omega)]
    omega

/-! ## Texts -/

@[simp]
theorem encode_nil : encode [] = [] :=
  rfl

@[simp]
theorem encode_cons (c : Char) (text : List Char) :
    encode (c :: text) = String.utf8EncodeChar c ++ encode text :=
  List.flatMap_cons

@[simp]
theorem encode_append (text text' : List Char) :
    encode (text ++ text') = encode text ++ encode text' :=
  List.flatMap_append

theorem foldlM_step_encode (text read : List Char) :
    (encode text).foldlM Reader.step ⟨read, none⟩ = some ⟨text.reverse ++ read, none⟩ := by
  induction text generalizing read with
  | nil => rfl
  | cons c text ih =>
    rw [encode_cons, List.foldlM_append, foldlM_step_char]
    change (encode text).foldlM Reader.step ⟨c :: read, none⟩ = _
    rw [ih, List.reverse_cons, List.append_assoc]
    rfl

/-- The bytes of a text are the text again. -/
theorem decode?_encode (text : List Char) : decode? (encode text) = some text := by
  rw [decode?, foldlM_step_encode, List.append_nil, Option.bind_some]
  simp only [Option.isNone_none, ↓reduceIte, List.reverse_reverse]

/-- The bytes of a text hold a byte below 0x80 exactly when the text holds its character. -/
theorem mem_encode_iff {c : Char} (ascii : c.val.toNat < 0x80) (text : List Char) :
    UInt8.ofNat c.val.toNat ∈ encode text ↔ c ∈ text := by
  rw [encode, List.mem_flatMap]
  constructor
  · rintro ⟨other, member, holds⟩
    have same := (mem_utf8EncodeChar_iff ascii other).mp holds
    rwa [← Char.ext (UInt32.toNat_inj.mp same)]
  · intro member
    exact ⟨c, member, (mem_utf8EncodeChar_iff ascii c).mpr rfl⟩

/-! ## A text behind other bytes -/

/-- No byte below 0x80 goes on with the character that a reader has begun. -/
def Reader.IsHigh (reader : Reader) : Prop :=
  ∀ begun, reader.begun = some begun → 0x80 ≤ begun.least.toNat

theorem le_least_of_lead {byte : UInt8} (leads : lead byte = some begun) :
    0x80 ≤ begun.least.toNat := by
  have least : begun.least = 0x80 ∨ begun.least = 0xA0 ∨ begun.least = 0x90 := by
    grind [lead]
  rcases least with same | same | same
  all_goals rw [same]; decide

theorem Reader.IsHigh.step {reader next : Reader} {byte : UInt8}
    (made : reader.step byte = some next) : next.IsHigh := by
  intro begun goesOn
  rw [Reader.step] at made
  split at made
  · next nothing =>
    split at made
    · cases made
      rw [nothing] at goesOn
      cases goesOn
    · obtain ⟨begun', leads, rfl⟩ := Option.map_eq_some_iff.mp made
      cases goesOn
      exact le_least_of_lead leads
  · split at made
    · split at made
      · rw [← Option.some.inj made] at goesOn
        cases goesOn
      · rw [← Option.some.inj made] at goesOn
        rw [← Option.some.inj goesOn]
        exact Nat.le_refl _
    · cases made

theorem Reader.IsHigh.foldlM {reader next : Reader} {bytes : List UInt8} (high : reader.IsHigh)
    (made : bytes.foldlM Reader.step reader = some next) : next.IsHigh := by
  induction bytes generalizing reader with
  | nil =>
    cases made
    exact high
  | cons byte bytes ih =>
    rw [List.foldlM_cons] at made
    obtain ⟨between, first, later⟩ := Option.bind_eq_some_iff.mp made
    exact ih (Reader.IsHigh.step first) later

/-- Bytes that are followed by a text which begins below 0x80 are a text exactly when they are one
by themselves. -/
theorem decode?_append_encode {c : Char} (ascii : c.val.toNat < 0x80) (bytes : List UInt8)
    (text : List Char) :
    decode? (bytes ++ encode (c :: text)) = (decode? bytes).map (· ++ c :: text) := by
  rw [decode?, decode?, List.foldlM_append]
  cases made : bytes.foldlM Reader.step ⟨[], none⟩ with
  | none => rfl
  | some reader =>
    obtain ⟨read, begun⟩ := reader
    cases begun with
    | none =>
      rw [Option.bind_eq_bind, Option.bind_some, foldlM_step_encode]
      simp
    | some begun =>
      have fresh : Reader.IsHigh ⟨[], none⟩ := by
        intro begun goesOn
        cases goesOn
      have least := fresh.foldlM made begun rfl
      have stuck : Reader.step ⟨read, some begun⟩ (.ofNat c.val.toNat) = none := by
        have low : ¬ begun.least ≤ UInt8.ofNat c.val.toNat := by
          rw [UInt8.le_iff_toNat_le, toNat_byte (by omega)]
          exact Nat.not_le.mpr (Nat.lt_of_lt_of_le ascii least)
        simp only [Reader.step, low, decide_false, Bool.false_and, Bool.false_eq_true, ↓reduceIte]
      have single : String.utf8EncodeChar c = [.ofNat c.val.toNat] := by
        rw [String.utf8EncodeChar]
        exact if_pos (Nat.le_of_lt_succ ascii)
      rw [Option.bind_eq_bind, Option.bind_some, encode_cons, single, List.singleton_append,
        List.foldlM_cons, stuck]
      rfl

end ChassisCooling.Text.Utf8
