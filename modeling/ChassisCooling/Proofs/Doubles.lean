import Mathlib.Algebra.Group.Nat.Defs
import ChassisCooling.Proofs.Numerals

/-! # How doubles are written

The search for the shortest decimal of a positive double ends with one: seventeen digits after the
first are always enough, since doubles lie further apart than decimals of that many digits. So every
finite double is written as a number with its first digit in front.
-/

namespace ChassisCooling

namespace Decimal

/-- The part of a double that is not zero. -/
structure Binary.IsDouble (b : Binary) : Prop where
  positive : 0 < b.significand
  short : b.significand < 9007199254740992
  least : -1074 ≤ b.exponent

theorem Binary.isDouble_of_ofFloat? {x : Float} {b : Binary} (finite : ofFloat? x = some b)
    (positive : 0 < b.significand) : b.IsDouble := by
  simp only [ofFloat?] at finite
  split at finite
  · cases finite
  have rest : x.toBits.toNat % hiddenBit < hiddenBit := Nat.mod_lt _ (by decide)
  rw [hiddenBit] at rest
  split at finite
  · obtain rfl := Option.some.inj finite
    exact ⟨positive, Nat.lt_trans rest (by decide), Int.le_refl _⟩
  · obtain rfl := Option.some.inj finite
    refine ⟨positive, ?_, ?_⟩
    · simp only [hiddenBit] at rest ⊢
      omega
    · simp only
      omega

/-! ## Intervals -/

namespace Interval

/-- The interval leaves room around its value, and does so for a decimal of eighteen digits. -/
structure IsRoomy (i : Interval) : Prop where
  divisor : 0 < i.divisor
  low : 0 < i.low
  below : i.low < i.value
  above : i.value < i.high
  wide : i.value < 10 ^ 17 * (i.high - i.value)

variable {i : Interval} {n : Nat}

theorem scale_ofNat (p : Nat) : i.scale (.ofNat p) =
    ⟨i.low * 10 ^ p, i.value * 10 ^ p, i.high * 10 ^ p, i.divisor, i.closed⟩ :=
  rfl

theorem scale_negSucc (p : Nat) : i.scale (.negSucc p) =
    ⟨i.low, i.value, i.high, i.divisor * 10 ^ (p + 1), i.closed⟩ :=
  rfl

theorem IsRoomy.scale (roomy : i.IsRoomy) (power : Int) : (i.scale power).IsRoomy := by
  obtain ⟨divisor, low, below, above, wide⟩ := roomy
  cases power with
  | ofNat p =>
    have factor : 0 < 10 ^ p := Nat.pow_pos (by decide)
    rw [scale_ofNat]
    refine ⟨divisor, Nat.mul_pos low factor, Nat.mul_lt_mul_of_pos_right below factor,
      Nat.mul_lt_mul_of_pos_right above factor, ?_⟩
    rw [← Nat.sub_mul, ← Nat.mul_assoc]
    exact Nat.mul_lt_mul_of_pos_right wide factor
  | negSucc p =>
    rw [scale_negSucc]
    exact ⟨Nat.mul_pos divisor (Nat.pow_pos (by decide)), low, below, above, wide⟩

/-- Numbers strictly inside belong to the interval, closed or not. -/
theorem holds_of_inside (low : i.low < n) (high : n < i.high) : i.holds n = true := by
  rw [holds]
  split
  · simp only [Bool.and_eq_true, decide_eq_true_eq]
    omega
  · simp only [Bool.and_eq_true, decide_eq_true_eq]
    omega

theorem low_le_of_holds (held : i.holds n = true) : i.low ≤ n := by
  rw [holds] at held
  split at held
  · simp only [Bool.and_eq_true, decide_eq_true_eq] at held
    omega
  · simp only [Bool.and_eq_true, decide_eq_true_eq] at held
    omega

/-- On a fine grid, the neighbour above the value belongs to the interval. -/
theorem nearest?_ne_none (roomy : i.IsRoomy) (fine : i.divisor < i.high - i.value) :
    i.nearest? ≠ none := by
  have split := Nat.div_add_mod' i.value i.divisor
  have rest := Nat.mod_lt i.value roomy.divisor
  have next : (i.value / i.divisor + 1) * i.divisor =
      i.value / i.divisor * i.divisor + i.divisor := Nat.succ_mul ..
  have upper : i.holds ((i.value / i.divisor + 1) * i.divisor) = true := by
    have below := roomy.below
    apply holds_of_inside
    · omega
    · omega
  simp only [nearest?, upper, Bool.and_true, ↓reduceIte]
  split
  · split <;> nofun
  · nofun

/-- Zero is no decimal of a positive double. -/
theorem pos_of_nearest? (roomy : i.IsRoomy) (found : i.nearest? = some n) : 0 < n := by
  have low := roomy.low
  have lower : i.holds (i.value / i.divisor * i.divisor) = true → 0 < i.value / i.divisor := by
    intro held
    have above := low_le_of_holds held
    exact Nat.pos_of_mul_pos_right (Nat.lt_of_lt_of_le low above)
  simp only [nearest?] at found
  split at found
  · next both =>
    have held := lower (Bool.and_eq_true_iff.mp both).1
    split at found
    · obtain rfl := Option.some.inj found
      exact held
    · obtain rfl := Option.some.inj found
      exact Nat.succ_pos _
  split at found
  · next held =>
    obtain rfl := Option.some.inj found
    exact lower held
  split at found
  · obtain rfl := Option.some.inj found
    exact Nat.succ_pos _
  · cases found

end Interval

/-! ## The first digit -/

/-- A power of ten is not above a value. -/
inductive Reaches (value divisor : Nat) : Int → Prop
  | ofNat {e : Nat} (le : 10 ^ e * divisor ≤ value) : Reaches value divisor (.ofNat e)
  | negSucc {e : Nat} (le : divisor ≤ value * 10 ^ (e + 1)) : Reaches value divisor (.negSucc e)

/-- The search downwards finds a power of ten that is not above the value, if its last one is
not. -/
theorem reaches_decadeFrom {value divisor fuel : Nat} {start : Int}
    (last : Reaches value divisor (start - fuel)) :
    Reaches value divisor (decadeFrom value divisor start fuel) := by
  induction fuel generalizing start with
  | zero => simpa only [decadeFrom, Int.natCast_zero, Int.sub_zero] using last
  | succ fuel ih =>
    have next : Reaches value divisor (decadeFrom value divisor (start - 1) fuel) := by
      apply ih
      rwa [Int.sub_sub, Int.add_comm 1, ← Int.natCast_succ]
    cases start with
    | ofNat e =>
      simp only [decadeFrom, decide_eq_true_eq]
      split
      · next reached => exact .ofNat reached
      · exact next
    | negSucc e =>
      simp only [decadeFrom, decide_eq_true_eq]
      split
      · next reached => exact .negSucc reached
      · exact next

/-- On the grid of seventeen digits after the first, the value is that large. -/
theorem divisor_scale_le {i : Interval} {decade : Int}
    (reached : Reaches i.value i.divisor decade) :
    (i.scale (17 - decade)).divisor * 10 ^ 17 ≤ (i.scale (17 - decade)).value := by
  cases reached with
  | @ofNat e reached =>
    by_cases small : e ≤ 17
    · have power : (17 : Int) - Int.ofNat e = Int.ofNat (17 - e) := by
        simp only [Int.ofNat_eq_natCast]
        omega
      rw [power, Interval.scale_ofNat]
      calc i.divisor * 10 ^ 17
        _ = 10 ^ e * i.divisor * 10 ^ (17 - e) := by
          rw [Nat.mul_comm (10 ^ e), Nat.mul_assoc, ← Nat.pow_add, Nat.add_sub_cancel' small]
        _ ≤ i.value * 10 ^ (17 - e) := Nat.mul_le_mul_right _ reached
    · have power : (17 : Int) - Int.ofNat e = Int.negSucc (e - 18) := by
        simp only [Int.ofNat_eq_natCast]
        omega
      rw [power, Interval.scale_negSucc]
      calc i.divisor * 10 ^ (e - 18 + 1) * 10 ^ 17
        _ = 10 ^ e * i.divisor := by
          rw [Nat.mul_assoc, ← Nat.pow_add, Nat.mul_comm]
          congr 2
          omega
        _ ≤ i.value := reached
  | @negSucc e reached =>
    have power : (17 : Int) - Int.negSucc e = Int.ofNat (e + 1 + 17) := by
      simp only [Int.ofNat_eq_natCast]
      omega
    rw [power, Interval.scale_ofNat]
    calc i.divisor * 10 ^ 17
      _ ≤ i.value * 10 ^ (e + 1) * 10 ^ 17 := Nat.mul_le_mul_right _ reached
      _ = i.value * 10 ^ (e + 1 + 17) := by rw [Nat.mul_assoc, ← Nat.pow_add]

theorem shortestFrom_pos {i : Interval} {decade : Int} (roomy : i.IsRoomy)
    (reached : Reaches i.value i.divisor decade) {used fuel : Nat} (left : used + fuel = 17) :
    0 < (shortestFrom i decade used (fuel + 1)).digits := by
  induction fuel generalizing used with
  | zero =>
    obtain rfl : used = 17 := left
    have grid : -(decade - (17 : Nat)) = 17 - decade := by omega
    have scaled := roomy.scale (17 - decade)
    have large := divisor_scale_le reached
    have wide := scaled.wide
    simp only [shortestFrom, grid]
    split
    · next found => exact Interval.pos_of_nearest? scaled found
    · next missing => exact absurd missing (Interval.nearest?_ne_none scaled (by omega))
  | succ fuel ih =>
    rw [shortestFrom]
    split
    · next found => exact Interval.pos_of_nearest? (roomy.scale _) found
    · exact ih (by omega)

theorem strip_pos {d : Scientific} (positive : 0 < d.digits) (fuel : Nat) :
    0 < (d.strip fuel).digits := by
  induction fuel generalizing d with
  | zero => exact positive
  | succ fuel ih =>
    rw [Scientific.strip]
    split
    · next zeros =>
      apply ih
      simp only
      omega
    · exact positive

/-- The neighbours of a value of few enough units leave room around it. -/
theorem isRoomy_around {value unit gap divisor : Nat} {closed : Bool}
    (gaps : gap = unit ∨ gap = 2 * unit) (low : unit ≤ value)
    (high : value < 9007199254740992 * unit) (whole : 0 < divisor) :
    Interval.IsRoomy ⟨4 * value - gap, 4 * value, 4 * value + 2 * unit, divisor, closed⟩ := by
  refine ⟨whole, ?_, ?_, ?_, ?_⟩
  all_goals simp only
  all_goals omega

theorem isRoomy_ofBinary {b : Binary} (double : b.IsDouble) :
    (Interval.ofBinary b).IsRoomy := by
  obtain ⟨positive, short, -⟩ := double
  have gaps : ∀ unit, (if b.lowerGapHalved then unit else 2 * unit) = unit ∨
      (if b.lowerGapHalved then unit else 2 * unit) = 2 * unit := by
    intro unit
    split
    · exact .inl rfl
    · exact .inr rfl
  cases exponent : b.exponent - 2 with
  | ofNat e =>
    have one : 0 < 2 ^ e := Nat.pow_pos (by decide)
    simp only [Interval.ofBinary, exponent, scaled, Nat.shiftLeft_eq, Nat.one_mul, Nat.mul_assoc]
    exact isRoomy_around (gaps _) (Nat.le_mul_of_pos_left _ positive)
      (Nat.mul_lt_mul_of_pos_right short one) Nat.one_pos
  | negSucc e =>
    have whole : 0 < 2 ^ (e + 1) := Nat.pow_pos (by decide)
    simp only [Interval.ofBinary, exponent, scaled, Nat.shiftLeft_eq, Nat.one_mul]
    exact isRoomy_around (gaps 1) positive short whole

/-- The value of a positive double is not below a small power of ten. -/
theorem reaches_ofBinary {b : Binary} (double : b.IsDouble) {p : Nat} (large : 358 ≤ p) :
    Reaches (Interval.ofBinary b).value (Interval.ofBinary b).divisor (.negSucc p) := by
  obtain ⟨positive, -, least⟩ := double
  constructor
  cases exponent : b.exponent - 2 with
  | ofNat e =>
    simp only [Interval.ofBinary, exponent, scaled, Nat.shiftLeft_eq]
    have value : 0 < 4 * b.significand * 2 ^ e :=
      Nat.mul_pos (by omega) (Nat.pow_pos (by decide))
    exact Nat.mul_pos value (Nat.pow_pos (by decide))
  | negSucc e =>
    have small : e + 1 ≤ 1076 := by omega
    simp only [Interval.ofBinary, exponent, scaled, Nat.shiftLeft_eq, Nat.one_mul]
    calc 2 ^ (e + 1)
      _ ≤ 2 ^ (3 * (p + 1)) := Nat.pow_le_pow_right (by decide) (by omega)
      _ = 8 ^ (p + 1) := Nat.pow_mul 2 3 (p + 1)
      _ ≤ 10 ^ (p + 1) := Nat.pow_le_pow_left (by decide) _
      _ ≤ 4 * b.significand * 10 ^ (p + 1) := Nat.le_mul_of_pos_left _ (by omega)

/-- A positive double is not written as zero. -/
theorem shortest_pos {b : Binary} (double : b.IsDouble) : 0 < (shortest b).digits := by
  have lowest : (309 : Int) - (700 : Nat) = Int.negSucc 390 := rfl
  have reached : Reaches (Interval.ofBinary b).value (Interval.ofBinary b).divisor
      ((309 : Int) - (700 : Nat)) := by
    rw [lowest]
    exact reaches_ofBinary double (by decide)
  have found := reaches_decadeFrom reached
  simp only [shortest]
  exact strip_pos (shortestFrom_pos (isRoomy_ofBinary double) found (Nat.zero_add 17)) 20

end Decimal

namespace Json.Numeral

open Text

/-- Digits of a number that is not zero may stand in front of the point. -/
theorem isWritten_ofDecimal (negative : Bool) {d : Decimal.Scientific} (positive : 0 < d.digits) :
    (ofDecimal negative d).IsWritten := by
  have filled := digits_ne_nil d.digits
  have first := head?_digits positive
  obtain ⟨c, rest, same⟩ := List.exists_cons_of_ne_nil filled
  rw [same] at first
  have front : ∀ {k : Nat}, 0 < k → isWhole ((c :: rest).take k) = true := by
    intro k some
    obtain ⟨k, rfl⟩ := Nat.exists_eq_succ_of_ne_zero (Nat.ne_of_gt some)
    exact isWhole_of_head? (List.cons_ne_nil _ _) first
  refine ⟨isPlain_ofDecimal negative d, ?_⟩
  rw [ofDecimal, same]
  split
  · exact isWhole_of_head? (List.cons_ne_nil _ _) first
  split
  · exact front (by omega)
  split
  · rfl
  · exact front Nat.one_pos

/-- A finite double is written as a number. -/
theorem isWritten_ofFloat? {x : Float} {n : Numeral} (finite : ofFloat? x = some n) :
    n.IsWritten := by
  obtain ⟨b, parts, written⟩ := Option.map_eq_some_iff.mp finite
  split at written
  · rw [← written]
    exact ⟨⟨List.forall_mem_singleton.mpr rfl, List.forall_mem_singleton.mpr rfl⟩, rfl⟩
  · next other =>
    rw [← written]
    have positive := Nat.pos_of_ne_zero other
    have isDouble := Decimal.Binary.isDouble_of_ofFloat? parts positive
    exact isWritten_ofDecimal _ (Decimal.shortest_pos isDouble)

end Json.Numeral

end ChassisCooling
