import LuaLowering.Decimal.Binary64
import Mathlib.Algebra.Order.Field.Power
import Mathlib.Algebra.Order.Field.Rat
import Mathlib.Tactic.FieldSimp
import Mathlib.Tactic.Linarith
import Mathlib.Tactic.Positivity
import Mathlib.Tactic.Ring
/-!
# Rounding to the nearest number

The reals that round to a number lie between the midpoints to its two neighbours (`Rounds`), so no number is closer to
them (`Rounds.closest`). `ofRatio` scales a quotient so that the last bit of the number is worth one, and rounds it to a
whole number (`roundEven_near`). What comes out is the nearest number, a tie goes to the even fraction, and from the
middle between the greatest number and the next power of two on it is infinity (`ofDecimal_roundsTo`).
-/
namespace LuaLowering.Decimal

theorem zpow_mul_toNat {b : ℚ} (nonzero : b ≠ 0) (z : ℤ) : b ^ z * b ^ (-z).toNat = b ^ z.toNat := by
  rw [← zpow_natCast, ← zpow_natCast, ← zpow_add₀ nonzero]
  congr 1
  omega

namespace Binary64

/-! ## Numbers and their neighbours -/

/-- The number with a magnitude, without its sign, in units of the smallest one. -/
def size (magnitude : Nat) : Nat :=
  (if magnitude / exponentWeight = 0 then magnitude % exponentWeight
    else exponentWeight + magnitude % exponentWeight) * 2 ^ (magnitude / exponentWeight - 1)

theorem size_succ (n : Nat) : size (n + 1) = size n + 2 ^ (n / exponentWeight - 1) := by
  have weight : exponentWeight = 0x10000000000000 := rfl
  unfold size
  by_cases carry : n % exponentWeight + 1 = exponentWeight
  · have next : (n + 1) / exponentWeight = n / exponentWeight + 1 ∧ (n + 1) % exponentWeight = 0 := by
      rw [weight] at *
      omega
    rw [next.1, next.2]
    generalize n % exponentWeight = fraction at carry
    cases n / exponentWeight with
    | zero =>
      simp
      omega
    | succ b =>
      simp only [Nat.add_one_ne_zero, if_false, Nat.add_sub_cancel, Nat.pow_succ]
      rw [← carry]
      ring
  · have next : (n + 1) / exponentWeight = n / exponentWeight ∧ (n + 1) % exponentWeight = n % exponentWeight + 1 := by
      rw [weight] at *
      omega
    rw [next.1, next.2]
    split <;> ring

theorem strictMono_size : StrictMono size := by
  apply strictMono_nat_of_lt_succ
  intro n
  rw [size_succ]
  exact Nat.lt_add_of_pos_right (Nat.two_pow_pos _)

/-- A real in units of a quarter of the smallest number, in which midpoints are whole. -/
def inQuarters (v : ℚ) : ℚ := v * 2 ^ 1076

/-- The midpoint between a magnitude and the one before it, in these units. -/
def midpoint (magnitude : Nat) : Nat := 2 * (size (magnitude - 1) + size magnitude)

theorem midpoint_lt {a b : Nat} (lt : a + 1 < b) : midpoint (a + 1) < midpoint b := by
  have first := strictMono_size (show a < b - 1 by omega)
  have second := strictMono_size lt
  unfold midpoint
  rw [Nat.add_sub_cancel]
  omega

/-- The reals that round to a magnitude lie between the midpoints to its neighbours. Those on a midpoint round to the
even one of the two. -/
def Rounds (magnitude : Nat) (v : ℚ) : Prop :=
  (midpoint magnitude : ℚ) ≤ inQuarters v ∧ inQuarters v ≤ midpoint (magnitude + 1) ∧
    (magnitude % 2 = 1 → (midpoint magnitude : ℚ) < inQuarters v ∧ inQuarters v < midpoint (magnitude + 1))

theorem Rounds.not_lt {a b : Nat} {v : ℚ} (first : Rounds a v) (second : Rounds b v) : ¬ a < b := by
  intro lt
  obtain ⟨-, below, belowOdd⟩ := first
  obtain ⟨above, -, aboveOdd⟩ := second
  by_cases next : b = a + 1
  · subst next
    -- of two neighbours one is odd, and it does not own the midpoint
    rcases Nat.mod_two_eq_zero_or_one a with even | odd
    · have strict := (aboveOdd (by omega)).1
      linarith
    · have strict := (belowOdd odd).2
      linarith
  · have apart : ((midpoint (a + 1) : Nat) : ℚ) < midpoint b := by
      exact_mod_cast midpoint_lt (by omega)
    linarith

/-- No real rounds to two numbers. -/
theorem Rounds.unique {a b : Nat} {v : ℚ} (first : Rounds a v) (second : Rounds b v) : a = b := by
  have notLess := first.not_lt second
  have notGreater := second.not_lt first
  omega

theorem Rounds.pos {magnitude : Nat} {v : ℚ} (rounds : Rounds magnitude v) (nonzero : 0 < magnitude) : 0 < v := by
  have positive : 0 < midpoint magnitude := by
    have := strictMono_size nonzero
    unfold midpoint
    omega
  have above : (0 : ℚ) < inQuarters v := lt_of_lt_of_le (by exact_mod_cast positive) rounds.1
  exact (mul_pos_iff_of_pos_right (by positivity)).mp above

theorem strictMono_inQuarters : StrictMono inQuarters := by
  intro v w lt
  exact mul_lt_mul_of_pos_right lt (by positivity)

section
variable {x : Binary64}

theorem mantissa_mul (x : Binary64) : x.mantissa * 2 ^ (x.biased - 1) = size x.magnitude := rfl

theorem biased_lt (notNan : x.isNan = false) (finite : x.isInfinite = false) : x.biased < maxBiased := by
  have weight : exponentWeight = 0x10000000000000 := rfl
  have weight' : signWeight = 0x8000000000000000 := rfl
  have top : maxBiased = 2047 := rfl
  have bound : x.magnitude < signWeight := Nat.mod_lt _ (by decide)
  have other : x.biased ≠ maxBiased := by
    intro same
    simp only [isNan, isInfinite, same, beq_self_eq_true, Bool.true_and, bne_eq_false_iff_eq] at notNan finite
    simp [notNan] at finite
  rw [top] at *
  rw [biased, weight] at *
  omega

theorem magnitude_of_isInfinite (infinite : x.isInfinite = true) : x.magnitude = maxBiased * exponentWeight := by
  simp only [isInfinite, Bool.and_eq_true, beq_iff_eq] at infinite
  have parts := Nat.div_add_mod x.magnitude exponentWeight
  rw [← biased, ← fraction, infinite.1, infinite.2, Nat.add_zero, Nat.mul_comm] at parts
  exact parts.symm

end

/-! ## The nearest number -/

/-- A finite number without its sign. -/
def absolute (x : Binary64) : ℚ := x.mantissa * 2 ^ x.exponent

/-- The number is what a real rounds to, its sign apart. No finite number is closer to the real; if another one is as
close, the last bit of the number is zero. From the middle between the greatest number and `2 ^ 1024` on, the number is
infinity. -/
structure RoundsTo (v : ℚ) (x : Binary64) : Prop where
  notNan : x.isNan = false
  infinite : x.isInfinite = true ↔ 2 ^ 1024 - 2 ^ 970 ≤ v
  closest : x.isInfinite = false → ∀ y : Binary64, y.biased < maxBiased → |v - x.absolute| ≤ |v - y.absolute|
  even : x.isInfinite = false → ∀ y : Binary64, y.biased < maxBiased → y.absolute ≠ x.absolute →
    |v - y.absolute| = |v - x.absolute| → x.fraction % 2 = 0

theorem inQuarters_shift (w : ℚ) {e : ℤ} {k : Nat} (shift : e + 1076 = k) : inQuarters (w * 2 ^ e) = w * 2 ^ k := by
  have power : (2 : ℚ) ^ e * 2 ^ 1076 = 2 ^ k := by
    rw [← zpow_natCast, ← zpow_natCast, ← zpow_add₀ (by norm_num), ← shift]
    rfl
  rw [inQuarters, mul_assoc, power]

theorem inQuarters_scaled (w : ℚ) (k : Nat) : inQuarters (w * 2 ^ (minExponent + k)) = 4 * (w * 2 ^ k) := by
  have shift : minExponent + k + 1076 = (k + 2 : Nat) := by
    rw [show minExponent = -1074 from rfl]
    omega
  rw [inQuarters_shift w shift]
  ring

theorem inQuarters_absolute (x : Binary64) : inQuarters x.absolute = 4 * size x.magnitude := by
  rw [absolute, exponent, inQuarters_scaled, ← mantissa_mul]
  push_cast
  rfl

/-- No number is closer to a real than the one it rounds to, and an odd one has no rival. -/
theorem Rounds.closest {a b : Nat} {v : ℚ} (rounds : Rounds a v) (other : a ≠ b) :
    |inQuarters v - 4 * size a| ≤ |inQuarters v - 4 * size b| ∧
      (|inQuarters v - 4 * size b| = |inQuarters v - 4 * size a| → a % 2 = 0) := by
  obtain ⟨above, below, odd⟩ := rounds
  rcases Nat.lt_or_gt_of_ne other with less | greater
  · have next : (size (a + 1) : ℚ) ≤ size b := by exact_mod_cast strictMono_size.monotone less
    have apart : (size a : ℚ) < size b := by exact_mod_cast strictMono_size less
    simp only [midpoint, Nat.add_sub_cancel] at below odd
    push_cast at below odd
    have right : inQuarters v - 4 * size b < 0 := by linarith
    rw [abs_of_neg right]
    refine ⟨abs_le.mpr ⟨by linarith, by linarith⟩, fun tie => ?_⟩
    by_contra notEven
    have strict := (odd (by omega)).2
    rcases abs_cases (inQuarters v - 4 * size a) with ⟨same, -⟩ | ⟨same, -⟩ <;> linarith
  · have next : (size b : ℚ) ≤ size (a - 1) := by exact_mod_cast strictMono_size.monotone (by omega)
    have apart : (size b : ℚ) < size a := by exact_mod_cast strictMono_size greater
    simp only [midpoint] at above odd
    push_cast at above odd
    have left : 0 < inQuarters v - 4 * size b := by linarith
    rw [abs_of_pos left]
    refine ⟨abs_le.mpr ⟨by linarith, by linarith⟩, fun tie => ?_⟩
    by_contra notEven
    have strict := (odd (by omega)).1
    rcases abs_cases (inQuarters v - 4 * size a) with ⟨same, -⟩ | ⟨same, -⟩ <;> linarith

theorem fraction_mod_two (x : Binary64) : x.fraction % 2 = x.magnitude % 2 := by
  have weight : exponentWeight = 0x10000000000000 := rfl
  rw [fraction, weight]
  omega

/-- The middle between the greatest number and the next power of two. -/
theorem midpoint_infinity : midpoint (maxBiased * exponentWeight) = 2 ^ 2100 - 2 ^ 2046 := by decide +kernel

theorem infinity_le_iff (v : ℚ) :
    (midpoint (maxBiased * exponentWeight) : ℚ) ≤ inQuarters v ↔ 2 ^ 1024 - 2 ^ 970 ≤ v := by
  have cast {a b : Nat} (le : b ≤ a) : ((2 ^ a - 2 ^ b : Nat) : ℚ) = 2 ^ a - 2 ^ b := by
    rw [Nat.cast_sub (Nat.pow_le_pow_right (by decide) le), Nat.cast_pow, Nat.cast_pow, Nat.cast_ofNat]
  have scaled : ((2 ^ 2100 - 2 ^ 2046 : Nat) : ℚ) = inQuarters (2 ^ 1024 - 2 ^ 970) := by
    have first : (2 : ℚ) ^ 2100 = 2 ^ 1024 * 2 ^ 1076 := pow_add 2 1024 1076
    have second : (2 : ℚ) ^ 2046 = 2 ^ 970 * 2 ^ 1076 := pow_add 2 970 1076
    rw [inQuarters, sub_mul, ← first, ← second, cast (by decide)]
  rw [midpoint_infinity, scaled]
  exact strictMono_inQuarters.le_iff_le

theorem Rounds.roundsTo {x : Binary64} {v : ℚ} (rounds : Rounds x.magnitude v) (finite : x.biased < maxBiased) :
    RoundsTo v x := by
  have notNan : x.isNan = false := by simp [isNan, finite.ne]
  have notInfinite : x.isInfinite = false := by simp [isInfinite, finite.ne]
  have below : x.magnitude < maxBiased * exponentWeight := (Nat.div_lt_iff_lt_mul (by decide)).mp finite
  have scale (w : ℚ) : |inQuarters v - inQuarters w| = |v - w| * 2 ^ 1076 := by
    rw [inQuarters, inQuarters, ← sub_mul, abs_mul, abs_of_pos (a := (2 : ℚ) ^ 1076) (by positivity)]
  have rival (y : Binary64) (other : y.absolute ≠ x.absolute) : x.magnitude ≠ y.magnitude := by
    intro same
    apply other
    apply strictMono_inQuarters.injective
    rw [inQuarters_absolute, inQuarters_absolute, same]
  refine ⟨notNan, ?_, fun _ y _ => ?_, fun _ y _ other tie => ?_⟩
  · rw [notInfinite, ← infinity_le_iff]
    refine iff_of_false nofun (not_le.mpr ?_)
    rcases Nat.lt_or_ge (x.magnitude + 1) (maxBiased * exponentWeight) with less | last
    · have apart : (midpoint (x.magnitude + 1) : ℚ) < midpoint (maxBiased * exponentWeight) := by
        exact_mod_cast midpoint_lt less
      exact lt_of_le_of_lt rounds.2.1 apart
    · -- the greatest number is odd, so the midpoint above it is infinity's
      have greatest : x.magnitude + 1 = maxBiased * exponentWeight := by omega
      have top : maxBiased * exponentWeight % 2 = 0 := by decide
      have strict := (rounds.2.2 (by omega)).2
      rwa [greatest] at strict
  · by_cases same : y.absolute = x.absolute
    · rw [same]
    · have close := (rounds.closest (rival y same)).1
      rw [← inQuarters_absolute, ← inQuarters_absolute, scale, scale] at close
      exact (mul_le_mul_iff_left₀ (by positivity)).mp close
  · have even := (rounds.closest (rival y other)).2
    rw [← inQuarters_absolute, ← inQuarters_absolute, scale, scale, tie] at even
    rw [fraction_mod_two]
    exact even rfl

/-! ## Rounding a quotient -/

theorem roundEven_bounds (n : Nat) {d : Nat} (positive : 0 < d) :
    2 * (roundEven n d * d) ≤ 2 * n + d ∧ 2 * n ≤ 2 * (roundEven n d * d) + d ∧
      (roundEven n d % 2 = 1 → 2 * (roundEven n d * d) < 2 * n + d ∧ 2 * n < 2 * (roundEven n d * d) + d) := by
  have parts := Nat.div_add_mod' n d
  have short := Nat.mod_lt n positive
  unfold roundEven
  generalize n / d = q at *
  generalize n % d = r at *
  have up : (q + 1) * d = q * d + d := by ring
  simp only
  split
  · omega
  · split
    · rw [up]
      omega
    · rcases Nat.mod_two_eq_zero_or_one q with even | odd
      · rw [even, Nat.add_zero]
        omega
      · rw [odd, up]
        omega

/-- The whole number that a quotient is rounded to is at most a half away, and less if it is odd. -/
theorem roundEven_near (n : Nat) {d : Nat} (positive : 0 < d) :
    (2 * roundEven n d : ℚ) ≤ 2 * (n / d) + 1 ∧ (2 * (n / d) : ℚ) ≤ 2 * roundEven n d + 1 ∧
      (roundEven n d % 2 = 1 →
        (2 * roundEven n d : ℚ) < 2 * (n / d) + 1 ∧ (2 * (n / d) : ℚ) < 2 * roundEven n d + 1) := by
  obtain ⟨above, below, odd⟩ := roundEven_bounds n positive
  have positive' : (0 : ℚ) < d := by exact_mod_cast positive
  rw [← Nat.cast_le (α := ℚ)] at above below
  rw [← Nat.cast_lt (α := ℚ), ← Nat.cast_lt (α := ℚ)] at odd
  generalize roundEven n d = m at *
  obtain ⟨w, ratio⟩ : ∃ w : ℚ, (n / d : ℚ) = w := ⟨_, rfl⟩
  have product : (n : ℚ) = w * d := by rw [← ratio, div_mul_cancel₀ _ positive'.ne']
  push_cast at above below odd
  rw [product] at above below odd
  rw [ratio]
  refine ⟨by nlinarith, by nlinarith, fun isOdd => ?_⟩
  obtain ⟨left, right⟩ := odd isOdd
  constructor <;> nlinarith

/-- A quotient in units of a power of two. -/
theorem ratio_eq_scaled (n : Nat) {d : Nat} (positive : 0 < d) (q : ℤ) :
    (n / d : ℚ) = (n * Nat.pow 2 (-q).toNat : Nat) / (d * Nat.pow 2 q.toNat : Nat) * 2 ^ q := by
  have power := zpow_mul_toNat (b := 2) (by norm_num) q
  have some_d : (d : ℚ) ≠ 0 := by exact_mod_cast positive.ne'
  have some_unit : (2 : ℚ) ^ q ≠ 0 := by positivity
  have some_rest : (2 : ℚ) ^ (-q).toNat ≠ 0 := by positivity
  push_cast [Nat.pow_eq]
  rw [← power]
  field_simp

theorem pow_le_ratio_iff {n d : Nat} (positive : 0 < d) (z : ℤ) :
    d * Nat.pow 2 z.toNat ≤ n * Nat.pow 2 (-z).toNat ↔ (2 : ℚ) ^ z ≤ n / d := by
  have power := zpow_mul_toNat (b := 2) (by norm_num) z
  have positive' : (0 : ℚ) < d := by exact_mod_cast positive
  rw [le_div_iff₀ positive', ← Nat.cast_le (α := ℚ)]
  push_cast [Nat.pow_eq]
  rw [← power]
  have factor : (0 : ℚ) < 2 ^ (-z).toNat := by positivity
  rw [← mul_assoc, mul_le_mul_iff_left₀ factor, mul_comm]

/-- A quotient lies between two powers of two. -/
theorem log2Ratio_bounds {n d : Nat} (some_n : 0 < n) (some_d : 0 < d) :
    (2 : ℚ) ^ log2Ratio n d ≤ n / d ∧ (n / d : ℚ) < 2 ^ (log2Ratio n d + 1) := by
  have positive : (0 : ℚ) < d := by exact_mod_cast some_d
  have lowN : (2 : ℚ) ^ (n.log2 : ℤ) ≤ n := by exact_mod_cast Nat.log2_self_le (by omega)
  have highN : (n : ℚ) < 2 ^ (n.log2 + 1 : ℤ) := by exact_mod_cast Nat.lt_log2_self
  have lowD : (2 : ℚ) ^ (d.log2 : ℤ) ≤ d := by exact_mod_cast Nat.log2_self_le (by omega)
  have highD : (d : ℚ) < 2 ^ (d.log2 + 1 : ℤ) := by exact_mod_cast Nat.lt_log2_self
  have decided := pow_le_ratio_iff (n := n) some_d (n.log2 - d.log2)
  unfold log2Ratio
  simp only
  split
  · rename_i reached
    refine ⟨decided.mp reached, ?_⟩
    rw [div_lt_iff₀ positive]
    calc (n : ℚ) < 2 ^ (n.log2 + 1 : ℤ) := highN
      _ = 2 ^ (n.log2 - d.log2 + 1 : ℤ) * 2 ^ (d.log2 : ℤ) := by
        rw [← zpow_add₀ (by norm_num)]
        congr 1
        ring
      _ ≤ 2 ^ (n.log2 - d.log2 + 1 : ℤ) * d := by gcongr
  · rename_i missed
    refine ⟨?_, ?_⟩
    · rw [le_div_iff₀ positive]
      calc (2 : ℚ) ^ (n.log2 - d.log2 - 1 : ℤ) * d ≤ 2 ^ (n.log2 - d.log2 - 1 : ℤ) * 2 ^ (d.log2 + 1 : ℤ) := by gcongr
        _ = 2 ^ (n.log2 : ℤ) := by
          rw [← zpow_add₀ (by norm_num)]
          congr 1
          ring
        _ ≤ n := lowN
    · rw [sub_add_cancel]
      exact not_le.mp fun reached => missed (decided.mpr reached)

/-- The number with `m` units, where the units are the smallest ones or `m` has 53 bits. -/
theorem size_scaled {k m : Nat} (full : k = 0 ∨ exponentWeight ≤ m) (bits : m ≤ 2 * exponentWeight) :
    size (k * exponentWeight + m) = m * 2 ^ k := by
  have weight : exponentWeight = 0x10000000000000 := rfl
  unfold size
  rw [weight] at full bits ⊢
  rcases Nat.lt_or_ge m 0x10000000000000 with small | large
  · have parts : (k * 0x10000000000000 + m) / 0x10000000000000 = 0 ∧
        (k * 0x10000000000000 + m) % 0x10000000000000 = m := by omega
    have least : k = 0 := by omega
    rw [parts.1, parts.2, least]
    rfl
  · rcases Nat.lt_or_ge m (2 * 0x10000000000000) with below | top
    · have parts : (k * 0x10000000000000 + m) / 0x10000000000000 = k + 1 ∧
          0x10000000000000 + (k * 0x10000000000000 + m) % 0x10000000000000 = m := by omega
      rw [parts.1, if_neg (Nat.succ_ne_zero k), parts.2, Nat.add_sub_cancel]
    · have parts : (k * 0x10000000000000 + m) / 0x10000000000000 = k + 2 ∧
          (k * 0x10000000000000 + m) % 0x10000000000000 = 0 ∧ m = 2 * 0x10000000000000 := by omega
      rw [parts.1, parts.2.1, parts.2.2, if_neg (by omega), show k + 2 - 1 = k + 1 from rfl, Nat.pow_succ]
      ring

/-- The midpoint above such a number is at least half a unit away. -/
theorem midpoint_above {k m : Nat} (full : k = 0 ∨ exponentWeight ≤ m) (bits : m ≤ 2 * exponentWeight) :
    (4 * m + 2) * 2 ^ k ≤ midpoint (k * exponentWeight + m + 1) := by
  have weight : exponentWeight = 0x10000000000000 := rfl
  have gap : 2 ^ k ≤ 2 ^ ((k * exponentWeight + m) / exponentWeight - 1) := by
    apply Nat.pow_le_pow_right (by decide)
    rw [weight] at full ⊢
    omega
  have split : (4 * m + 2) * 2 ^ k = 4 * (m * 2 ^ k) + 2 * 2 ^ k := by ring
  rw [midpoint, Nat.add_sub_cancel, size_succ, size_scaled full bits, split]
  omega

/-- The midpoint below it too, unless it is the first one with its units. -/
theorem midpoint_below {k m : Nat} (positive : 0 < m) (full : k = 0 ∨ exponentWeight ≤ m)
    (bits : m ≤ 2 * exponentWeight) :
    midpoint (k * exponentWeight + m) ≤ 4 * (m * 2 ^ k) ∧
      (k = 0 ∨ exponentWeight < m → midpoint (k * exponentWeight + m) + 2 * 2 ^ k ≤ 4 * (m * 2 ^ k)) := by
  have weight : exponentWeight = 0x10000000000000 := rfl
  obtain ⟨before, succ⟩ : ∃ n, k * exponentWeight + m = n + 1 := ⟨k * exponentWeight + m - 1, by omega⟩
  have step := size_succ before
  rw [← succ, size_scaled full bits] at step
  rw [midpoint, succ, Nat.add_sub_cancel, ← succ, size_scaled full bits]
  refine ⟨by have some_gap := Nat.two_pow_pos (before / exponentWeight - 1); omega, fun inside => ?_⟩
  have gap : 2 ^ k ≤ 2 ^ (before / exponentWeight - 1) := by
    apply Nat.pow_le_pow_right (by decide)
    rw [weight] at succ inside ⊢
    omega
  omega

/-- A real of at most 53 bits before its point, in some unit, rounds to the number with the whole number of units that
is nearest to it. -/
theorem rounds_scaled {k m : Nat} {w : ℚ} (nonneg : 0 ≤ w) (low : k = 0 ∨ (exponentWeight : ℚ) ≤ w)
    (high : w < 2 * exponentWeight) (above : (2 * m : ℚ) ≤ 2 * w + 1) (below : 2 * w ≤ 2 * m + 1)
    (odd : m % 2 = 1 → (2 * m : ℚ) < 2 * w + 1 ∧ 2 * w < 2 * m + 1) :
    Rounds (k * exponentWeight + m) (w * 2 ^ (minExponent + k)) := by
  have full : k = 0 ∨ exponentWeight ≤ m := by
    refine low.imp_right fun large => ?_
    have less : (2 * exponentWeight : ℚ) ≤ 2 * m + 1 := by linarith
    have less' : 2 * exponentWeight ≤ 2 * m + 1 := by exact_mod_cast less
    omega
  have bits : m ≤ 2 * exponentWeight := by
    have less : (2 * m : ℚ) < 4 * exponentWeight + 1 := by linarith
    have less' : 2 * m < 4 * exponentWeight + 1 := by exact_mod_cast less
    omega
  have parity : (k * exponentWeight + m) % 2 = m % 2 := by
    rw [show exponentWeight = 2 * 0x8000000000000 from rfl]
    omega
  have unit : (0 : ℚ) < 2 ^ k := by positivity
  have upper : ((4 * m + 2) * 2 ^ k : ℚ) ≤ midpoint (k * exponentWeight + m + 1) := by
    exact_mod_cast midpoint_above full bits
  rw [Rounds, inQuarters_scaled, parity]
  have first : (midpoint (k * exponentWeight + m) : ℚ) ≤ 4 * (w * 2 ^ k) ∧
      (m % 2 = 1 → (midpoint (k * exponentWeight + m) : ℚ) < 4 * (w * 2 ^ k)) := by
    rcases Nat.eq_zero_or_pos m with zero | positive
    · have least : k = 0 := by
        have weight : exponentWeight = 0x10000000000000 := rfl
        omega
      rw [zero, least]
      simp [midpoint, size, nonneg]
    · obtain ⟨near, inside⟩ := midpoint_below positive full bits
      by_cases within : k = 0 ∨ exponentWeight < m
      · have lower : (midpoint (k * exponentWeight + m) : ℚ) + 2 * 2 ^ k ≤ 4 * (m * 2 ^ k) := by
          exact_mod_cast inside within
        refine ⟨by nlinarith, fun isOdd => ?_⟩
        have strict := (odd isOdd).1
        nlinarith
      · -- the first number with these units: the real is not less
        have edge : exponentWeight = m := by omega
        have large := low.resolve_left (by omega)
        rw [edge] at large
        have lower : (midpoint (k * exponentWeight + m) : ℚ) ≤ 4 * (m * 2 ^ k) := by exact_mod_cast near
        refine ⟨by nlinarith, fun isOdd => ?_⟩
        rw [← edge] at isOdd
        exact absurd isOdd (by decide)
  refine ⟨first.1, by nlinarith, fun isOdd => ⟨first.2 isOdd, ?_⟩⟩
  have strict := (odd isOdd).2
  nlinarith

/-- `ofRatio` chooses the unit so that the quotient has 53 bits before its point, as far as there are such units. -/
theorem ratio_rounds {n d : Nat} (some_n : 0 < n) (some_d : 0 < d) {q : ℤ}
    (chosen : q = max (log2Ratio n d - fractionBits) minExponent) :
    Rounds ((q - minExponent).toNat * exponentWeight +
      roundEven (n * Nat.pow 2 (-q).toNat) (d * Nat.pow 2 q.toNat)) (n / d) := by
  have bits : fractionBits = 52 := rfl
  have weight : (exponentWeight : ℚ) = 2 ^ (52 : ℤ) := by
    rw [exponentWeight]
    norm_num
  obtain ⟨k, units⟩ : ∃ k : Nat, q = minExponent + k := ⟨(q - minExponent).toNat, by omega⟩
  obtain ⟨low, high⟩ := log2Ratio_bounds some_n some_d
  obtain ⟨above, below, odd⟩ := roundEven_near (n * Nat.pow 2 (-q).toNat) (Nat.mul_pos some_d (Nat.two_pow_pos q.toNat))
  have unit_pos : (0 : ℚ) < 2 ^ q := by positivity
  rw [ratio_eq_scaled n some_d q] at low high ⊢
  generalize ((n * Nat.pow 2 (-q).toNat : Nat) / (d * Nat.pow 2 q.toNat : Nat) : ℚ) = w at *
  have reach : k = 0 ∨ (exponentWeight : ℚ) ≤ w := by
    refine (Nat.eq_zero_or_pos k).imp_right fun some_k => ?_
    rw [weight, ← mul_le_mul_iff_left₀ unit_pos, ← zpow_add₀ (by norm_num)]
    exact le_trans (zpow_le_zpow_right₀ (by norm_num) (by omega)) low
  have bound : w < 2 * exponentWeight := by
    rw [weight, ← mul_lt_mul_iff_left₀ unit_pos, mul_assoc, ← zpow_add₀ (by norm_num), ← zpow_one_add₀ (by norm_num)]
    exact lt_of_lt_of_le high (zpow_le_zpow_right₀ (by norm_num) (by omega))
  have positive : 0 ≤ w := by
    have some_w := lt_of_lt_of_le (by positivity) low
    exact ((mul_pos_iff_of_pos_right unit_pos).mp some_w).le
  have rounds := rounds_scaled positive reach bound above below odd
  rwa [← units, show k = (q - minExponent).toNat by omega] at rounds

/-! ## Numbers from decimals -/

theorem magnitude_ofParts (negative : Bool) {magnitude : Nat} (bound : magnitude < signWeight) :
    (ofParts negative magnitude).magnitude = magnitude ∧ (ofParts negative magnitude).isNegative = negative := by
  have weight : signWeight = 0x8000000000000000 := rfl
  have size : UInt64.size = 0x10000000000000000 := rfl
  rw [weight] at bound
  cases negative with
  | false =>
    have bits : (UInt64.ofNat magnitude).toNat = magnitude := UInt64.toNat_ofNat_of_lt (by omega)
    show (UInt64.ofNat magnitude).toNat % signWeight = magnitude ∧
      decide (signWeight ≤ (UInt64.ofNat magnitude).toNat) = false
    rw [bits, weight, decide_eq_false_iff_not]
    omega
  | true =>
    have bits : (UInt64.ofNat (signWeight + magnitude)).toNat = signWeight + magnitude :=
      UInt64.toNat_ofNat_of_lt (by omega)
    show (UInt64.ofNat (signWeight + magnitude)).toNat % signWeight = magnitude ∧
      decide (signWeight ≤ (UInt64.ofNat (signWeight + magnitude)).toNat) = true
    rw [bits, weight, decide_eq_true_eq]
    omega

theorem roundsTo_infinity (negative : Bool) {v : ℚ} (large : 2 ^ 1024 - 2 ^ 970 ≤ v) :
    (infinity negative).isNegative = negative ∧ RoundsTo v (infinity negative) := by
  have parts : (infinity negative).isNegative = negative ∧ (infinity negative).isNan = false ∧
      (infinity negative).isInfinite = true := by
    cases negative <;> decide
  obtain ⟨sign, notNan, infinite⟩ := parts
  refine ⟨sign, notNan, iff_of_true infinite large, fun finite => ?_, fun finite => ?_⟩ <;>
    cases infinite.symm.trans finite

theorem roundsTo_ofParts (negative : Bool) {magnitude : Nat} {v : ℚ} (rounds : Rounds magnitude v)
    (finite : magnitude < maxBiased * exponentWeight) :
    (ofParts negative magnitude).isNegative = negative ∧ RoundsTo v (ofParts negative magnitude) := by
  obtain ⟨same, sign⟩ := magnitude_ofParts negative (lt_trans finite (by decide))
  refine ⟨sign, Rounds.roundsTo (same.symm ▸ rounds) ?_⟩
  rw [biased, same]
  exact (Nat.div_lt_iff_lt_mul (by decide)).mpr finite

theorem ofRatio_roundsTo (negative : Bool) {n d : Nat} (some_n : 0 < n) (some_d : 0 < d) :
    (ofRatio negative n d).isNegative = negative ∧ RoundsTo (n / d) (ofRatio negative n d) := by
  have rounds := ratio_rounds some_n some_d rfl
  unfold ofRatio
  simp only
  generalize ((_ : ℤ)).toNat * exponentWeight + _ = magnitude at *
  split
  · rename_i large
    have least : (midpoint (maxBiased * exponentWeight) : ℚ) ≤ midpoint magnitude := by
      rcases Nat.eq_or_lt_of_le large with same | less
      · rw [same]
      · exact_mod_cast (midpoint_lt (a := maxBiased * exponentWeight - 1) less).le
    exact roundsTo_infinity negative ((infinity_le_iff _).mp (le_trans least rounds.1))
  · rename_i finite
    exact roundsTo_ofParts negative rounds (Nat.not_le.mp finite)

theorem rounds_zero {v : ℚ} (nonneg : 0 ≤ v) (small : inQuarters v ≤ 2) : Rounds 0 v := by
  have first : midpoint 0 = 0 := by decide
  have second : midpoint 1 = 2 := by decide
  rw [Rounds, first, second]
  refine ⟨?_, by exact_mod_cast small, nofun⟩
  rw [inQuarters]
  positivity

/-- A number has as many digits as say between which powers of ten it lies. -/
theorem digits_bounds {n : Nat} (nonzero : n ≠ 0) :
    10 ^ ((Nat.toDigits 10 n).length - 1) ≤ n ∧ n < 10 ^ (Nat.toDigits 10 n).length := by
  have some_digit : 0 < (Nat.toDigits 10 n).length := Nat.length_toDigits_pos
  refine ⟨?_, (Nat.length_toDigits_le_iff (by decide) some_digit).mp (Nat.le_refl _)⟩
  generalize count : (Nat.toDigits 10 n).length - 1 = k
  cases k with
  | zero => exact Nat.pos_of_ne_zero nonzero
  | succ k =>
    refine Nat.not_lt.mp fun less => ?_
    have short := (Nat.length_toDigits_le_iff (by decide) k.succ_pos).mpr less
    omega

theorem decimal_bounds {n : Nat} (nonzero : n ≠ 0) (e : ℤ) :
    (10 : ℚ) ^ ((Nat.toDigits 10 n).length + e - 1) ≤ n * 10 ^ e ∧
      (n * 10 ^ e : ℚ) < 10 ^ ((Nat.toDigits 10 n).length + e) := by
  have some_digit : 0 < (Nat.toDigits 10 n).length := Nat.length_toDigits_pos
  obtain ⟨least, less⟩ := digits_bounds nonzero
  generalize (Nat.toDigits 10 n).length = places at *
  have split : (places + e - 1 : ℤ) = (places - 1 : Nat) + e := by omega
  have least' : (10 : ℚ) ^ (places - 1) ≤ n := by exact_mod_cast least
  have less' : (n : ℚ) < 10 ^ places := by exact_mod_cast less
  rw [split, zpow_add₀ (by norm_num), zpow_add₀ (by norm_num), zpow_natCast, zpow_natCast]
  exact ⟨by gcongr, by gcongr⟩

/-- A decimal is read as the number nearest to it. -/
theorem ofDecimal_roundsTo (negative : Bool) (n : Nat) (e : ℤ) :
    (ofDecimal negative n e).isNegative = negative ∧ RoundsTo (n * 10 ^ e) (ofDecimal negative n e) := by
  have nonneg : (0 : ℚ) ≤ n * 10 ^ e := by positivity
  by_cases zero : n = 0
  · have made : ofDecimal negative n e = ofParts negative 0 := by simp [ofDecimal, zero, Binary64.zero]
    rw [made]
    exact roundsTo_ofParts negative (rounds_zero nonneg (by simp [inQuarters, zero])) (by decide)
  obtain ⟨least, less⟩ := decimal_bounds zero e
  unfold ofDecimal
  simp only [zero, decide_false, Bool.false_or, decide_eq_true_eq]
  generalize ((Nat.toDigits 10 n).length : ℤ) + e = places at *
  split
  · -- less than half of the smallest number
    rename_i tiny
    have power : (10 : ℚ) ^ places ≤ (10 ^ 331)⁻¹ := by
      rw [← zpow_natCast, ← zpow_neg]
      exact zpow_le_zpow_right₀ (by norm_num) (by omega)
    have scale : (2 : ℚ) ^ 1075 ≤ 10 ^ 331 := by exact_mod_cast (by decide +kernel : 2 ^ 1075 ≤ 10 ^ 331)
    refine roundsTo_ofParts negative (rounds_zero nonneg ?_) (by decide)
    calc inQuarters (n * 10 ^ e) ≤ (10 ^ 331)⁻¹ * 2 ^ 1076 := by
          exact mul_le_mul_of_nonneg_right (le_trans less.le power) (by positivity)
      _ = (10 ^ 331)⁻¹ * 2 ^ 1075 * 2 := by rw [mul_assoc, ← pow_succ]
      _ ≤ 1 * 2 := by
          gcongr
          rwa [inv_mul_le_iff₀ (by positivity), mul_one]
      _ = 2 := one_mul 2
  · split
    · -- beyond the greatest number
      rename_i huge
      have power : (10 : ℚ) ^ 320 ≤ 10 ^ (places - 1) := by
        rw [← zpow_natCast]
        exact zpow_le_zpow_right₀ (by norm_num) (by omega)
      have scale : (2 : ℚ) ^ 1024 ≤ 10 ^ 320 := by exact_mod_cast (by decide +kernel : 2 ^ 1024 ≤ 10 ^ 320)
      have positive : (0 : ℚ) ≤ 2 ^ 970 := by positivity
      exact roundsTo_infinity negative ((sub_le_self _ positive).trans (scale.trans (power.trans least)))
    · have ratio : (n * 10 ^ e : ℚ) = (n * Nat.pow 10 e.toNat : Nat) / (Nat.pow 10 (-e).toNat : Nat) := by
        have power := zpow_mul_toNat (b := 10) (by norm_num) e
        have some_rest : (10 : ℚ) ^ (-e).toNat ≠ 0 := by positivity
        push_cast [Nat.pow_eq]
        rw [← power]
        field_simp
      rw [ratio]
      exact ofRatio_roundsTo negative (Nat.mul_pos (Nat.pos_of_ne_zero zero) (Nat.pow_pos (by decide)))
        (Nat.pow_pos (by decide))

end Binary64
end LuaLowering.Decimal
