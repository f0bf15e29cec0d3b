import LuaLowering.Module.Value
import LuaLowering.Proofs.Delimiters
import LuaLowering.Proofs.NumeralText
import LuaLowering.Proofs.Rounding
/-!
# Shortest decimals

The search for the shortest decimal ends with one that rounds to the number (`shortest_rounds`), and no real rounds to
two numbers (`Rounds.unique`), so no decimal is written for two numbers: apart from NaN, a number can be told from its
text (`render_number_inj`).
-/
namespace LuaLowering.Decimal

/-! ## Intervals -/

namespace Interval
variable (i : Interval) (p : ℤ)

/-- The measure in which units and steps of the grid are whole. -/
def measure : ℚ := 2 ^ (-i.unit).toNat * 10 ^ (-p).toNat

theorem measure_pos : 0 < i.measure p := by
  unfold measure
  positivity

theorem cast_onGrid (n : Nat) : (i.onGrid p n : ℚ) = n * 2 ^ i.unit * i.measure p := by
  have two := zpow_mul_toNat (b := 2) (by norm_num) i.unit
  unfold onGrid measure
  simp only [Nat.pow_eq, Nat.cast_mul, Nat.cast_pow, Nat.cast_ofNat]
  rw [← two]
  ring

theorem cast_scale (d : Nat) : ((d * i.scale p : Nat) : ℚ) = d * 10 ^ p * i.measure p := by
  have ten := zpow_mul_toNat (b := 10) (by norm_num) p
  unfold scale measure
  simp only [Nat.pow_eq, Nat.cast_mul, Nat.cast_pow, Nat.cast_ofNat]
  rw [← ten]
  ring

variable {i p}

theorem onGrid_le_iff {n d : Nat} : i.onGrid p n ≤ d * i.scale p ↔ (n : ℚ) * 2 ^ i.unit ≤ d * 10 ^ p := by
  rw [← Nat.cast_le (α := ℚ), cast_onGrid, cast_scale, mul_le_mul_iff_of_pos_right (i.measure_pos p)]

theorem le_onGrid_iff {n d : Nat} : d * i.scale p ≤ i.onGrid p n ↔ (d : ℚ) * 10 ^ p ≤ n * 2 ^ i.unit := by
  rw [← Nat.cast_le (α := ℚ), cast_onGrid, cast_scale, mul_le_mul_iff_of_pos_right (i.measure_pos p)]

theorem holds_iff {d : Nat} : i.holds p d = true ↔
    (i.lower : ℚ) * 2 ^ i.unit ≤ d * 10 ^ p ∧ (d : ℚ) * 10 ^ p ≤ i.upper * 2 ^ i.unit ∧
      (i.closed = false → (i.lower : ℚ) * 2 ^ i.unit < d * 10 ^ p ∧ (d : ℚ) * 10 ^ p < i.upper * 2 ^ i.unit) := by
  rw [← onGrid_le_iff, ← le_onGrid_iff, ← not_le, ← not_le, ← onGrid_le_iff, ← le_onGrid_iff, not_le, not_le]
  unfold holds
  cases i.closed <;> simp
  omega

theorem nearest?_holds {tie : Tie} {d : Nat} (found : i.nearest? tie p = some d) : i.holds p d = true := by
  unfold nearest? at found
  simp only at found
  split at found
  · cases found
  · rename_i here _
    cases found
    exact here
  · rename_i _ above
    cases found
    exact above
  · rename_i here above
    split at found
    · cases found
      exact here
    · split at found
      · cases found
        exact above
      · split at found
        · cases found
          exact above
        · cases found
          rcases Nat.mod_two_eq_zero_or_one (i.onGrid p i.middle / i.scale p) with even | odd
          · rw [even]
            exact here
          · rw [odd]
            exact above

theorem scale_pos : 0 < i.scale p := by
  unfold scale
  simp only [Nat.pow_eq]
  positivity

/-- A grid whose steps are less than the two units above the middle has a decimal in the interval. -/
theorem nearest?_isSome (tie : Tie) (below : i.lower < i.middle) (above : i.upper = i.middle + 2)
    (fine : (10 : ℚ) ^ p < 2 * 2 ^ i.unit) : (i.nearest? tie p).isSome = true := by
  have holds : i.holds p (i.onGrid p i.middle / i.scale p + 1) = true := by
    have floor : i.onGrid p i.middle / i.scale p * i.scale p ≤ i.onGrid p i.middle := Nat.div_mul_le_self ..
    have next : ¬ (i.onGrid p i.middle / i.scale p + 1) * i.scale p ≤ i.onGrid p i.middle := by
      rw [not_le, ← Nat.div_lt_iff_lt_mul scale_pos]
      exact Nat.lt_succ_self _
    rw [le_onGrid_iff] at floor next
    generalize i.onGrid p i.middle / i.scale p = d at floor next
    have unit : (0 : ℚ) < 2 ^ i.unit := by positivity
    have lower : (i.lower : ℚ) * 2 ^ i.unit < i.middle * 2 ^ i.unit :=
      mul_lt_mul_of_pos_right (by exact_mod_cast below) unit
    have upper : (i.upper : ℚ) * 2 ^ i.unit = i.middle * 2 ^ i.unit + 2 * 2 ^ i.unit := by
      rw [above]
      push_cast
      ring
    rw [holds_iff, upper]
    push_cast at next ⊢
    rw [add_mul, one_mul] at *
    have first : (i.lower : ℚ) * 2 ^ i.unit < d * 10 ^ p + 10 ^ p := by linarith
    have second : (d : ℚ) * 10 ^ p + 10 ^ p < i.middle * 2 ^ i.unit + 2 * 2 ^ i.unit := by linarith
    exact ⟨first.le, second.le, fun _ => ⟨first, second⟩⟩
  unfold nearest?
  simp only [holds]
  cases i.holds p (i.onGrid p i.middle / i.scale p) with
  | false => rfl
  | true =>
    simp only
    split
    · rfl
    · split
      · rfl
      · cases tie <;> rfl

/-- The search ends with a decimal in the interval, if it reaches a grid that is fine enough. -/
theorem search_holds (tie : Tie) (below : i.lower < i.middle) (above : i.upper = i.middle + 2) {fuel : Nat} {p : ℤ}
    (fine : (10 : ℚ) ^ (p - fuel) < 2 * 2 ^ i.unit) :
    i.holds (i.search tie (fuel + 1) p).exponent (i.search tie (fuel + 1) p).digits = true := by
  induction fuel generalizing p with
  | zero =>
    have found := nearest?_isSome tie below above (by simpa using fine)
    obtain ⟨d, found⟩ := Option.isSome_iff_exists.mp found
    rw [search, found]
    exact nearest?_holds found
  | succ fuel ih =>
    rw [search]
    cases found : i.nearest? tie p with
    | some d => exact nearest?_holds found
    | none =>
      apply ih
      have same : p - 1 - (fuel : ℤ) = p - ((fuel + 1 : Nat) : ℤ) := by
        push_cast
        ring
      rw [same]
      exact fine

/-- The search for the first digit ends at it, or takes all its steps. -/
theorem magnitude_cases (i : Interval) (fuel : Nat) (p : ℤ) :
    (10 : ℚ) ^ i.magnitude fuel p ≤ i.middle * 2 ^ i.unit ∨ i.magnitude fuel p = p - fuel := by
  induction fuel generalizing p with
  | zero => simp [magnitude]
  | succ fuel ih =>
    rw [magnitude]
    split
    · rename_i reached
      left
      have := (le_onGrid_iff (i := i) (p := p) (n := i.middle) (d := 1)).mp (by rwa [one_mul])
      simpa using this
    · refine (ih (p - 1)).imp id fun ended => ?_
      rw [ended]
      push_cast
      ring

end Interval

/-- Ten is less than the power of two with the exponent `100000 / 30103`, by a factor that no exponent of a number makes
greater than `10 ^ 8`. -/
theorem ten_zpow_le (e : ℤ) (low : -1100 ≤ e) (high : e ≤ 1100) : (10 : ℚ) ^ (e * 30103 / 100000 - 8) ≤ 2 ^ e := by
  by_cases positive : 0 ≤ e
  · -- thousands are less than the tenth powers of two
    obtain ⟨c, tens, twos⟩ : ∃ c : ℕ, e * 30103 / 100000 - 8 ≤ 3 * c ∧ 10 * (c : ℤ) ≤ e :=
      ⟨((e * 30103 / 100000 - 8 + 2) / 3).toNat, by omega, by omega⟩
    calc (10 : ℚ) ^ (e * 30103 / 100000 - 8)
      _ ≤ 10 ^ (3 * c : ℤ) := zpow_le_zpow_right₀ (by norm_num) tens
      _ = (10 ^ 3) ^ c := by rw [zpow_mul]; norm_cast
      _ ≤ (2 ^ 10) ^ c := pow_le_pow_left₀ (by norm_num) (by norm_num) c
      _ = 2 ^ (10 * c : ℤ) := by rw [zpow_mul]; norm_cast
      _ ≤ 2 ^ e := zpow_le_zpow_right₀ (by norm_num) twos
  · -- `2 ^ 93` is a little less than `10 ^ 28`, and eight is less than ten
    obtain ⟨c, r, tens, twos⟩ : ∃ c r : ℕ, e * 30103 / 100000 - 8 ≤ -(28 * c + r) ∧ -(93 * c + 3 * r : ℤ) ≤ e :=
      ⟨(-e).toNat / 93, ((-e).toNat % 93 + 2) / 3, by omega, by omega⟩
    have less : ((2 : ℚ) ^ 93) ^ c * (2 ^ 3) ^ r ≤ (10 ^ 28) ^ c * 10 ^ r := by
      gcongr <;> norm_num
    calc (10 : ℚ) ^ (e * 30103 / 100000 - 8)
      _ ≤ 10 ^ (-(28 * c + r) : ℤ) := zpow_le_zpow_right₀ (by norm_num) tens
      _ = ((10 ^ 28) ^ c * 10 ^ r)⁻¹ := by
        rw [zpow_neg, zpow_add₀ (by norm_num), zpow_mul]
        norm_cast
      _ ≤ ((2 ^ 93) ^ c * (2 ^ 3) ^ r)⁻¹ := inv_anti₀ (by positivity) less
      _ = 2 ^ (-(93 * c + 3 * r) : ℤ) := by
        rw [zpow_neg, zpow_add₀ (by norm_num), zpow_mul, zpow_mul]
        norm_cast
      _ ≤ 2 ^ e := zpow_le_zpow_right₀ (by norm_num) twos

namespace Binary64
variable (x : Binary64)

theorem upper_eq : x.interval.upper * 2 ^ (x.biased - 1) = midpoint (x.magnitude + 1) := by
  rw [midpoint, Nat.add_sub_cancel, size_succ, ← mantissa_mul, ← biased]
  show (4 * x.mantissa + 2) * _ = _
  ring

theorem lower_eq (nonzero : 0 < x.magnitude) : x.interval.lower * 2 ^ (x.biased - 1) = midpoint x.magnitude := by
  have weight : exponentWeight = 0x10000000000000 := rfl
  obtain ⟨n, succ⟩ : ∃ n, x.magnitude = n + 1 := ⟨x.magnitude - 1, by omega⟩
  have step := size_succ n
  rw [← succ] at step
  have whole := x.mantissa_mul
  rw [midpoint, succ, Nat.add_sub_cancel, ← succ]
  show (4 * x.mantissa - (if (x.fraction = 0 && 1 < x.biased : Bool) then 1 else 2)) * _ = _
  rw [Nat.sub_mul, Nat.mul_assoc, whole]
  split
  · rename_i power
    have gap : 2 ^ (x.biased - 1) = 2 * 2 ^ (n / exponentWeight - 1) := by
      simp only [Bool.and_eq_true, decide_eq_true_eq, fraction, biased, weight] at power ⊢
      rw [← Nat.pow_succ']
      congr 1
      omega
    omega
  · rename_i power
    have gap : 2 ^ (x.biased - 1) = 2 ^ (n / exponentWeight - 1) := by
      simp only [Bool.and_eq_true, decide_eq_true_eq, fraction, biased, weight] at power ⊢
      congr 1
      omega
    omega

theorem closed_eq : x.interval.closed = decide (x.magnitude % 2 = 0) := by
  have weight : exponentWeight = 0x10000000000000 := rfl
  show decide (x.mantissa % 2 = 0) = _
  congr 1
  simp only [mantissa, fraction, weight, eq_iff_iff]
  split <;> omega

theorem inQuarters_unit (n : Nat) : inQuarters (n * 2 ^ x.interval.unit) = (n * 2 ^ (x.biased - 1) : Nat) := by
  have shift : x.interval.unit + 1076 = ((x.biased - 1 : Nat) : ℤ) := by
    show minExponent + _ - 2 + 1076 = _
    rw [show minExponent = -1074 from rfl]
    omega
  rw [inQuarters_shift n shift, Nat.cast_mul, Nat.cast_pow, Nat.cast_ofNat]

/-- The decimals of the interval round to the number. -/
theorem rounds_of_holds (nonzero : 0 < x.magnitude) {p : ℤ} {d : Nat} (holds : x.interval.holds p d = true) :
    Rounds x.magnitude (d * 10 ^ p) := by
  obtain ⟨above, below, strict⟩ := Interval.holds_iff.mp holds
  have lower := x.inQuarters_unit x.interval.lower
  have upper := x.inQuarters_unit x.interval.upper
  rw [lower_eq x nonzero] at lower
  rw [upper_eq] at upper
  rw [Rounds, ← lower, ← upper]
  refine ⟨strictMono_inQuarters.monotone above, strictMono_inQuarters.monotone below, fun odd => ?_⟩
  obtain ⟨first, second⟩ := strict (by simp [closed_eq, odd])
  exact ⟨strictMono_inQuarters first, strictMono_inQuarters second⟩

end Binary64

namespace Scientific

def value (s : Scientific) : ℚ := s.digits * 10 ^ s.exponent

theorem value_trim (fuel : Nat) (s : Scientific) : (s.trim fuel).value = s.value := by
  induction fuel generalizing s with
  | zero => rfl
  | succ fuel ih =>
    rw [trim]
    split
    · rename_i zero
      have split : (s.digits : ℚ) = (s.digits / 10 : Nat) * 10 := by
        exact_mod_cast (Nat.div_mul_cancel (Nat.dvd_of_mod_eq_zero zero)).symm
      rw [ih, value, value, split, zpow_add_one₀ (by norm_num)]
      ring
    · rfl

end Scientific

namespace Binary64
variable {x : Binary64}

theorem mantissa_pos (nonzero : 0 < x.magnitude) : 0 < x.mantissa := by
  have weight : exponentWeight = 0x10000000000000 := rfl
  simp only [mantissa, biased, fraction, weight]
  split <;> omega

theorem mantissa_lt : x.mantissa < 2 ^ 53 := by
  have weight : exponentWeight = 0x10000000000000 := rfl
  simp only [mantissa, biased, fraction, weight]
  split <;> omega

/-- The first grid of the search is at most a hundred times coarser than the number. -/
theorem ten_zpow_magnitude_le (nonzero : 0 < x.magnitude) (finite : x.biased < maxBiased) :
    (10 : ℚ) ^ x.interval.magnitude 8 ((x.interval.middle.log2 + x.interval.unit) * 30103 / 100000 + 2) ≤
      100 * (x.interval.middle * 2 ^ x.interval.unit) := by
  have middle : x.interval.middle = 4 * x.mantissa := rfl
  have unit : x.interval.unit = -1076 + ((x.biased - 1 : Nat) : ℤ) := by
    show minExponent + _ - 2 = _
    rw [show minExponent = -1074 from rfl]
    omega
  have positive := mantissa_pos nonzero
  rcases x.interval.magnitude_cases 8 ((x.interval.middle.log2 + x.interval.unit) * 30103 / 100000 + 2) with
    reached | ended
  · have : (0 : ℚ) ≤ x.interval.middle * 2 ^ x.interval.unit := by positivity
    linarith
  · have log : x.interval.middle.log2 < 55 := by
      rw [Nat.log2_lt (by omega), middle]
      have := mantissa_lt (x := x)
      omega
    rw [show maxBiased = 2047 from rfl] at finite
    have bound := ten_zpow_le (x.interval.middle.log2 + x.interval.unit) (by omega) (by omega)
    have power : (2 : ℚ) ^ x.interval.middle.log2 ≤ x.interval.middle := by
      exact_mod_cast Nat.log2_self_le (by omega)
    rw [ended]
    generalize (x.interval.middle.log2 + x.interval.unit) * 30103 / 100000 = t at bound ⊢
    calc (10 : ℚ) ^ (t + 2 - (8 : Nat))
      _ = 100 * 10 ^ (t - 8) := by
        rw [show t + 2 - ((8 : Nat) : ℤ) = 2 + (t - 8) by push_cast; ring, zpow_add₀ (by norm_num)]
        norm_num
      _ ≤ 100 * 2 ^ (x.interval.middle.log2 + x.interval.unit) := by gcongr
      _ = 100 * (2 ^ x.interval.middle.log2 * 2 ^ x.interval.unit) := by
        rw [zpow_add₀ (by norm_num), zpow_natCast]
      _ ≤ 100 * (x.interval.middle * 2 ^ x.interval.unit) := by gcongr

/-- The shortest decimal rounds to the number. -/
theorem shortest_rounds (tie : Tie) (nonzero : 0 < x.magnitude) (finite : x.biased < maxBiased) :
    Rounds x.magnitude (shortest tie x).value := by
  have positive := mantissa_pos nonzero
  have coarse := ten_zpow_magnitude_le nonzero finite
  unfold shortest
  simp only
  generalize x.interval.magnitude 8 _ = p at coarse ⊢
  have below : x.interval.lower < x.interval.middle := by
    show 4 * x.mantissa - _ < 4 * x.mantissa
    split <;> omega
  have fine : (10 : ℚ) ^ (p - (19 : Nat)) < 2 * 2 ^ x.interval.unit := by
    have size : (x.interval.middle : ℚ) ≤ 2 ^ 55 := by
      have := mantissa_lt (x := x)
      exact_mod_cast (show 4 * x.mantissa ≤ 2 ^ 55 by omega)
    have unit : (0 : ℚ) < 2 ^ x.interval.unit := by positivity
    calc (10 : ℚ) ^ (p - (19 : Nat))
      _ = 10 ^ p / 10 ^ 19 := by
        rw [zpow_sub₀ (by norm_num), zpow_natCast]
      _ ≤ 100 * (2 ^ 55 * 2 ^ x.interval.unit) / 10 ^ 19 := by
        gcongr
        exact coarse.trans (by gcongr)
      _ < 2 * 2 ^ x.interval.unit := by
        rw [div_lt_iff₀ (by norm_num)]
        linarith
  have holds := Interval.search_holds tie below rfl fine
  rw [Scientific.value_trim]
  exact rounds_of_holds x nonzero holds

end Binary64
/-! ## Decimals in writing -/

/-- The decimal that a text without a sign writes, before it is rounded. -/
def written? (text : List Char) : Option Scientific :=
  let whole := text.takeWhile Char.isDigit
  let rest := text.dropWhile Char.isDigit
  let (part, rest) := match rest with
    | '.' :: s => (s.takeWhile Char.isDigit, s.dropWhile Char.isDigit)
    | s => ([], s)
  if (whole ++ part).isEmpty then none
  else (exponent? rest).map fun e => ⟨Text.natOfDigits 10 (whole ++ part), e - part.length⟩

section Texts
variable {whole part tail : List Char} {e : ℤ}

theorem written?_whole (written : Digits whole) (ending : Tail tail) (exponent : exponent? tail = some e) :
    written? (whole ++ tail) = some ⟨Text.natOfDigits 10 whole, e⟩ := by
  obtain ⟨read, left⟩ := span_digits written.2 ending.stop
  simp only [written?, read, left]
  split
  · exact absurd rfl (ending.ne_point _)
  · simp [written.1, exponent]

theorem written?_point (written : Digits (whole ++ part)) (ending : Tail tail) (exponent : exponent? tail = some e) :
    written? (whole ++ '.' :: (part ++ tail)) = some ⟨Text.natOfDigits 10 (whole ++ part), e - part.length⟩ := by
  have before : ∀ c ∈ whole, c.isDigit = true := fun c member => written.2 c (by simp [member])
  have after : ∀ c ∈ part, c.isDigit = true := fun c member => written.2 c (by simp [member])
  have stop : ∀ c, ('.' :: (part ++ tail)).head? = some c → c.isDigit = false := by
    rintro c ⟨⟩
    rfl
  obtain ⟨read, left⟩ := span_digits before stop
  obtain ⟨read', left'⟩ := span_digits after ending.stop
  have some_digit : ¬ (whole ++ part).isEmpty = true := by simpa using written.1
  simp only [written?, read, left, read', left', exponent, if_neg some_digit, Option.map_some]

theorem digits_toDigits (n : Nat) : Digits (Nat.toDigits 10 n) :=
  ⟨Nat.toDigits_ne_nil, fun _ => Text.isDigit_of_mem_decimal⟩

theorem natOfDigits_decimal (n : Nat) : Text.natOfDigits 10 (Nat.toDigits 10 n) = n :=
  Text.natOfDigits_toDigits (by decide) (by decide) n

theorem natOfDigits_zeros (n : Nat) : Text.natOfDigits 10 (List.replicate n '0') = 0 := by
  induction n with
  | zero => rfl
  | succ n ih =>
    rw [List.replicate_succ, ← List.singleton_append, Text.natOfDigits_append, ih]
    simp [Text.natOfDigits, Text.digitValue]

theorem digits_padded {ds : List Char} (digits : Digits ds) (i j : Nat) :
    Digits (List.replicate i '0' ++ ds ++ List.replicate j '0') := by
  refine ⟨by simp [digits.1], fun c member => ?_⟩
  simp only [List.mem_append, List.mem_replicate] at member
  rcases member with (⟨-, rfl⟩ | member) | ⟨-, rfl⟩
  · rfl
  · exact digits.2 c member
  · rfl

theorem natOfDigits_padded (ds : List Char) (i j : Nat) :
    Text.natOfDigits 10 (List.replicate i '0' ++ ds ++ List.replicate j '0') = Text.natOfDigits 10 ds * 10 ^ j := by
  rw [Text.natOfDigits_append, Text.natOfDigits_append, natOfDigits_zeros, natOfDigits_zeros, Nat.zero_mul,
    Nat.zero_add, Nat.add_zero, List.length_replicate]

theorem nat?_toDigits (n : Nat) : nat? (Nat.toDigits 10 n) = some n := by
  have all : (Nat.toDigits 10 n).all Char.isDigit = true := List.all_eq_true.mpr (digits_toDigits n).2
  simp [nat?, all, natOfDigits_decimal]

end Texts

namespace Format

/-- The sign of an exponent. -/
def exponentSign (f : Format) (power : ℤ) : List Char := if power < 0 then ['-'] else if f.plus then ['+'] else []

theorem exponent?_sign (f : Format) (power : ℤ) :
    exponent? ('e' :: (f.exponentSign power ++ Nat.toDigits 10 power.natAbs)) = some power := by
  have digits := nat?_toDigits power.natAbs
  show int? (f.exponentSign power ++ Nat.toDigits 10 power.natAbs) = some power
  unfold exponentSign
  split
  · simp only [List.singleton_append, int?, splitSign, digits]
    change some (-(power.natAbs : ℤ)) = some power
    congr 1
    omega
  · have positive : some (power.natAbs : ℤ) = some power := by
      congr 1
      omega
    split
    · simp only [List.singleton_append, int?, splitSign, digits]
      exact positive
    · have plain := splitSign_of_digits (digits_toDigits power.natAbs) []
      rw [List.append_nil] at plain
      simp only [List.nil_append, int?, plain, digits]
      exact positive

theorem tail_sign (f : Format) (power : ℤ) : Tail ('e' :: (f.exponentSign power ++ Nat.toDigits 10 power.natAbs)) := by
  refine .exponent (.inl rfl) ?_ (digits_toDigits _)
  unfold exponentSign
  split
  · exact .inr (.inr rfl)
  · split
    · exact .inr (.inl rfl)
    · exact .inl rfl

/-- The text writes the number. -/
def Writes (text : List Char) (v : ℚ) : Prop := ∃ s, written? text = some s ∧ s.value = v

/-- Digits between zeros, with a point among them. -/
theorem writes_point {whole part ds : List Char} (digits : Digits ds) {i j : Nat}
    (row : whole ++ part = List.replicate i '0' ++ ds ++ List.replicate j '0') {e : ℤ} (places : j - part.length = e) :
    Writes (whole ++ '.' :: part) (Text.natOfDigits 10 ds * 10 ^ e) := by
  have read := written?_point (row ▸ digits_padded digits i j) .nil rfl
  rw [List.append_nil, row, natOfDigits_padded] at read
  refine ⟨_, read, ?_⟩
  rw [Scientific.value, Nat.cast_mul, Nat.cast_pow, Nat.cast_ofNat, mul_assoc, ← zpow_natCast,
    ← zpow_add₀ (by norm_num), ← places, zero_sub, sub_eq_add_neg]

theorem positional_writes (n : Nat) (e : ℤ) :
    Writes (positional (Nat.toDigits 10 n) (e + ((Nat.toDigits 10 n).length - 1 : Nat))) (n * 10 ^ e) := by
  have some_digit : 0 < (Nat.toDigits 10 n).length := Nat.length_toDigits_pos
  have number := natOfDigits_decimal n
  have digits := digits_toDigits n
  generalize Nat.toDigits 10 n = ds at *
  rw [← number]
  unfold positional
  split
  · -- zeros between the point and the digits
    generalize places : (-(e + (ds.length - 1 : Nat)) - 1).toNat = zeros
    show Writes (['0'] ++ '.' :: (List.replicate zeros '0' ++ ds)) _
    refine writes_point digits (i := zeros + 1) (j := 0) ?_ ?_
    · simp [List.replicate_succ]
    · rw [List.length_append, List.length_replicate]
      omega
  · simp only
    generalize places : (e + (ds.length - 1 : Nat)).toNat + 1 = count
    by_cases all : ds.length ≤ count
    · -- zeros between the digits and the point
      rw [List.take_of_length_le all, List.drop_of_length_le all, List.isEmpty_nil, if_pos rfl]
      refine writes_point digits (i := 0) (j := count - ds.length + 1) ?_ ?_
      · simp [List.replicate_succ']
      · rw [List.length_singleton]
        omega
    · rw [Nat.sub_eq_zero_of_le (by omega), List.replicate_zero, List.append_nil]
      have some_part : ¬ (ds.drop count).isEmpty = true := by
        simp
        omega
      rw [if_neg some_part]
      refine writes_point digits (i := 0) (j := 0) (by simp) ?_
      rw [List.length_drop]
      omega

theorem scientific_writes (f : Format) (n : Nat) (e : ℤ) :
    Writes (f.scientific (Nat.toDigits 10 n) (e + ((Nat.toDigits 10 n).length - 1 : Nat))) (n * 10 ^ e) := by
  have some_digit : 0 < (Nat.toDigits 10 n).length := Nat.length_toDigits_pos
  have number := natOfDigits_decimal n
  have digits := digits_toDigits n
  generalize Nat.toDigits 10 n = ds at *
  generalize same : e + ((ds.length - 1 : Nat) : ℤ) = power
  have tail := f.tail_sign power
  have exponent := f.exponent?_sign power
  have shape : f.scientific ds power = (if ds.length ≤ 1 then ds else ds.take 1 ++ '.' :: ds.drop 1) ++
      'e' :: (f.exponentSign power ++ Nat.toDigits 10 power.natAbs) := rfl
  rw [shape]
  split
  · refine ⟨_, written?_whole digits tail exponent, ?_⟩
    rw [Scientific.value, number]
    dsimp only
    congr 2
    omega
  · rw [← List.take_append_drop 1 ds] at digits
    have read := written?_point digits tail exponent
    rw [List.take_append_drop, number] at read
    rw [List.append_assoc, List.cons_append]
    refine ⟨_, read, ?_⟩
    rw [Scientific.value, List.length_drop]
    dsimp only
    congr 2
    omega

theorem magnitude_writes (f : Format) (x : Binary64) : Writes (f.magnitude x) (shortest f.tie x).value := by
  unfold magnitude
  simp only
  split
  · exact positional_writes _ _
  · exact f.scientific_writes _ _

end Format

/-! ## Numbers in writing -/

namespace Binary64
variable {x y : Binary64}

theorem eq_of_magnitude (sign : x.isNegative = y.isNegative) (magnitude : x.magnitude = y.magnitude) : x = y := by
  have weight : signWeight = 0x8000000000000000 := rfl
  have bound := x.bits.toNat_lt
  have bound' := y.bits.toNat_lt
  obtain ⟨bits⟩ := x
  obtain ⟨bits'⟩ := y
  simp only [isNegative, Binary64.magnitude, weight, decide_eq_decide] at *
  congr 1
  rw [← UInt64.toNat_inj]
  omega

end Binary64
end LuaLowering.Decimal

namespace LuaLowering.Attribute
open Decimal Binary64
variable {x y : Binary64}

/-- The text of a number without its sign. -/
def unsignedText (x : Binary64) : List Char :=
  if x.isInfinite then ['i', 'n', 'f'] else if x.isZero then ['0', '.', '0'] else numbers.magnitude x

theorem toList_render_number (notNan : x.isNan = false) :
    (numbers.render x).toList = (if x.isNegative then ['-'] else []) ++ unsignedText x := by
  unfold Format.render unsignedText
  rw [notNan]
  by_cases infinite : x.isInfinite = true
  · cases x.isNegative <;> simp [infinite, numbers]
  · simp [infinite]

/-- The number that the text writes without a sign, if it is finite. -/
theorem unsignedText_cases (notNan : x.isNan = false) :
    (unsignedText x = ['i', 'n', 'f'] ∧ x.magnitude = maxBiased * exponentWeight) ∨
      ∃ v, Format.Writes (unsignedText x) v ∧ ((v = 0 ∧ x.magnitude = 0) ∨ (0 < v ∧ Rounds x.magnitude v)) := by
  unfold unsignedText
  by_cases infinite : x.isInfinite = true
  · rw [if_pos infinite]
    exact .inl ⟨rfl, magnitude_of_isInfinite infinite⟩
  · rw [if_neg infinite]
    right
    by_cases zero : x.isZero = true
    · rw [if_pos zero]
      refine ⟨0, ⟨⟨0, -1⟩, by decide, by simp [Scientific.value]⟩, .inl ⟨rfl, by simpa [isZero] using zero⟩⟩
    · rw [if_neg zero]
      have nonzero : 0 < x.magnitude := by
        simp only [isZero, beq_iff_eq] at zero
        omega
      have rounds := shortest_rounds numbers.tie nonzero (biased_lt notNan (by simpa using infinite))
      exact ⟨_, numbers.magnitude_writes x, .inr ⟨rounds.pos nonzero, rounds⟩⟩

theorem written?_minus (text : List Char) : written? ('-' :: text) = none := rfl

theorem unsignedText_ne_minus (notNan : x.isNan = false) (text : List Char) : unsignedText x ≠ '-' :: text := by
  intro minus
  rcases unsignedText_cases notNan with ⟨infinite, -⟩ | ⟨v, ⟨s, written, -⟩, -⟩
  · rw [infinite] at minus
    cases minus
  · rw [minus, written?_minus] at written
    cases written

theorem magnitude_of_unsignedText (notNan : x.isNan = false) (notNan' : y.isNan = false)
    (same : unsignedText x = unsignedText y) : x.magnitude = y.magnitude := by
  have named : written? ['i', 'n', 'f'] = none := rfl
  rcases unsignedText_cases notNan with ⟨text, size⟩ | ⟨v, ⟨s, written, value⟩, number⟩
  · rcases unsignedText_cases notNan' with ⟨-, size'⟩ | ⟨w, ⟨t, written', -⟩, -⟩
    · rw [size, size']
    · rw [← same, text, named] at written'
      cases written'
  · rcases unsignedText_cases notNan' with ⟨text', -⟩ | ⟨w, ⟨t, written', value'⟩, number'⟩
    · rw [same, text', named] at written
      cases written
    · rw [same, written'] at written
      cases written
      subst value value'
      rcases number with ⟨zero, size⟩ | ⟨positive, rounds⟩
      · rcases number' with ⟨-, size'⟩ | ⟨positive', -⟩
        · rw [size, size']
        · exact absurd zero positive'.ne'
      · rcases number' with ⟨zero', -⟩ | ⟨-, rounds'⟩
        · exact absurd zero' positive.ne'
        · exact rounds.unique rounds'

/-- Apart from NaN, numbers can be told from their texts. -/
theorem render_number_inj (notNan : x.isNan = false) (notNan' : y.isNan = false)
    (same : numbers.render x = numbers.render y) : x = y := by
  have texts := congrArg String.toList same
  rw [toList_render_number notNan, toList_render_number notNan'] at texts
  cases sign : x.isNegative with
  | false =>
    cases sign' : y.isNegative with
    | false =>
      rw [sign, sign'] at texts
      exact eq_of_magnitude (by rw [sign, sign']) (magnitude_of_unsignedText notNan notNan' texts)
    | true =>
      rw [sign, sign'] at texts
      exact absurd texts (unsignedText_ne_minus notNan _)
  | true =>
    cases sign' : y.isNegative with
    | false =>
      rw [sign, sign'] at texts
      exact absurd texts.symm (unsignedText_ne_minus notNan' _)
    | true =>
      rw [sign, sign'] at texts
      exact eq_of_magnitude (by rw [sign, sign'])
        (magnitude_of_unsignedText notNan notNan' (List.tail_eq_of_cons_eq texts))

/-- The characters of numbers. -/
def isNumberChar (c : Char) : Bool := c.isDigit || ['.', '-', 'e', 'i', 'n', 'f', 'N', 'a'].contains c

theorem isNumberChar_of_isDigit {c : Char} (digit : c.isDigit = true) : isNumberChar c = true := by
  simp [isNumberChar, digit]

theorem all_decimal (n : Nat) : (Nat.toDigits 10 n).all isNumberChar = true :=
  List.all_eq_true.mpr fun _ member => isNumberChar_of_isDigit (Text.isDigit_of_mem_decimal member)

theorem all_take_drop {digits : List Char} (all : digits.all isNumberChar = true) (n : Nat) :
    (digits.take n).all isNumberChar = true ∧ (digits.drop n).all isNumberChar = true := by
  rw [← Bool.and_eq_true, ← List.all_append, List.take_append_drop, all]

theorem all_positional {digits : List Char} (all : digits.all isNumberChar = true) (power : ℤ) :
    (Format.positional digits power).all isNumberChar = true := by
  have zero : isNumberChar '0' = true := rfl
  have point : isNumberChar '.' = true := rfl
  unfold Format.positional
  split
  · simp [zero, point, all]
  · obtain ⟨front, back⟩ := all_take_drop all (power.toNat + 1)
    simp only [List.all_append, List.all_cons, List.all_replicate, zero, point, front, Bool.true_and, Bool.and_eq_true]
    constructor
    · split <;> rfl
    · split
      · rfl
      · exact back

theorem all_scientific {digits : List Char} (all : digits.all isNumberChar = true) (power : ℤ) :
    (numbers.scientific digits power).all isNumberChar = true := by
  have shape : numbers.scientific digits power =
      (if digits.length ≤ 1 then digits else digits.take 1 ++ '.' :: digits.drop 1) ++
        'e' :: ((if power < 0 then ['-'] else []) ++ Nat.toDigits 10 power.natAbs) := rfl
  have point : isNumberChar '.' = true := rfl
  have letter : isNumberChar 'e' = true := rfl
  obtain ⟨front, back⟩ := all_take_drop all 1
  rw [shape, List.all_append, List.all_cons, List.all_append, letter, all_decimal]
  simp only [Bool.true_and, Bool.and_true, Bool.and_eq_true]
  constructor
  · split
    · exact all
    · rw [List.all_append, List.all_cons, front, point, back]
      rfl
  · split <;> rfl

theorem all_render_number (x : Binary64) : (numbers.render x).toList.all isNumberChar = true := by
  unfold Format.render
  split
  · rfl
  · split
    · split <;> rfl
    · rw [String.toList_ofList, List.all_append, Bool.and_eq_true]
      constructor
      · split <;> rfl
      · split
        · rfl
        · unfold Format.magnitude
          simp only
          split
          · exact all_positional (all_decimal _) _
          · exact all_scientific (all_decimal _) _

end LuaLowering.Attribute
