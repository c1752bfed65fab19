import Mathlib.Algebra.Order.Field.Power
import Mathlib.Tactic.FieldSimp
import Mathlib.Tactic.Linarith
import Mathlib.Tactic.NormNum
import Mathlib.Tactic.Positivity
import Mathlib.Tactic.Ring
import WebHarvest.Number.Shortest

/-!
# Rounding to the nearest pattern

A ratio that lies closer to a floating-point number than to its neighbours is rounded to it; a ratio
halfway to a neighbour is, when the mantissa is even.
-/

set_option autoImplicit false

namespace WebHarvest.Double

section Patterns

/-- The pattern of a mantissa and an exponent. -/
def pattern (negative : Bool) (mantissa : Nat) (exponent : Int) : Double :=
  if mantissa < Nat.pow 2 52 then assemble negative mantissa
  else assemble negative ((exponent + 1075).toNat * Nat.pow 2 52 + (mantissa - Nat.pow 2 52))

/-- The mantissas and exponents of finite numbers. -/
structure IsFormat (mantissa : Nat) (exponent : Int) : Prop where
  small : mantissa < Nat.pow 2 53
  least : -1074 ≤ exponent
  most : exponent ≤ 971
  full : mantissa < Nat.pow 2 52 → exponent = -1074

/-- The bits of a pattern: its sign, the exponent that is kept, and the fraction. -/
theorem assemble_fields (x : Double) :
    assemble x.isNegative
      (x.bits.toNat / Nat.pow 2 52 % 2048 * Nat.pow 2 52 + x.bits.toNat % Nat.pow 2 52) = x := by
  have bound := x.bits.toNat_lt
  have fields : (if x.isNegative then Nat.pow 2 63 else 0) +
      (x.bits.toNat / Nat.pow 2 52 % 2048 * Nat.pow 2 52 + x.bits.toNat % Nat.pow 2 52) =
        x.bits.toNat := by
    have sign : x.bits.toNat / Nat.pow 2 63 < 2 :=
      Nat.div_lt_of_lt_mul (by simpa [Nat.pow_eq] using bound)
    unfold isNegative
    simp only [Nat.pow_eq, Nat.reducePow] at *
    split <;> rename_i top <;> simp only [beq_iff_eq] at top <;> omega
  unfold assemble
  rw [fields, UInt64.ofNat_toNat]

theorem meaning_format {x : Double} {negative : Bool} {mantissa : Nat} {exponent : Int}
    (meaning : x.meaning = .finite negative mantissa exponent) :
    IsFormat mantissa exponent ∧ pattern negative mantissa exponent = x := by
  have fields := assemble_fields x
  have fraction : x.bits.toNat % Nat.pow 2 52 < Nat.pow 2 52 := Nat.mod_lt _ (by decide)
  have biased : x.bits.toNat / Nat.pow 2 52 % 2048 < 2048 := Nat.mod_lt _ (by decide)
  have double : Nat.pow 2 53 = 2 * Nat.pow 2 52 := rfl
  unfold Double.meaning at meaning
  dsimp only at meaning
  generalize x.bits.toNat / Nat.pow 2 52 % 2048 = stored at *
  generalize x.bits.toNat % Nat.pow 2 52 = low at *
  split at meaning
  · split at meaning <;> cases meaning
  · rename_i notTop
    split at meaning
    · rename_i bottom
      cases meaning
      obtain rfl := beq_iff_eq.mp bottom
      refine ⟨⟨by omega, by omega, by omega, fun _ => rfl⟩, ?_⟩
      rw [pattern, if_pos fraction]
      simpa using fields
    · rename_i notBottom
      cases meaning
      have top : stored ≠ 2047 := fun same => notTop (beq_iff_eq.mpr same)
      have bottom : stored ≠ 0 := fun same => notBottom (beq_iff_eq.mpr same)
      have kept : (Int.ofNat stored - 1075 + 1075).toNat = stored := by simp
      refine ⟨⟨by omega, ?_, ?_, by omega⟩, ?_⟩
      · simp only [Int.ofNat_eq_natCast]
        omega
      · simp only [Int.ofNat_eq_natCast]
        omega
      · rw [pattern, if_neg (by omega), kept, Nat.add_sub_cancel]
        exact fields

end Patterns

theorem roundHalfEven_eq {n d m : Nat} (positive : 0 < d) (lower : 2 * m * d ≤ 2 * n + d)
    (upper : 2 * n ≤ 2 * m * d + d)
    (tie : 2 * m * d = 2 * n + d ∨ 2 * n = 2 * m * d + d → m % 2 = 0) :
    roundHalfEven n d = m := by
  have whole := Nat.div_add_mod n d
  have part := Nat.mod_lt n positive
  unfold roundHalfEven
  generalize n / d = quotient at *
  generalize n % d = remainder at *
  subst whole
  have atMost : m ≤ quotient + 1 := by
    by_contra above
    have : (quotient + 2) * d ≤ m * d := Nat.mul_le_mul_right d (by omega)
    nlinarith
  have atLeast : quotient ≤ m := by
    by_contra below
    have : (m + 1) * d ≤ quotient * d := Nat.mul_le_mul_right d (by omega)
    nlinarith
  obtain rfl | rfl : m = quotient ∨ m = quotient + 1 := by omega
  · have half : 2 * remainder ≤ d := by nlinarith
    rcases Nat.lt_or_eq_of_le half with less | same
    · rw [if_pos less]
    · have even := tie (.inr (by rw [← same]; ring))
      rw [if_neg (by omega), if_neg (by omega)]
      omega
  · have half : d ≤ 2 * remainder := by nlinarith
    rcases Nat.lt_or_eq_of_le half with more | same
    · rw [if_neg (by omega), if_pos more]
    · have even := tie (.inl (by rw [same]; ring))
      rw [if_neg (by omega), if_neg (by omega)]
      omega

section Ratios

variable {num den : Nat}

theorem scaledRatio_pos (num : Nat) (positive : 0 < den) (exponent : Int) :
    0 < (scaledRatio num den exponent).2 := by
  unfold scaledRatio
  split
  · exact Nat.mul_pos positive (Nat.pow_pos (by decide))
  · exact positive

theorem scaledRatio_eq (positive : 0 < den) (exponent : Int) :
    ((scaledRatio num den exponent).1 : ℚ) / (scaledRatio num den exponent).2 =
      num / den / 2 ^ exponent := by
  have nonzero : (den : ℚ) ≠ 0 := by exact_mod_cast positive.ne'
  unfold scaledRatio
  split
  · rename_i whole
    obtain ⟨power, rfl⟩ := Int.eq_ofNat_of_zero_le whole
    rw [Int.toNat_natCast, zpow_natCast, div_div]
    push_cast [Nat.pow_eq]
    rfl
  · rename_i negative
    obtain ⟨power, rfl⟩ : ∃ power : Nat, exponent = -power := ⟨exponent.natAbs, by omega⟩
    rw [neg_neg, Int.toNat_natCast, zpow_neg, zpow_natCast, div_inv_eq_mul]
    push_cast [Nat.pow_eq]
    ring

theorem div_lt_iff_ratio {n d bound : Nat} (positive : 0 < d) :
    n / d < bound ↔ (n : ℚ) / d < bound := by
  rw [Nat.div_lt_iff_lt_mul positive, div_lt_iff₀ (by exact_mod_cast positive)]
  exact_mod_cast Iff.rfl

/-- In units of half the size a ratio is twice as large. -/
theorem div_zpow_pred (q : ℚ) (exponent : Int) :
    q / 2 ^ (exponent - 1) = 2 * (q / 2 ^ exponent) := by
  rw [zpow_sub_one₀ two_ne_zero]
  field_simp

/-- A ratio in units of a power of two that is chosen by the sizes of its terms. -/
theorem guess_bounds (numerator : 0 < num) (positive : 0 < den) :
    (2 : ℚ) ^ 51 < num / den / 2 ^ (Int.ofNat num.log2 - Int.ofNat den.log2 - 52) ∧
      (num : ℚ) / den / 2 ^ (Int.ofNat num.log2 - Int.ofNat den.log2 - 52) < 2 ^ 53 := by
  have numLow : (2 : ℚ) ^ num.log2 ≤ num := by exact_mod_cast Nat.log2_self_le numerator.ne'
  have numHigh : (num : ℚ) < 2 ^ num.log2 * 2 := by
    exact_mod_cast (Nat.lt_log2_self (n := num)).trans_eq (Nat.pow_succ ..)
  have denLow : (2 : ℚ) ^ den.log2 ≤ den := by exact_mod_cast Nat.log2_self_le positive.ne'
  have denHigh : (den : ℚ) < 2 ^ den.log2 * 2 := by
    exact_mod_cast (Nat.lt_log2_self (n := den)).trans_eq (Nat.pow_succ ..)
  have unit : (2 : ℚ) ^ (Int.ofNat num.log2 - Int.ofNat den.log2 - 52) =
      2 ^ num.log2 / 2 ^ den.log2 / 2 ^ 52 := by
    rw [zpow_sub₀ two_ne_zero, zpow_sub₀ two_ne_zero]
    rfl
  have denPositive : (0 : ℚ) < den := by exact_mod_cast positive
  have numPower : (0 : ℚ) < 2 ^ num.log2 := by positivity
  have denPower : (0 : ℚ) < 2 ^ den.log2 := by positivity
  rw [unit]
  constructor
  · rw [lt_div_iff₀ (by positivity), lt_div_iff₀ denPositive]
    calc (2 : ℚ) ^ 51 * (2 ^ num.log2 / 2 ^ den.log2 / 2 ^ 52) * den
        = 2 ^ num.log2 * (den / (2 ^ den.log2 * 2)) := by field_simp
      _ < 2 ^ num.log2 * 1 := by
          refine mul_lt_mul_of_pos_left ?_ numPower
          rwa [div_lt_one (by positivity)]
      _ ≤ num := by rwa [mul_one]
  · rw [div_lt_iff₀ (by positivity), div_lt_iff₀ denPositive]
    calc (num : ℚ) < 2 ^ num.log2 * 2 * 1 := by rwa [mul_one]
      _ ≤ 2 ^ num.log2 * 2 * (den / 2 ^ den.log2) := by
          refine mul_le_mul_of_nonneg_left ?_ (by positivity)
          rwa [one_le_div denPower]
      _ = 2 ^ 53 * (2 ^ num.log2 / 2 ^ den.log2 / 2 ^ 52) * den := by field_simp

theorem ratioExponent_bounds (numerator : 0 < num) (positive : 0 < den) :
    (num : ℚ) / den / 2 ^ ratioExponent num den < 2 ^ 53 ∧
      (ratioExponent num den = -1074 ∨
        2 ^ 52 ≤ (num : ℚ) / den / 2 ^ ratioExponent num den) := by
  obtain ⟨low, high⟩ := guess_bounds numerator positive
  unfold ratioExponent
  generalize Int.ofNat num.log2 - Int.ofNat den.log2 - 52 = guess at low high ⊢
  have below : (scaledRatio num den guess).1 / (scaledRatio num den guess).2 < Nat.pow 2 52 ↔ _ :=
    div_lt_iff_ratio (scaledRatio_pos num positive guess)
  rw [scaledRatio_eq positive] at below
  have bound : ((Nat.pow 2 52 : Nat) : ℚ) = 2 ^ 52 := by norm_num [Nat.pow_eq]
  rw [bound] at below
  have normal : ∃ exponent, (if (scaledRatio num den guess).1 / (scaledRatio num den guess).2 <
        Nat.pow 2 52 then guess - 1 else guess) = exponent ∧
      (num : ℚ) / den / 2 ^ exponent < 2 ^ 53 ∧ 2 ^ 52 ≤ (num : ℚ) / den / 2 ^ exponent := by
    by_cases small : (scaledRatio num den guess).1 / (scaledRatio num den guess).2 < Nat.pow 2 52
    · refine ⟨guess - 1, if_pos small, ?_, ?_⟩ <;> rw [div_zpow_pred]
      · linarith [below.mp small]
      · linarith
    · refine ⟨guess, if_neg small, high, ?_⟩
      exact le_of_not_gt fun less => small (below.mpr less)
  obtain ⟨exponent, chosen, lessThan, full⟩ := normal
  dsimp only
  rw [chosen]
  rcases le_total (-1074) exponent with regular | least
  · rw [max_eq_right regular]
    exact ⟨lessThan, .inr full⟩
  · rw [max_eq_left least]
    refine ⟨lt_of_le_of_lt ?_ lessThan, .inl rfl⟩
    have powers : (2 : ℚ) ^ exponent ≤ 2 ^ (-1074 : Int) :=
      zpow_le_zpow_right₀ (by norm_num) least
    exact div_le_div_of_nonneg_left (by positivity) (by positivity) powers

theorem le_ratioExponent (num den : Nat) : -1074 ≤ ratioExponent num den := le_max_left _ _

/-- The exponent of a full mantissa, or the least one, of a positive ratio. -/
def FitsExponent (q : ℚ) (exponent : Int) : Prop :=
  -1074 ≤ exponent ∧ q / 2 ^ exponent < 2 ^ 53 ∧ (exponent = -1074 ∨ 2 ^ 52 ≤ q / 2 ^ exponent)

theorem FitsExponent.le {q : ℚ} {exponent other : Int} (fits : FitsExponent q exponent)
    (othersFit : FitsExponent q other) : exponent ≤ other := by
  by_contra above
  rcases fits.2.2 with least | full
  · have := othersFit.1
    omega
  · have positive : 0 < q := by
      by_contra negative
      have : q / 2 ^ exponent ≤ 0 :=
        div_nonpos_of_nonpos_of_nonneg (not_lt.mp negative) (by positivity)
      linarith
    have powers : (2 : ℚ) ^ (other + 1) ≤ 2 ^ exponent :=
      zpow_le_zpow_right₀ (by norm_num) (by omega)
    have doubled : q / 2 ^ other = 2 * (q / 2 ^ (other + 1)) := by
      rw [← div_zpow_pred, add_sub_cancel_right]
    have := div_le_div_of_nonneg_left positive.le (by positivity) powers
    linarith [othersFit.2.1]

theorem ratioExponent_eq (numerator : 0 < num) (positive : 0 < den) {exponent : Int}
    (fits : FitsExponent (num / den) exponent) : ratioExponent num den = exponent := by
  have own : FitsExponent (num / den) (ratioExponent num den) :=
    ⟨le_ratioExponent num den, ratioExponent_bounds numerator positive⟩
  exact le_antisymm (own.le fits) (fits.le own)

/-- A ratio in units of a power of two is rounded to a mantissa that is not farther than half a
unit; at half a unit the mantissa is even. -/
theorem round_scaledRatio (positive : 0 < den) {exponent : Int} {m : Nat}
    (lower : (m : ℚ) - 1 / 2 ≤ num / den / 2 ^ exponent)
    (upper : (num : ℚ) / den / 2 ^ exponent ≤ m + 1 / 2)
    (tie : (num : ℚ) / den / 2 ^ exponent = m - 1 / 2 ∨
      (num : ℚ) / den / 2 ^ exponent = m + 1 / 2 → m % 2 = 0) :
    roundHalfEven (scaledRatio num den exponent).1 (scaledRatio num den exponent).2 = m := by
  rw [← scaledRatio_eq positive] at lower upper tie
  have unit := scaledRatio_pos num positive exponent
  generalize (scaledRatio num den exponent).1 = n at lower upper tie ⊢
  generalize (scaledRatio num den exponent).2 = d at lower upper tie unit ⊢
  have unitCast : (0 : ℚ) < d := by exact_mod_cast unit
  rw [le_div_iff₀ unitCast] at lower
  rw [div_le_iff₀ unitCast] at upper
  rw [div_eq_iff unitCast.ne', div_eq_iff unitCast.ne'] at tie
  refine roundHalfEven_eq unit ?_ ?_ fun same => tie ?_
  · have : (2 * m * d : ℚ) ≤ 2 * n + d := by linarith
    exact_mod_cast this
  · have : (2 * n : ℚ) ≤ 2 * m * d + d := by linarith
    exact_mod_cast this
  · rcases same with same | same
    · have : (2 * m * d : ℚ) = 2 * n + d := by exact_mod_cast same
      left
      linarith
    · have : (2 * n : ℚ) = 2 * m * d + d := by exact_mod_cast same
      right
      linarith

theorem ofRatio_of_round (numerator : 0 < num) (negative : Bool) {exponent : Int} {m : Nat}
    (chosen : ratioExponent num den = exponent)
    (rounded : roundHalfEven (scaledRatio num den exponent).1
      (scaledRatio num den exponent).2 = m) (reach : exponent < 971 ∨ exponent = 971 ∧
      m ≠ Nat.pow 2 53) :
    ofRatio negative num den =
      if m = Nat.pow 2 53 then pattern negative (Nat.pow 2 52) (exponent + 1)
      else pattern negative m exponent := by
  have nonzero : (num == 0) = false := by simpa using numerator.ne'
  unfold ofRatio
  rw [nonzero, chosen]
  simp only [Bool.false_eq_true, if_false, rounded]
  by_cases carried : m = Nat.pow 2 53
  · have reached : ¬ 971 < exponent + 1 := by
      rcases reach with less | ⟨-, other⟩
      · omega
      · exact absurd carried other
    subst carried
    simp only [beq_self_eq_true, if_true, lt_irrefl, if_false, reached, pattern]
  · have reached : ¬ 971 < exponent := by omega
    have different : (m == Nat.pow 2 53) = false := beq_eq_false_iff_ne.mpr carried
    simp only [different, carried, Bool.false_eq_true, if_false, reached, pattern]

end Ratios

/-- What lies in the neighbourhood of a number is rounded to it. -/
structure Neighbourhood.Holds (n : Neighbourhood) (scaled : ℚ) : Prop where
  low : n.low ≤ scaled
  high : scaled ≤ n.high
  ends : scaled = n.low ∨ scaled = n.high → n.closed = true

section Neighbours

variable {m : Nat} {exponent : Int} {q : ℚ}

theorem neighbourhood_high (m : Nat) (exponent : Int) :
    ((neighbourhood m exponent).high : ℚ) = 4 * m + 2 := by
  simp [neighbourhood]

theorem neighbourhood_low (nonzero : 0 < m) (exponent : Int) :
    ((neighbourhood m exponent).low : ℚ) =
      4 * m - if m = Nat.pow 2 52 ∧ -1074 < exponent then 1 else 2 := by
  unfold neighbourhood
  by_cases edge : m = Nat.pow 2 52 ∧ -1074 < exponent
  · rw [if_pos (by simpa using edge), if_pos edge]
    push_cast [Nat.cast_sub (by omega : 1 ≤ 4 * m)]
    rfl
  · rw [if_neg (by simpa using edge), if_neg edge]
    push_cast [Nat.cast_sub (by omega : 2 ≤ 4 * m)]
    rfl

/-- A ratio, in units of the last place, that is rounded to a mantissa: it is not farther than half
a unit, or a quarter on the lower side of a power of two, where the gap is half as wide. -/
structure Nears (m : Nat) (exponent : Int) (ratio : ℚ) : Prop where
  low : m - 1 / 2 ≤ ratio
  high : ratio ≤ m + 1 / 2
  edge : m = Nat.pow 2 52 → -1074 < exponent → m - 1 / 4 ≤ ratio
  tie : ratio = m - 1 / 2 ∨ ratio = m + 1 / 2 → m % 2 = 0

theorem Neighbourhood.Holds.nears (nonzero : 0 < m)
    (near : (neighbourhood m exponent).Holds (q / 2 ^ (exponent - 2))) :
    Nears m exponent (q / 2 ^ exponent) := by
  have quarters : q / 2 ^ (exponent - 2) = 4 * (q / 2 ^ exponent) := by
    rw [show exponent - 2 = exponent - 1 - 1 by omega, div_zpow_pred, div_zpow_pred]
    ring
  rw [quarters] at near
  have low := near.low
  have high := near.high
  rw [neighbourhood_low nonzero] at low
  rw [neighbourhood_high] at high
  refine ⟨?_, by linarith, fun edge regular => ?_, fun halfway => ?_⟩
  · split at low <;> linarith
  · rw [if_pos ⟨edge, regular⟩] at low
    linarith
  · have closed : (neighbourhood m exponent).closed = true := by
      refine near.ends ?_
      rw [neighbourhood_low nonzero, neighbourhood_high]
      rcases halfway with below | above
      · -- Half a unit below is out of reach at a power of two.
        split at low <;> rename_i edge
        · linarith
        · rw [if_neg edge]
          left
          linarith
      · right
        linarith
    simpa [neighbourhood] using closed

/-- Only at a power of two does the ratio have a full mantissa one exponent further down. -/
theorem Nears.at_edge (near : Nears m exponent (q / 2 ^ exponent)) (format : IsFormat m exponent)
    (short : q / 2 ^ exponent < 2 ^ 52) (above : exponent ≠ -1074) : m = Nat.pow 2 52 := by
  have full : Nat.pow 2 52 ≤ m := not_lt.mp fun less => above (format.full less)
  by_contra other
  have more : (2 : ℚ) ^ 52 + 1 ≤ m := by exact_mod_cast (by omega : Nat.pow 2 52 + 1 ≤ m)
  linarith [near.low]

variable {num den : Nat}

/-- Just below a power of two the ratio has a full mantissa one exponent further down, which is
rounded up to twice the least one. -/
theorem Nears.ofRatio_below (near : Nears m exponent (num / den / 2 ^ exponent))
    (format : IsFormat m exponent) (negative : Bool) (numerator : 0 < num) (positive : 0 < den)
    (short : (num : ℚ) / den / 2 ^ exponent < 2 ^ 52) (above : exponent ≠ -1074) :
    ofRatio negative num den = pattern negative m exponent := by
  obtain rfl := near.at_edge format short above
  have regular := lt_of_le_of_ne format.least above.symm
  have low := near.edge rfl regular
  have single : ((Nat.pow 2 52 : Nat) : ℚ) = 2 ^ 52 := by norm_num [Nat.pow_eq]
  have twice : ((Nat.pow 2 53 : Nat) : ℚ) = 2 ^ 53 := by norm_num [Nat.pow_eq]
  rw [single] at low
  have fits : FitsExponent (num / den) (exponent - 1) := by
    refine ⟨by omega, ?_, .inr ?_⟩ <;> rw [div_zpow_pred] <;> linarith
  have rounded : roundHalfEven (scaledRatio num den (exponent - 1)).1
      (scaledRatio num den (exponent - 1)).2 = Nat.pow 2 53 := by
    refine round_scaledRatio positive ?_ ?_ fun _ => rfl <;> rw [div_zpow_pred, twice] <;> linarith
  have reach := format.most
  rw [ofRatio_of_round numerator negative (ratioExponent_eq numerator positive fits) rounded
    (.inl (by omega)), if_pos rfl, sub_add_cancel]

theorem Nears.ofRatio_within (near : Nears m exponent (num / den / 2 ^ exponent))
    (format : IsFormat m exponent) (negative : Bool) (numerator : 0 < num) (positive : 0 < den)
    (long : exponent = -1074 ∨ 2 ^ 52 ≤ (num : ℚ) / den / 2 ^ exponent) :
    ofRatio negative num den = pattern negative m exponent := by
  have mantissa : (m : ℚ) + 1 ≤ 2 ^ 53 := by exact_mod_cast format.small
  have fits : FitsExponent (num / den) exponent :=
    ⟨format.least, by linarith [near.high], long⟩
  have rounded := round_scaledRatio positive near.low near.high near.tie
  have reach := format.most
  have uncarried := format.small.ne
  rw [ofRatio_of_round numerator negative (ratioExponent_eq numerator positive fits) rounded
    (by omega), if_neg uncarried]

/-- A ratio in the neighbourhood of a number is rounded to it. -/
theorem ofRatio_eq (format : IsFormat m exponent) (nonzero : 0 < m) (negative : Bool)
    (numerator : 0 < num) (positive : 0 < den)
    (holds : (neighbourhood m exponent).Holds (num / den / 2 ^ (exponent - 2))) :
    ofRatio negative num den = pattern negative m exponent := by
  have near := holds.nears nonzero
  by_cases short : (num : ℚ) / den / 2 ^ exponent < 2 ^ 52 ∧ exponent ≠ -1074
  · exact near.ofRatio_below format negative numerator positive short.1 short.2
  · refine near.ofRatio_within format negative numerator positive ?_
    by_cases least : exponent = -1074
    · exact .inl least
    · exact .inr (not_lt.mp fun below => short ⟨below, least⟩)

end Neighbours

end WebHarvest.Double
