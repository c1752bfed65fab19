import WebHarvest.Proofs.Number.Rounding

/-!
# Shortest decimals read back

The search for the shortest digits of a number always ends with digits that lie in its
neighbourhood, so that the nearest pattern to them is the number itself.
-/

set_option autoImplicit false

namespace WebHarvest.Double

section Powers

theorem pow_toNat_div {base : Nat} (positive : 0 < base) (power : Int) :
    ((Nat.pow base power.toNat : Nat) : ℚ) / (Nat.pow base (-power).toNat : Nat) =
      (base : ℚ) ^ power := by
  have nonzero : (base : ℚ) ≠ 0 := by exact_mod_cast positive.ne'
  rcases le_total 0 power with whole | negative
  · obtain ⟨power, rfl⟩ := Int.eq_ofNat_of_zero_le whole
    simp [Nat.pow_eq]
  · obtain ⟨power, rfl⟩ : ∃ opposite : Nat, power = -opposite := ⟨power.natAbs, by omega⟩
    simp [Nat.pow_eq]

/-- Three digits take less than ten bits. -/
theorem ten_zpow_le_of_nonneg {power bits : Int} (whole : 0 ≤ power)
    (enough : 10 * power ≤ 3 * bits) : (10 : ℚ) ^ power ≤ 2 ^ bits := by
  obtain ⟨power, rfl⟩ := Int.eq_ofNat_of_zero_le whole
  obtain ⟨bits, rfl⟩ := Int.eq_ofNat_of_zero_le (by omega : 0 ≤ bits)
  rw [zpow_natCast, zpow_natCast]
  refine le_of_pow_le_pow_left₀ (n := 3) (by decide) (by positivity) ?_
  calc ((10 : ℚ) ^ power) ^ 3 = (10 ^ 3) ^ power := by rw [← pow_mul, ← pow_mul, mul_comm]
    _ ≤ (2 ^ 10) ^ power := pow_le_pow_left₀ (by norm_num) (by norm_num) _
    _ = 2 ^ (10 * power) := by rw [← pow_mul]
    _ ≤ 2 ^ (3 * bits) := pow_le_pow_right₀ (by norm_num) (by omega)
    _ = (2 ^ bits) ^ 3 := by rw [← pow_mul, mul_comm]

/-- Ten digits take more than thirty-three bits. -/
theorem ten_zpow_le_of_nonpos {power bits : Int} (negative : power ≤ 0)
    (enough : 33 * power ≤ 10 * bits) : (10 : ℚ) ^ power ≤ 2 ^ bits := by
  obtain ⟨power, rfl⟩ : ∃ opposite : Nat, power = -opposite := ⟨power.natAbs, by omega⟩
  rcases le_total 0 bits with whole | less
  · have one : (1 : ℚ) ≤ 2 ^ bits := one_le_zpow₀ (by norm_num) whole
    refine le_trans ?_ one
    rw [zpow_neg, zpow_natCast]
    exact inv_le_one_of_one_le₀ (one_le_pow₀ (by norm_num))
  · obtain ⟨bits, rfl⟩ : ∃ opposite : Nat, bits = -opposite := ⟨bits.natAbs, by omega⟩
    rw [zpow_neg, zpow_neg, zpow_natCast, zpow_natCast]
    refine inv_anti₀ (by positivity) ?_
    refine le_of_pow_le_pow_left₀ (n := 10) (by decide) (by positivity) ?_
    calc ((2 : ℚ) ^ bits) ^ 10 = 2 ^ (10 * bits) := by rw [← pow_mul, mul_comm]
      _ ≤ 2 ^ (33 * power) := pow_le_pow_right₀ (by norm_num) (by omega)
      _ = (2 ^ 33) ^ power := by rw [← pow_mul]
      _ ≤ (10 ^ 10) ^ power := pow_le_pow_left₀ (by norm_num) (by norm_num) _
      _ = (10 ^ power) ^ 10 := by rw [← pow_mul, ← pow_mul, mul_comm]

end Powers

section Grids

variable {n : Neighbourhood} {k : Int}

/-- The terms of the grid of `10 ^ k` in units of a neighbourhood. -/
def gridNum (n : Neighbourhood) (k : Int) : Nat := Nat.pow 10 k.toNat * n.unitDen

def gridDen (n : Neighbourhood) (k : Int) : Nat := n.unitNum * Nat.pow 10 (-k).toNat

theorem gridNum_pos (positive : 0 < n.unitDen) : 0 < gridNum n k :=
  Nat.mul_pos (Nat.pow_pos (by decide)) positive

theorem gridDen_pos (positive : 0 < n.unitNum) : 0 < gridDen n k :=
  Nat.mul_pos positive (Nat.pow_pos (by decide))

theorem inside_holds {left right digits : Nat} (positive : 0 < right)
    (inside : n.inside left right digits = true) :
    n.Holds (digits * (left / right : ℚ)) := by
  have unit : (0 : ℚ) < right := by exact_mod_cast positive
  have scaled : (digits * (left / right) : ℚ) = (digits * left : Nat) / right := by
    push_cast
    ring
  rw [scaled]
  unfold Neighbourhood.inside at inside
  split at inside <;> rename_i closed <;>
    simp only [Bool.and_eq_true, decide_eq_true_eq] at inside
  · refine ⟨?_, ?_, fun _ => closed⟩
    · rw [le_div_iff₀ unit]
      exact_mod_cast inside.1
    · rw [div_le_iff₀ unit]
      exact_mod_cast inside.2
  · have low : (n.low : ℚ) < (digits * left : Nat) / right := by
      rw [lt_div_iff₀ unit]
      exact_mod_cast inside.1
    have high : ((digits * left : Nat) : ℚ) / right < n.high := by
      rw [div_lt_iff₀ unit]
      exact_mod_cast inside.2
    refine ⟨low.le, high.le, fun same => ?_⟩
    rcases same with same | same <;> linarith

theorem onGrid?_inside {digits : Nat} (found : n.onGrid? k = some digits) :
    n.inside (gridNum n k) (gridDen n k) digits = true := by
  unfold Neighbourhood.onGrid? at found
  dsimp only at found
  split at found <;> rename_i low high
  · cases found
  · cases found
    exact low
  · cases found
    exact high
  · have even : ∀ b, b + b % 2 = b ∨ b + b % 2 = b + 1 := by omega
    split at found
    · cases found
      exact low
    · split at found
      · cases found
        exact high
      · cases found
        rcases even (n.value * gridDen n k / gridNum n k) with same | same
        · exact (congrArg (n.inside _ _) same).trans low
        · exact (congrArg (n.inside _ _) same).trans high

/-- A grid that is not coarser than the unit has a point within the neighbourhood. -/
theorem onGrid?_isSome (low : n.low < n.value) (high : n.value < n.high)
    (positive : 0 < n.unitDen) (fine : gridNum n k ≤ gridDen n k) :
    (n.onGrid? k).isSome = true := by
  have step := gridNum_pos (k := k) positive
  have below : n.inside (gridNum n k) (gridDen n k)
      (n.value * gridDen n k / gridNum n k) = true := by
    have atMost := Nat.div_mul_le_self (n.value * gridDen n k) (gridNum n k)
    have above := Nat.lt_div_mul_add (a := n.value * gridDen n k) step
    have lower : n.low * gridDen n k + gridDen n k ≤ n.value * gridDen n k := by
      rw [← Nat.succ_mul]
      exact Nat.mul_le_mul_right _ low
    have upper : n.value * gridDen n k < n.high * gridDen n k :=
      Nat.mul_lt_mul_of_pos_right high (by omega)
    unfold Neighbourhood.inside
    split <;> simp only [Bool.and_eq_true, decide_eq_true_eq] <;> constructor <;> omega
  unfold Neighbourhood.onGrid?
  dsimp only
  split
  · rename_i outside _
    exact absurd (below.symm.trans outside) (by decide)
  · rfl
  · rfl
  · split
    · rfl
    · split <;> rfl

/-- What a search finds lies on one of its grids. -/
theorem search_found {steps : Nat} {d : Decimal} (found : n.search steps k = some d) :
    n.onGrid? d.exponent = some d.digits ∧ d.exponent ≤ k ∧ k < d.exponent + steps := by
  induction steps generalizing k with
  | zero => cases found
  | succ steps ih =>
      rw [Neighbourhood.search] at found
      split at found
      · rename_i digits hit
        cases found
        exact ⟨hit, le_refl _, by dsimp only; omega⟩
      · obtain ⟨hit, atMost, atLeast⟩ := ih found
        exact ⟨hit, by omega, by omega⟩

theorem search_isSome (steps : Nat) {grid : Int} (hit : (n.onGrid? grid).isSome = true)
    (atMost : grid ≤ k) (atLeast : k < grid + steps) : (n.search steps k).isSome = true := by
  induction steps generalizing k with
  | zero => omega
  | succ steps ih =>
      rw [Neighbourhood.search]
      split
      · rfl
      · rename_i missed
        have other : grid ≠ k := by
          rintro rfl
          rw [missed] at hit
          cases hit
        exact ih (by omega) (by omega)

end Grids

section Numbers

variable {m : Nat} {exponent : Int}

theorem grid_eq (m : Nat) (exponent k : Int) :
    (gridNum (neighbourhood m exponent) k : ℚ) / gridDen (neighbourhood m exponent) k =
      10 ^ k / 2 ^ (exponent - 2) := by
  have tens := pow_toNat_div (by decide : 0 < 10) k
  have twos := pow_toNat_div (by decide : 0 < 2) (exponent - 2)
  rw [neg_sub] at twos
  unfold gridNum gridDen neighbourhood
  push_cast at tens twos ⊢
  rw [← tens, ← twos, div_div_div_eq, mul_comm ((Nat.pow 2 (exponent - 2).toNat : Nat) : ℚ)]

theorem unitNum_pos (m : Nat) (exponent : Int) : 0 < (neighbourhood m exponent).unitNum :=
  Nat.pow_pos (by decide)

theorem unitDen_pos (m : Nat) (exponent : Int) : 0 < (neighbourhood m exponent).unitDen :=
  Nat.pow_pos (by decide)

/-- The last grid of the search is fine enough for every number. -/
theorem last_grid_fine (format : IsFormat m exponent) (nonzero : 0 < m) :
    gridNum (neighbourhood m exponent)
        ((Int.ofNat m.log2 + exponent) * 30103 / 100000 + 2 - 23) ≤
      gridDen (neighbourhood m exponent)
        ((Int.ofNat m.log2 + exponent) * 30103 / 100000 + 2 - 23) := by
  have size : m.log2 ≤ 52 := by
    have := (Nat.log2_lt nonzero.ne').mpr format.small
    omega
  have least := format.least
  have most := format.most
  have power : (10 : ℚ) ^ ((Int.ofNat m.log2 + exponent) * 30103 / 100000 + 2 - 23) ≤
      2 ^ (exponent - 2) := by
    simp only [Int.ofNat_eq_natCast]
    rcases le_total 0 ((m.log2 + exponent) * 30103 / 100000 + 2 - 23) with whole | negative
    · exact ten_zpow_le_of_nonneg whole (by omega)
    · exact ten_zpow_le_of_nonpos negative (by omega)
  have unit : (0 : ℚ) < 2 ^ (exponent - 2) := by positivity
  have den : (0 : ℚ) < gridDen (neighbourhood m exponent)
      ((Int.ofNat m.log2 + exponent) * 30103 / 100000 + 2 - 23) := by
    exact_mod_cast gridDen_pos (unitNum_pos m exponent)
  rw [← div_le_one unit, ← grid_eq m, div_le_one den] at power
  exact_mod_cast power

/-- The digits that the search ends with lie in the neighbourhood of the number. -/
theorem shortest_holds (format : IsFormat m exponent) (nonzero : 0 < m) :
    -400 ≤ (shortest m exponent).exponent ∧ (shortest m exponent).exponent ≤ 400 ∧
      (neighbourhood m exponent).Holds ((shortest m exponent).digits *
        10 ^ (shortest m exponent).exponent / 2 ^ (exponent - 2)) := by
  have size : m.log2 ≤ 52 := by
    have := (Nat.log2_lt nonzero.ne').mpr format.small
    omega
  have least := format.least
  have most := format.most
  have low : (neighbourhood m exponent).low < (neighbourhood m exponent).value := by
    unfold neighbourhood
    dsimp only
    split <;> omega
  have high : (neighbourhood m exponent).value < (neighbourhood m exponent).high := by
    unfold neighbourhood
    dsimp only
    omega
  have hit := onGrid?_isSome low high (unitDen_pos m exponent) (last_grid_fine format nonzero)
  have ends : ((neighbourhood m exponent).search 24
      ((Int.ofNat m.log2 + exponent) * 30103 / 100000 + 2)).isSome = true :=
    search_isSome 24 hit (by omega) (by omega)
  obtain ⟨d, found⟩ := Option.isSome_iff_exists.mp ends
  have same : shortest m exponent = d := by
    unfold shortest
    dsimp only
    rw [found]
    rfl
  obtain ⟨onGrid, atMost, atLeast⟩ := search_found found
  simp only [Int.ofNat_eq_natCast] at atMost atLeast
  rw [same]
  refine ⟨by omega, by omega, ?_⟩
  have holds := inside_holds (gridDen_pos (unitNum_pos m exponent)) (onGrid?_inside onGrid)
  rw [grid_eq, ← mul_div_assoc] at holds
  exact holds

theorem digits_pos_of_holds (nonzero : 0 < m) {digits : Nat} {power : Int}
    (holds : (neighbourhood m exponent).Holds (digits * 10 ^ power / 2 ^ (exponent - 2))) :
    0 < digits := by
  by_contra none
  have zero : digits = 0 := by omega
  have low := holds.low
  have above : 0 < (neighbourhood m exponent).low := by
    unfold neighbourhood
    dsimp only
    split <;> omega
  rw [zero, Nat.cast_zero, zero_mul, zero_div] at low
  have atMost : (neighbourhood m exponent).low ≤ 0 := by exact_mod_cast low
  omega

/-- Digits in the neighbourhood of a number are read as that number. -/
theorem ofDecimal_eq (format : IsFormat m exponent) (nonzero : 0 < m) (negative : Bool)
    {digits : Nat} {power : Int} (atLeast : -400 ≤ power) (atMost : power ≤ 400)
    (holds : (neighbourhood m exponent).Holds (digits * 10 ^ power / 2 ^ (exponent - 2))) :
    ofDecimal negative digits power = pattern negative m exponent := by
  have positive := digits_pos_of_holds nonzero holds
  have some : (digits == 0) = false := by simpa using positive.ne'
  have reach : ¬ Int.ofNat digits.log2 + 3 * power < -3600 := by
    simp only [Int.ofNat_eq_natCast]
    omega
  unfold ofDecimal
  dsimp only
  rw [some, if_neg (by decide), if_neg (by omega), if_neg reach]
  split
  · rename_i whole
    refine ofRatio_eq format nonzero negative (Nat.mul_pos positive (Nat.pow_pos (by decide)))
      Nat.one_pos ?_
    obtain ⟨power, rfl⟩ := Int.eq_ofNat_of_zero_le whole
    simpa [Nat.pow_eq] using holds
  · rename_i below
    refine ofRatio_eq format nonzero negative positive (Nat.pow_pos (by decide)) ?_
    obtain ⟨power, rfl⟩ : ∃ opposite : Nat, power = -opposite := ⟨power.natAbs, by omega⟩
    simpa [Nat.pow_eq, div_eq_mul_inv] using holds

end Numbers

end WebHarvest.Double
