import Lopay.GrossUp
import Mathlib.Order.Bounds.Basic

/-!
# The cheapest charge

The search of `grossUp` finds the least charge of its window that nets the base. No charge
below the window does, but for one: the last amount without the flat component nets a base for
which the estimate of that region has already reached the threshold, and the parent is then
charged the flat component for nothing.
-/

namespace Lopay

section Cheapest

variable {a base seed flat : Int} {vatRate : ℚ}

/-- The base is what a charge one kobo below the waiver threshold nets, and the VAT on its fee
    has been rounded down far enough. -/
def Overcharged (base : Int) (vatRate : ℚ) : Prop :=
  base + Money.round (3750 * vatRate) = 246249 ∧
    15 / 1000 * (1 + vatRate) < 3750 * vatRate - Money.round (3750 * vatRate)

/-- Only a positive charge nets a positive base. -/
theorem netting_pos (hv : 0 ≤ vatRate) (hv' : vatRate ≤ 1) (hbase : 0 < base)
    (ha : netOf vatRate a = base) : 1 ≤ a := by
  by_contra hneg
  have huncapped : paystackFeeBeforeVat a < PAYSTACK_FEE_CAP_KOBO :=
    paystackFeeBeforeVat_uncapped (by omega)
  have hflat : flatFee a = 0 := if_pos (by unfold PAYSTACK_FLAT_WAIVER_THRESHOLD_KOBO; omega)
  have hle := netOf_le hv hv' huncapped
  have hrate := effectiveRate_bounds hv hv'
  have hbaseQ : (1 : ℚ) ≤ base := by exact_mod_cast hbase
  rw [ha, hflat, Int.cast_zero, zero_mul, sub_zero] at hle
  have hzero : ∀ amount : Int, amount = 0 ∨ amount = -1 → netOf vatRate amount = amount := by
    intro amount hnone
    have hbefore : paystackFeeBeforeVat amount = 0 := by
      rcases hnone with rfl | rfl <;>
        norm_num [paystackFeeBeforeVat, Money.percent, Money.round, PAYSTACK_RATE,
          PAYSTACK_FLAT_WAIVER_THRESHOLD_KOBO, PAYSTACK_FEE_CAP_KOBO, Int.floor_eq_iff]
    have hround : Money.round (((0 : Int) : ℚ) * vatRate) = 0 := by norm_num [Money.round]
    rw [netOf, paystackFee, hbefore, hround, add_zero, sub_zero]
  by_cases hlarge : a ≤ -2
  · have hlargeQ : (a : ℚ) ≤ -2 := by exact_mod_cast hlarge
    have hscaled := mul_le_mul_of_nonneg_right hlargeQ (by linarith : 0 ≤ 1 - effectiveRate vatRate)
    linarith
  · have hnets := hzero a (by omega)
    omega

/-- A charge of the region of the seed that nets the base is not far below the seed. -/
theorem netting_near (hv : 0 ≤ vatRate) (hv' : vatRate ≤ 1)
    (hseed : seed = ⌈(base + flat * (1 + vatRate) : ℚ) / (1 - effectiveRate vatRate)⌉)
    (ha : netOf vatRate a = base) (hflat : flatFee a = flat)
    (huncapped : paystackFeeBeforeVat a < PAYSTACK_FEE_CAP_KOBO) : seed < a + 3 := by
  have hrate := effectiveRate_bounds hv hv'
  have hle := netOf_le hv hv' huncapped
  have hbound := (seed_bounds hv hv' hseed).2
  rw [ha, hflat] at hle
  have hlt : (seed : ℚ) < a + 3 := by
    apply lt_of_mul_lt_mul_right _ (by linarith : 0 ≤ 1 - effectiveRate vatRate)
    linarith
  exact_mod_cast hlt

/-- The one charge without the flat component that can net a base beyond its region. -/
theorem netting_waived (hv : 0 ≤ vatRate) (hv' : vatRate ≤ 1) (ha : netOf vatRate a = base)
    (hsmall : a < 250000) (hlarge : (249999 : ℚ) * (1 - effectiveRate vatRate) < base) :
    a = 249999 := by
  have hrate := effectiveRate_bounds hv hv'
  have huncapped : paystackFeeBeforeVat a < PAYSTACK_FEE_CAP_KOBO :=
    paystackFeeBeforeVat_uncapped hsmall
  have hflat : flatFee a = 0 := if_pos hsmall
  have hle := netOf_le hv hv' huncapped
  rw [ha, hflat, Int.cast_zero, zero_mul, sub_zero] at hle
  have hnear : (249997 : ℚ) < a := by
    apply lt_of_mul_lt_mul_right _ (by linarith : 0 ≤ 1 - effectiveRate vatRate)
    linarith
  have hnear' : 249997 < a := by exact_mod_cast hnear
  by_contra hne
  obtain rfl : a = 249998 := by omega
  -- One kobo less costs the same fee.
  have hbefore : paystackFeeBeforeVat 249998 = 3750 := by
    norm_num [paystackFeeBeforeVat, Money.percent, Money.round, PAYSTACK_RATE,
      PAYSTACK_FLAT_WAIVER_THRESHOLD_KOBO, PAYSTACK_FLAT_KOBO, PAYSTACK_FEE_CAP_KOBO]
  have hnets : netOf vatRate 249998 = 246248 - Money.round (3750 * vatRate) := by
    have hcast : ((3750 : Int) : ℚ) = 3750 := by norm_num
    rw [netOf, paystackFee, hbefore, hcast]
    omega
  have hround := Money.lt_round (3750 * vatRate)
  rw [← ha, hnets] at hlarge
  unfold effectiveRate PAYSTACK_RATE at hlarge
  push_cast at hlarge
  linarith

/-- When that charge nets the base, and the estimate has left its region. -/
theorem overcharged_iff : Overcharged base vatRate ↔
    netOf vatRate 249999 = base ∧ (249999 : ℚ) * (1 - effectiveRate vatRate) < base := by
  unfold Overcharged
  rw [netOf_below_threshold]
  constructor
  · rintro ⟨hbase, hrounded⟩
    refine ⟨by omega, ?_⟩
    have hbaseQ : (base : ℚ) + Money.round (3750 * vatRate) = 246249 := by exact_mod_cast hbase
    unfold effectiveRate PAYSTACK_RATE
    linarith
  · rintro ⟨hbase, hlarge⟩
    refine ⟨by omega, ?_⟩
    have hbaseQ : (246249 : ℚ) - Money.round (3750 * vatRate) = base := by exact_mod_cast hbase
    unfold effectiveRate PAYSTACK_RATE at hlarge
    linarith

/-- The three regions of the seed. -/
theorem grossUpSeed_cases (base : Int) (vatRate : ℚ) :
    ∃ seed₁ seed₂ : Int,
      seed₁ = ⌈(base + ((0 : Int) : ℚ) * (1 + vatRate)) / (1 - effectiveRate vatRate)⌉ ∧
      seed₂ = ⌈(base + PAYSTACK_FLAT_KOBO * (1 + vatRate) : ℚ) / (1 - effectiveRate vatRate)⌉ ∧
      ((seed₁ < 250000 ∧ grossUpSeed base vatRate = seed₁) ∨
        (250000 ≤ seed₁ ∧ paystackFeeBeforeVat seed₂ < PAYSTACK_FEE_CAP_KOBO ∧
          grossUpSeed base vatRate = seed₂) ∨
        (250000 ≤ seed₁ ∧ PAYSTACK_FEE_CAP_KOBO ≤ paystackFeeBeforeVat seed₂ ∧
          grossUpSeed base vatRate =
            base + PAYSTACK_FEE_CAP_KOBO + Money.round (PAYSTACK_FEE_CAP_KOBO * vatRate))) := by
  refine ⟨_, _, rfl, rfl, ?_⟩
  rw [Int.cast_zero, zero_mul, add_zero]
  unfold grossUpSeed effectiveRate PAYSTACK_FLAT_WAIVER_THRESHOLD_KOBO
  simp only
  split
  · split
    · exact Or.inr (Or.inr ⟨by assumption, by assumption, rfl⟩)
    · exact Or.inr (Or.inl ⟨by assumption, not_le.mp (by assumption), rfl⟩)
  · exact Or.inl ⟨not_le.mp (by assumption), rfl⟩

/-- The estimate of the first region reaches the threshold. -/
theorem waiver_reached (hv : 0 ≤ vatRate) (hv' : vatRate ≤ 1)
    (hseed : seed = ⌈(base + ((0 : Int) : ℚ) * (1 + vatRate)) / (1 - effectiveRate vatRate)⌉) :
    250000 ≤ seed ↔ (249999 : ℚ) * (1 - effectiveRate vatRate) < base := by
  have hrate := effectiveRate_bounds hv hv'
  have hceil : 249999 < seed ↔
      ((249999 : Int) : ℚ) < (base + ((0 : Int) : ℚ) * (1 + vatRate)) / (1 - effectiveRate vatRate) := by
    rw [hseed]
    exact Int.lt_ceil
  rw [Int.cast_zero, zero_mul, add_zero, lt_div_iff₀ (by linarith)] at hceil
  exact hceil

/-- A charge with the flat component that nets the base is in the window of its region. -/
theorem netting_flat {seed₂ : Int} (hv : 0 ≤ vatRate) (hv' : vatRate ≤ 1)
    (ha : netOf vatRate a = base) (hlarge : 250000 ≤ a)
    (hseed₂ : seed₂ = ⌈(base + PAYSTACK_FLAT_KOBO * (1 + vatRate) : ℚ) /
      (1 - effectiveRate vatRate)⌉) : seed₂ ≤ a + 2 ∨ PAYSTACK_FEE_CAP_KOBO ≤ paystackFeeBeforeVat a := by
  have hflat : flatFee a = PAYSTACK_FLAT_KOBO := if_neg (not_lt.mpr hlarge)
  by_cases huncapped : paystackFeeBeforeVat a < PAYSTACK_FEE_CAP_KOBO
  · have hnear := netting_near hv hv' hseed₂ ha hflat huncapped
    exact Or.inl (by omega)
  · exact Or.inr (not_lt.mp huncapped)

/-- A charge that nets the base is not below the window, unless it is the one that saves the flat
    component. -/
theorem netting_in_window (hv : 0 ≤ vatRate) (hv' : vatRate ≤ 1) (hbase : 0 < base)
    (ha : netOf vatRate a = base) :
    max 1 (grossUpSeed base vatRate - 32) ≤ a ∨ Overcharged base vatRate := by
  have hone := netting_pos hv hv' hbase ha
  obtain ⟨seed₁, seed₂, hseed₁, hseed₂, hregion⟩ := grossUpSeed_cases base vatRate
  have hreached := waiver_reached hv hv' hseed₁
  rw [overcharged_iff]
  by_cases hsmall : a < 250000
  · by_cases hpast : 250000 ≤ seed₁
    · -- The estimate has left the region of the charge.
      obtain rfl := netting_waived hv hv' ha hsmall (hreached.mp hpast)
      exact Or.inr ⟨ha, hreached.mp hpast⟩
    · have huncapped : paystackFeeBeforeVat a < PAYSTACK_FEE_CAP_KOBO :=
        paystackFeeBeforeVat_uncapped hsmall
      have hnear := netting_near hv hv' hseed₁ ha (if_pos hsmall) huncapped
      rcases hregion with ⟨-, hseed⟩ | ⟨hpast', -⟩ | ⟨hpast', -⟩
      · exact Or.inl (by omega)
      · exact absurd hpast' hpast
      · exact absurd hpast' hpast
  · left
    have hnear := netting_flat hv hv' ha (not_lt.mp hsmall) hseed₂
    rcases hregion with ⟨hwaived, hseed⟩ | ⟨-, huncapped, hseed⟩ | ⟨-, hcapped, hseed⟩
    · omega
    · rcases hnear with hnear | hcapped
      · omega
      · have hafter : seed₂ ≤ a := by
          by_contra hbefore
          have := paystackFeeBeforeVat_mono (by omega : a ≤ seed₂)
          omega
        omega
    · have hnets : a = base + paystackFee a vatRate := by
        unfold netOf at ha
        omega
      rcases hnear with hnear | hcapped'
      · have hfee := fee_near_cap hv hv' (by have := capped_seed_large hcapped; omega : 12666600 ≤ a)
        omega
      · have hfee : paystackFee a vatRate =
            PAYSTACK_FEE_CAP_KOBO + Money.round (PAYSTACK_FEE_CAP_KOBO * vatRate) := by
          unfold paystackFee
          rw [le_antisymm (paystackFeeBeforeVat_le_cap a) hcapped']
        omega

/-- The charge that saves the flat component is below the window. -/
theorem overcharged_window (hv : 0 ≤ vatRate) (hv' : vatRate ≤ 1)
    (h : Overcharged base vatRate) : 249999 < grossUpSeed base vatRate - 32 := by
  obtain ⟨hnets, hlarge⟩ := overcharged_iff.mp h
  obtain ⟨seed₁, seed₂, hseed₁, hseed₂, hregion⟩ := grossUpSeed_cases base vatRate
  have hpast := (waiver_reached hv hv' hseed₁).mpr hlarge
  have hflat := flat_seed_large hv hv' hseed₁ hseed₂ hpast
  rcases hregion with ⟨hwaived, -⟩ | ⟨-, -, hseed⟩ | ⟨-, hcapped, hseed⟩
  · omega
  · omega
  · -- So small a base never reaches the cap.
    have hreached := capped_seed_large hcapped
    have hbound := (seed_bounds hv hv' hseed₂).2
    have hrate := effectiveRate_bounds hv hv'
    have hreachedQ : (12666633 : ℚ) ≤ seed₂ := by exact_mod_cast hreached.le
    have hscaled := mul_le_mul_of_nonneg_right hreachedQ
      (by linarith : 0 ≤ 1 - effectiveRate vatRate)
    have hsmall : base ≤ 249999 := by
      have := paystackFee_nonneg hv (by decide : (0 : Int) ≤ 249999)
      unfold netOf at hnets
      omega
    have hsmallQ : (base : ℚ) ≤ 249999 := by exact_mod_cast hsmall
    unfold PAYSTACK_FLAT_KOBO at hbound
    push_cast at hbound
    linarith

end Cheapest

/-- `grossUp` charges the least amount that nets the base, except for the base that the last
    charge without the flat component nets after its VAT has been rounded down. -/
theorem grossUp_least_iff (base : Int) (vatRate : ℚ) (hbase : 1 ≤ base) (hv : 0 ≤ vatRate)
    (hv' : vatRate ≤ 1) :
    (∃ charge, grossUp base vatRate = .ok charge ∧
      IsLeast {a : Int | a - paystackFee a vatRate = base} charge.amountCharged) ↔
    ¬ (base + Money.round (3750 * vatRate) = 246249 ∧
      15 / 1000 * (1 + vatRate) < 3750 * vatRate - Money.round (3750 * vatRate)) := by
  change _ ↔ ¬ Overcharged base vatRate
  obtain ⟨charge, hcharge, -, hnets, hfrom, -, hleast⟩ := grossUp_finds hv hv' hbase
  constructor
  · rintro ⟨charge', hcharge', -, hlower⟩ h
    obtain rfl := Except.ok.inj (hcharge.symm.trans hcharge')
    have hcheaper := hlower (overcharged_iff.mp h).1
    have hwindow := overcharged_window hv hv' h
    omega
  · intro h
    refine ⟨charge, hcharge, hnets, fun a ha => ?_⟩
    rcases netting_in_window hv hv' hbase ha with hwindow | hover
    · exact hleast a hwindow ha
    · exact absurd hover h

/-- A charge of ₦4.27 with Nigerian VAT. -/
theorem grossUp_least_iff_step :
    (∃ charge, grossUp 427 (75 / 1000) = .ok charge ∧
      IsLeast {a : Int | a - paystackFee a (75 / 1000) = 427} charge.amountCharged) ↔
    ¬ ((427 : Int) + Money.round (3750 * (75 / 1000)) = 246249 ∧
      (15 / 1000 * (1 + 75 / 1000) : ℚ) < 3750 * (75 / 1000) -
        Money.round (3750 * (75 / 1000))) :=
  grossUp_least_iff 427 (75 / 1000) (by decide) (by norm_num) (by norm_num)

/-- For ₦2,459.68 the parent is charged ₦2,609.26 although ₦2,499.99 would do. -/
theorem grossUp_least_fails_at_threshold :
    ¬ ∀ (base : Int) (vatRate : ℚ), 1 ≤ base → 0 ≤ vatRate → vatRate ≤ 1 →
      ∃ charge, grossUp base vatRate = .ok charge ∧
        IsLeast {a : Int | a - paystackFee a vatRate = base} charge.amountCharged := by
  intro hlaw
  obtain ⟨charge, hcharge, -, hlower⟩ :=
    hlaw 245968 (75 / 1000) (by decide) (by norm_num) (by norm_num)
  have hruns : (grossUp 245968 (75 / 1000)).toOption.map (·.amountCharged) = some 260926 := by
    decide +kernel
  rw [hcharge] at hruns
  have hcheaper : charge.amountCharged ≤ 249999 := hlower (by decide +kernel)
  have hcharged : charge.amountCharged = 260926 := Option.some.inj hruns
  omega

end Lopay
