import Lopay.Money
import Mathlib.Tactic.Positivity
import Mathlib.Tactic.FieldSimp

/-!
# What nets the base exactly

What is left of a charge after Paystack's fee rises by at most one kobo when the charge
does, although it may fall. So the search of `grossUp` cannot step over the base, and its
window holds a charge that nets too little and one that nets enough: it always finds a
charge that nets the base to the kobo.
-/

namespace Lopay

/-- Nigerian VAT on the processing fee, when not overridden by the environment. -/
def DEFAULT_PAYSTACK_VAT_RATE : ℚ := 75 / 1000

/-- The VAT rate for the number that the environment sets, if it sets one. -/
def paystackVatRate : Option ℚ → ℚ
  | none => DEFAULT_PAYSTACK_VAT_RATE
  | some parsed => if parsed < 0 ∨ 1 < parsed then DEFAULT_PAYSTACK_VAT_RATE else parsed

theorem paystackVatRate_bounds (raw : Option ℚ) :
    0 ≤ paystackVatRate raw ∧ paystackVatRate raw ≤ 1 := by
  cases raw with
  | none => norm_num [paystackVatRate, DEFAULT_PAYSTACK_VAT_RATE]
  | some parsed =>
    by_cases h : parsed < 0 ∨ 1 < parsed
    · norm_num [paystackVatRate, h, DEFAULT_PAYSTACK_VAT_RATE]
    · simp only [paystackVatRate, if_neg h]
      push Not at h
      exact h

namespace Money

theorem round_le (q : ℚ) : (round q : ℚ) ≤ q + 1 / 2 := Int.floor_le _

theorem lt_round (q : ℚ) : q - 1 / 2 < round q := by
  have h := Int.lt_floor_add_one (q + 1 / 2)
  unfold round
  linarith

end Money

/-! ### The fee -/

section Fee

variable {amount amount' : Int} {vatRate : ℚ}

theorem paystackFeeBeforeVat_mono (h : amount ≤ amount') :
    paystackFeeBeforeVat amount ≤ paystackFeeBeforeVat amount' := by
  have hrate : Money.round (amount * PAYSTACK_RATE) ≤ Money.round (amount' * PAYSTACK_RATE) := by
    apply Money.round_mono
    have hcast : (amount : ℚ) ≤ amount' := Int.cast_le.mpr h
    exact mul_le_mul_of_nonneg_right hcast (by norm_num [PAYSTACK_RATE])
  unfold paystackFeeBeforeVat PAYSTACK_FLAT_KOBO
  simp only
  split_ifs <;> omega

theorem paystackFeeBeforeVat_le_cap (amount : Int) :
    paystackFeeBeforeVat amount ≤ PAYSTACK_FEE_CAP_KOBO := min_le_right _ _

/-- The last amount without the flat component. -/
theorem paystackFeeBeforeVat_waived : paystackFeeBeforeVat 249999 = 3750 := by
  norm_num [paystackFeeBeforeVat, Money.percent, Money.round, PAYSTACK_RATE,
    PAYSTACK_FLAT_WAIVER_THRESHOLD_KOBO, PAYSTACK_FLAT_KOBO, PAYSTACK_FEE_CAP_KOBO]

/-- The fee of an amount without the flat component is far from the cap. -/
theorem paystackFeeBeforeVat_uncapped (h : amount < 250000) :
    paystackFeeBeforeVat amount < PAYSTACK_FEE_CAP_KOBO := by
  have hmono := paystackFeeBeforeVat_mono (by omega : amount ≤ 249999)
  rw [paystackFeeBeforeVat_waived] at hmono
  exact hmono.trans_lt (by decide)

/-- The fee of a processing fee that has been settled. -/
theorem withVat_mono {fee fee' : Int} (hv : 0 ≤ vatRate) (h : fee ≤ fee') :
    fee + Money.round (fee * vatRate) ≤ fee' + Money.round (fee' * vatRate) := by
  have hcast : (fee : ℚ) ≤ fee' := Int.cast_le.mpr h
  have hvat := Money.round_mono (mul_le_mul_of_nonneg_right hcast hv)
  omega

theorem paystackFee_mono (hv : 0 ≤ vatRate) (h : amount ≤ amount') :
    paystackFee amount vatRate ≤ paystackFee amount' vatRate :=
  withVat_mono hv (paystackFeeBeforeVat_mono h)

/-- The fee never exceeds the cap and its VAT. -/
theorem paystackFee_le_cap (hv : 0 ≤ vatRate) (amount : Int) :
    paystackFee amount vatRate ≤
      PAYSTACK_FEE_CAP_KOBO + Money.round (PAYSTACK_FEE_CAP_KOBO * vatRate) :=
  withVat_mono hv (paystackFeeBeforeVat_le_cap amount)

theorem paystackFee_nonneg (hv : 0 ≤ vatRate) (h : 0 ≤ amount) : 0 ≤ paystackFee amount vatRate := by
  have hbefore : 0 ≤ paystackFeeBeforeVat amount := by
    have hrate : 0 ≤ Money.round (amount * PAYSTACK_RATE) :=
      Money.percent_nonneg h (by norm_num [PAYSTACK_RATE])
    unfold paystackFeeBeforeVat PAYSTACK_FLAT_KOBO PAYSTACK_FEE_CAP_KOBO
    simp only
    split_ifs <;> omega
  have hvat : 0 ≤ Money.round (paystackFeeBeforeVat amount * vatRate) :=
    Money.percent_nonneg hbefore hv
  exact add_nonneg hbefore hvat

/-- VAT rounds to within half a kobo. -/
theorem withVat_le (fee : Int) (vatRate : ℚ) :
    ((fee + Money.round (fee * vatRate) : Int) : ℚ) ≤ fee * (1 + vatRate) + 1 / 2 := by
  have h := Money.round_le (fee * vatRate)
  push_cast
  linarith

theorem le_withVat (fee : Int) (vatRate : ℚ) :
    fee * (1 + vatRate) - 1 / 2 ≤ ((fee + Money.round (fee * vatRate) : Int) : ℚ) := by
  have h := Money.lt_round (fee * vatRate)
  push_cast
  linarith

end Fee

/-- What is left of a charge. -/
def netOf (vatRate : ℚ) (amount : Int) : Int := amount - paystackFee amount vatRate

/-! ### The search -/

/-- A function that rises by one at most at each step takes every value on the way from one
    below to one above. -/
theorem exists_eq_of_steps {f : Int → Int} {base first last : Int}
    (hstep : ∀ a, f (a + 1) ≤ f a + 1) (hle : first ≤ last) (hlow : f first ≤ base)
    (hhigh : base ≤ f last) : ∃ a, first ≤ a ∧ a ≤ last ∧ f a = base := by
  obtain ⟨n, rfl⟩ := Int.le.dest hle
  induction n with
  | zero =>
    rw [Nat.cast_zero, add_zero] at hhigh
    exact ⟨first, le_refl _, by simp, le_antisymm hlow hhigh⟩
  | succ n ih =>
    by_cases hprev : base ≤ f (first + n)
    · obtain ⟨a, hfrom, hto, ha⟩ := ih (by omega) hprev
      exact ⟨a, hfrom, by push_cast; omega, ha⟩
    · have hlast := hstep (first + n)
      have hsucc : first + ((n + 1 : Nat) : Int) = first + n + 1 := by push_cast; ring
      rw [hsucc] at hhigh ⊢
      exact ⟨first + n + 1, by omega, le_refl _, by omega⟩

/-- The search returns the first exact charge of the window if there is one. -/
theorem grossUpSearch_exact {base : Int} {vatRate : ℚ} {count : Nat} {first : Int}
    {surplus : Option Int} {a : Int} (hfrom : first ≤ a) (hto : a < first + count)
    (ha : netOf vatRate a = base) :
    ∃ found, grossUpSearch base vatRate count first surplus = some found ∧
      netOf vatRate found = base ∧ first ≤ found ∧
      ∀ b, first ≤ b → netOf vatRate b = base → found ≤ b := by
  induction count generalizing first surplus with
  | zero =>
    rw [Nat.cast_zero] at hto
    omega
  | succ count ih =>
    unfold grossUpSearch
    by_cases hexact : first - paystackFee first vatRate = base
    · exact ⟨first, by simp [hexact], hexact, le_refl first, fun b hb _ => hb⟩
    · have hne : ∀ b, netOf vatRate b = base → b ≠ first := by
        rintro b hb rfl
        exact hexact hb
      have hnext := hne a ha
      push_cast at hto
      have hrest : ∀ surplus, ∃ found,
          grossUpSearch base vatRate count (first + 1) surplus = some found ∧
          netOf vatRate found = base ∧ first ≤ found ∧
          ∀ b, first ≤ b → netOf vatRate b = base → found ≤ b := by
        intro surplus
        obtain ⟨found, hfound, hnets, hafter, hleast⟩ := @ih (first + 1) surplus (by omega) (by omega)
        refine ⟨found, hfound, hnets, by omega, fun b hb hbnets => hleast b ?_ hbnets⟩
        have := hne b hbnets
        omega
      simp only [if_neg hexact]
      split
      · exact hrest _
      · exact hrest _

/-! ### The window -/

/-- The flat component on a charge. -/
def flatFee (amount : Int) : Int :=
  if amount < PAYSTACK_FLAT_WAIVER_THRESHOLD_KOBO then 0 else PAYSTACK_FLAT_KOBO

/-- What Paystack's percentage comes to with VAT on it. -/
def effectiveRate (vatRate : ℚ) : ℚ := PAYSTACK_RATE * (1 + vatRate)

section Window

variable {amount base seed flat : Int} {vatRate : ℚ}

theorem effectiveRate_bounds (hv : 0 ≤ vatRate) (hv' : vatRate ≤ 1) :
    0 ≤ effectiveRate vatRate ∧ effectiveRate vatRate ≤ 3 / 100 := by
  unfold effectiveRate PAYSTACK_RATE
  constructor <;> linarith

theorem paystackFeeBeforeVat_eq (amount : Int) : paystackFeeBeforeVat amount =
    min (Money.round (amount * PAYSTACK_RATE) + flatFee amount) PAYSTACK_FEE_CAP_KOBO := rfl

/-- A charge nets no less than the rates say, within the rounding. -/
theorem netOf_ge (hv : 0 ≤ vatRate) (hv' : vatRate ≤ 1) (amount : Int) :
    amount * (1 - effectiveRate vatRate) - flatFee amount * (1 + vatRate) - 3 / 2 ≤
      (netOf vatRate amount : ℚ) := by
  have hbefore : (paystackFeeBeforeVat amount : ℚ) ≤
      amount * PAYSTACK_RATE + flatFee amount + 1 / 2 := by
    have hraw : paystackFeeBeforeVat amount ≤
        Money.round (amount * PAYSTACK_RATE) + flatFee amount := min_le_left _ _
    have hcast : (paystackFeeBeforeVat amount : ℚ) ≤
        Money.round (amount * PAYSTACK_RATE) + flatFee amount := by exact_mod_cast hraw
    have hround := Money.round_le (amount * PAYSTACK_RATE)
    linarith
  have hfee : (paystackFee amount vatRate : ℚ) ≤ _ :=
    withVat_le (paystackFeeBeforeVat amount) vatRate
  have hscaled := mul_le_mul_of_nonneg_right hbefore (by linarith : 0 ≤ 1 + vatRate)
  unfold netOf effectiveRate
  push_cast
  linarith

/-- Below the cap it nets no more. -/
theorem netOf_le (hv : 0 ≤ vatRate) (hv' : vatRate ≤ 1)
    (huncapped : paystackFeeBeforeVat amount < PAYSTACK_FEE_CAP_KOBO) :
    (netOf vatRate amount : ℚ) ≤
      amount * (1 - effectiveRate vatRate) - flatFee amount * (1 + vatRate) + 3 / 2 := by
  have hbefore : amount * PAYSTACK_RATE + flatFee amount - 1 / 2 ≤
      (paystackFeeBeforeVat amount : ℚ) := by
    have hraw : paystackFeeBeforeVat amount =
        Money.round (amount * PAYSTACK_RATE) + flatFee amount := by
      rw [paystackFeeBeforeVat_eq] at huncapped ⊢
      omega
    have hround := Money.lt_round (amount * PAYSTACK_RATE)
    rw [hraw]
    push_cast
    linarith
  have hfee : _ ≤ (paystackFee amount vatRate : ℚ) :=
    le_withVat (paystackFeeBeforeVat amount) vatRate
  have hscaled := mul_le_mul_of_nonneg_right hbefore (by linarith : 0 ≤ 1 + vatRate)
  unfold netOf effectiveRate
  push_cast
  linarith

/-- The closed form of a region, rounded up. -/
theorem seed_bounds (hv : 0 ≤ vatRate) (hv' : vatRate ≤ 1)
    (hseed : seed = ⌈(base + flat * (1 + vatRate) : ℚ) / (1 - effectiveRate vatRate)⌉) :
    base + flat * (1 + vatRate) ≤ seed * (1 - effectiveRate vatRate) ∧
      seed * (1 - effectiveRate vatRate) <
        base + flat * (1 + vatRate) + (1 - effectiveRate vatRate) := by
  have hrate := effectiveRate_bounds hv hv'
  have hpos : 0 < 1 - effectiveRate vatRate := by linarith
  have hle := Int.le_ceil ((base + flat * (1 + vatRate) : ℚ) / (1 - effectiveRate vatRate))
  have hlt := Int.ceil_lt_add_one ((base + flat * (1 + vatRate) : ℚ) / (1 - effectiveRate vatRate))
  rw [← hseed] at hle hlt
  constructor
  · exact (div_le_iff₀ hpos).mp hle
  · have h : (seed : ℚ) - 1 < (base + flat * (1 + vatRate)) / (1 - effectiveRate vatRate) := by
      linarith
    have := (lt_div_iff₀ hpos).mp h
    linarith

/-- In a region without the cap, two more than the seed nets enough. -/
theorem seed_nets (hv : 0 ≤ vatRate) (hv' : vatRate ≤ 1)
    (hseed : seed = ⌈(base + flat * (1 + vatRate) : ℚ) / (1 - effectiveRate vatRate)⌉)
    (hflat : flatFee (seed + 2) ≤ flat) : base ≤ netOf vatRate (seed + 2) := by
  have hrate := effectiveRate_bounds hv hv'
  have hge := netOf_ge hv hv' (seed + 2)
  have hbound := (seed_bounds hv hv' hseed).1
  have hcast : (flatFee (seed + 2) : ℚ) ≤ flat := Int.cast_le.mpr hflat
  have hscaled := mul_le_mul_of_nonneg_right hcast (by linarith : 0 ≤ 1 + vatRate)
  push_cast at hge
  have h : (base : ℚ) < netOf vatRate (seed + 2) + 1 := by linarith
  have h' : base < netOf vatRate (seed + 2) + 1 := by exact_mod_cast h
  omega

/-- The window begins where a charge nets too little. -/
theorem window_starts_low (hv : 0 ≤ vatRate) (hv' : vatRate ≤ 1)
    (hseed : seed = ⌈(base + flat * (1 + vatRate) : ℚ) / (1 - effectiveRate vatRate)⌉)
    (hflat : flat ≤ flatFee (seed - 32))
    (huncapped : paystackFeeBeforeVat (seed - 32) < PAYSTACK_FEE_CAP_KOBO) :
    netOf vatRate (seed - 32) ≤ base := by
  have hrate := effectiveRate_bounds hv hv'
  have hle := netOf_le hv hv' huncapped
  have hbound := (seed_bounds hv hv' hseed).2
  have hcast : (flat : ℚ) ≤ flatFee (seed - 32) := Int.cast_le.mpr hflat
  have hscaled := mul_le_mul_of_nonneg_right hcast (by linarith : 0 ≤ 1 + vatRate)
  push_cast at hle
  have h : (netOf vatRate (seed - 32) : ℚ) ≤ base := by linarith
  exact_mod_cast h

/-! ### The three regions -/

/-- What the last charge without the flat component nets. -/
theorem netOf_below_threshold (vatRate : ℚ) :
    netOf vatRate 249999 = 246249 - Money.round (3750 * vatRate) := by
  have hcast : ((3750 : Int) : ℚ) = 3750 := by norm_num
  rw [netOf, paystackFee, paystackFeeBeforeVat_waived, hcast]
  omega

/-- The last charge without the flat component nets enough for every base below it. -/
theorem nets_below_threshold (hv' : vatRate ≤ 1)
    (hbase : (base : ℚ) ≤ 249999 * (1 - effectiveRate vatRate)) :
    base ≤ netOf vatRate 249999 := by
  have hround := Money.round_le (3750 * vatRate)
  have h : (base : ℚ) < (netOf vatRate 249999 : ℚ) + 1 := by
    unfold effectiveRate PAYSTACK_RATE at hbase
    rw [netOf_below_threshold]
    push_cast
    linarith
  have h' : base < netOf vatRate 249999 + 1 := by exact_mod_cast h
  omega

/-- A charge shortly below the cap costs within three kobo of the cap and its VAT. -/
theorem fee_near_cap (hv : 0 ≤ vatRate) (hv' : vatRate ≤ 1) (hamount : 12666600 ≤ amount) :
    PAYSTACK_FEE_CAP_KOBO + Money.round (PAYSTACK_FEE_CAP_KOBO * vatRate) ≤
      paystackFee amount vatRate + 3 := by
  have hbefore : paystackFeeBeforeVat 12666600 = 199999 := by
    norm_num [paystackFeeBeforeVat, Money.percent, Money.round, PAYSTACK_RATE,
      PAYSTACK_FLAT_WAIVER_THRESHOLD_KOBO, PAYSTACK_FLAT_KOBO, PAYSTACK_FEE_CAP_KOBO]
  have hmono := paystackFee_mono hv hamount
  have hfee : paystackFee 12666600 vatRate = 199999 + Money.round (199999 * vatRate) := by
    unfold paystackFee
    rw [hbefore]
    norm_num
  have hlow := Money.lt_round (199999 * vatRate)
  have hhigh := Money.round_le (PAYSTACK_FEE_CAP_KOBO * vatRate)
  have hcap : ((PAYSTACK_FEE_CAP_KOBO : Int) : ℚ) = 200000 := by norm_num [PAYSTACK_FEE_CAP_KOBO]
  rw [hcap] at hhigh ⊢
  have hvat : (Money.round (200000 * vatRate) : ℚ) < Money.round (199999 * vatRate) + 3 := by
    linarith
  have hvat' : Money.round (200000 * vatRate) < Money.round (199999 * vatRate) + 3 := by
    exact_mod_cast hvat
  unfold PAYSTACK_FEE_CAP_KOBO
  omega

/-- A charge in the window of the capped region is all but capped. -/
theorem capped_nets_low (hv : 0 ≤ vatRate) (hv' : vatRate ≤ 1) (hamount : 12666600 ≤ amount)
    (hbase : amount + 32 = base + PAYSTACK_FEE_CAP_KOBO +
      Money.round (PAYSTACK_FEE_CAP_KOBO * vatRate)) : netOf vatRate amount ≤ base := by
  have hnear := fee_near_cap hv hv' hamount
  unfold netOf
  omega

/-- The window around the seed holds a charge that nets too little, at its lower end, and
    one that nets enough. -/
def Crosses (vatRate : ℚ) (base seed : Int) : Prop :=
  netOf vatRate (max 1 (seed - 32)) ≤ base ∧
    ∃ high, max 1 (seed - 32) ≤ high ∧ high ≤ seed + 32 ∧ base ≤ netOf vatRate high

theorem crosses_of (high : Int) (hv : 0 ≤ vatRate) (hbase : 0 < base)
    (hlow : netOf vatRate (seed - 32) ≤ base) (hone : 1 ≤ high) (hfrom : seed - 32 ≤ high)
    (hto : high ≤ seed + 32) (hhigh : base ≤ netOf vatRate high) : Crosses vatRate base seed := by
  refine ⟨?_, high, max_le hone hfrom, hto, hhigh⟩
  rcases max_choice 1 (seed - 32) with h | h
  · have := paystackFee_nonneg hv (by decide : (0 : Int) ≤ 1)
    rw [h]
    unfold netOf
    omega
  · rw [h]
    exact hlow

/-- The seed of the region without the flat component. -/
theorem crosses_waived (hv : 0 ≤ vatRate) (hv' : vatRate ≤ 1) (hbase : 0 < base)
    (hseed : seed = ⌈(base + ((0 : Int) : ℚ) * (1 + vatRate)) / (1 - effectiveRate vatRate)⌉)
    (hpos : 0 < seed) (hwaived : seed < PAYSTACK_FLAT_WAIVER_THRESHOLD_KOBO) :
    Crosses vatRate base seed := by
  unfold PAYSTACK_FLAT_WAIVER_THRESHOLD_KOBO at hwaived
  have hnoFlat : ∀ a, a < 250000 → flatFee a = 0 := fun a ha => if_pos ha
  have huncapped : paystackFeeBeforeVat (seed - 32) < PAYSTACK_FEE_CAP_KOBO :=
    paystackFeeBeforeVat_uncapped (by omega)
  have hlow := window_starts_low hv hv' hseed (hnoFlat _ (by omega)).ge huncapped
  by_cases hnear : seed + 2 < 250000
  · exact crosses_of (seed + 2) hv hbase hlow (by omega) (by omega) (by omega)
      (seed_nets hv hv' hseed (hnoFlat _ hnear).le)
  · -- Two more would bring the flat component in.
    refine crosses_of 249999 hv hbase hlow (by omega) (by omega) (by omega) ?_
    have hrate := effectiveRate_bounds hv hv'
    have hbound := (seed_bounds hv hv' hseed).1
    have hle : (seed : ℚ) ≤ 249999 := by exact_mod_cast (by omega : seed ≤ 249999)
    have hscaled := mul_le_mul_of_nonneg_right hle (by linarith : 0 ≤ 1 - effectiveRate vatRate)
    push_cast at hbound
    exact nets_below_threshold hv' (by linarith)

/-- The seed of the region with the flat component below the cap. -/
theorem crosses_flat (hv : 0 ≤ vatRate) (hv' : vatRate ≤ 1) (hbase : 0 < base)
    (hseed : seed = ⌈(base + PAYSTACK_FLAT_KOBO * (1 + vatRate) : ℚ) /
      (1 - effectiveRate vatRate)⌉)
    (hlarge : 250000 ≤ seed - 32) (huncapped : paystackFeeBeforeVat seed < PAYSTACK_FEE_CAP_KOBO) :
    Crosses vatRate base seed := by
  have hflat : ∀ a, 250000 ≤ a → flatFee a = PAYSTACK_FLAT_KOBO := fun a ha => if_neg (not_lt.mpr ha)
  have hmono := paystackFeeBeforeVat_mono (by omega : seed - 32 ≤ seed)
  exact crosses_of (seed + 2) hv hbase
    (window_starts_low hv hv' hseed (hflat _ hlarge).ge (by omega)) (by omega) (by omega) (by omega) (seed_nets hv hv' hseed (hflat _ (by omega)).le)

/-- A seed whose fee reaches the cap. -/
theorem capped_seed_large (hcapped : PAYSTACK_FEE_CAP_KOBO ≤ paystackFeeBeforeVat seed) :
    12666633 < seed := by
  have hraw : 190000 ≤ Money.round (seed * PAYSTACK_RATE) := by
    have hflat : flatFee seed ≤ 10000 := by
      unfold flatFee PAYSTACK_FLAT_KOBO
      split <;> omega
    rw [paystackFeeBeforeVat_eq] at hcapped
    unfold PAYSTACK_FEE_CAP_KOBO at hcapped
    omega
  have hround := Money.round_le (seed * PAYSTACK_RATE)
  have hrawQ : (190000 : ℚ) ≤ Money.round (seed * PAYSTACK_RATE) := by exact_mod_cast hraw
  have hlt : (12666633 : ℚ) < seed := by
    unfold PAYSTACK_RATE at hround hrawQ
    linarith
  exact_mod_cast hlt

/-- The seed of the capped region, given that the one before it reaches the cap. -/
theorem crosses_capped (hv : 0 ≤ vatRate) (hv' : vatRate ≤ 1) (hbase : 0 < base)
    (hseed : seed = ⌈(base + PAYSTACK_FLAT_KOBO * (1 + vatRate) : ℚ) /
      (1 - effectiveRate vatRate)⌉)
    (hcapped : PAYSTACK_FEE_CAP_KOBO ≤ paystackFeeBeforeVat seed) :
    Crosses vatRate base
      (base + PAYSTACK_FEE_CAP_KOBO + Money.round (PAYSTACK_FEE_CAP_KOBO * vatRate)) := by
  have hrate := effectiveRate_bounds hv hv'
  have hreached : 12666633 ≤ seed - 1 := by
    have := capped_seed_large hcapped
    omega
  have hlarge : 12666632 < base + PAYSTACK_FEE_CAP_KOBO +
      Money.round (PAYSTACK_FEE_CAP_KOBO * vatRate) := by
    have hreachedQ : (12666633 : ℚ) ≤ seed - 1 := by exact_mod_cast hreached
    have hscaled := mul_le_mul_of_nonneg_right hreachedQ
      (by linarith : 0 ≤ 1 - effectiveRate vatRate)
    have hbound := (seed_bounds hv hv' hseed).2
    have hvat := Money.lt_round (PAYSTACK_FEE_CAP_KOBO * vatRate)
    have hlt : (12666632 : ℚ) < base + PAYSTACK_FEE_CAP_KOBO +
        Money.round (PAYSTACK_FEE_CAP_KOBO * vatRate) := by
      unfold effectiveRate PAYSTACK_RATE PAYSTACK_FLAT_KOBO at hbound
      unfold effectiveRate PAYSTACK_RATE at hscaled
      unfold PAYSTACK_FEE_CAP_KOBO at hvat ⊢
      push_cast at hbound hvat ⊢
      linarith
    exact_mod_cast hlt
  refine crosses_of _ hv hbase (capped_nets_low hv hv' (by omega) (by ring)) (by omega) (by omega)
    (le_add_of_nonneg_right (by decide)) ?_
  have := paystackFee_le_cap hv (base + PAYSTACK_FEE_CAP_KOBO +
    Money.round (PAYSTACK_FEE_CAP_KOBO * vatRate))
  unfold netOf
  omega

/-- Once the first region is left, the seed with the flat component is well above it. -/
theorem flat_seed_large {seed₁ seed₂ : Int} (hv : 0 ≤ vatRate) (hv' : vatRate ≤ 1)
    (hseed₁ : seed₁ = ⌈(base + ((0 : Int) : ℚ) * (1 + vatRate)) / (1 - effectiveRate vatRate)⌉)
    (hseed₂ : seed₂ = ⌈(base + PAYSTACK_FLAT_KOBO * (1 + vatRate) : ℚ) /
      (1 - effectiveRate vatRate)⌉)
    (hflat : PAYSTACK_FLAT_WAIVER_THRESHOLD_KOBO ≤ seed₁) : 250032 < seed₂ := by
  have hrate := effectiveRate_bounds hv hv'
  have hpos : 0 < 1 - effectiveRate vatRate := by linarith
  have hbound₁ := (seed_bounds hv hv' hseed₁).2
  have hbound₂ := (seed_bounds hv hv' hseed₂).1
  have hreached : (250000 : ℚ) ≤ seed₁ := by exact_mod_cast hflat
  have hscaled := mul_le_mul_of_nonneg_right hreached hpos.le
  have hlarge : (250032 : ℚ) < seed₂ := by
    apply lt_of_mul_lt_mul_right _ hpos.le
    unfold PAYSTACK_FLAT_KOBO at hbound₂
    push_cast at hbound₁ hbound₂
    linarith
  exact_mod_cast hlarge

/-- The search has to cross the base. -/
theorem grossUpSeed_crosses (hv : 0 ≤ vatRate) (hv' : vatRate ≤ 1) (hbase : 0 < base) :
    Crosses vatRate base (grossUpSeed base vatRate) := by
  have hrate := effectiveRate_bounds hv hv'
  have hpos : 0 < 1 - effectiveRate vatRate := by linarith
  set seed₁ : Int := ⌈(base : ℚ) / (1 - effectiveRate vatRate)⌉ with hseed₁
  set seed₂ : Int := ⌈(base + PAYSTACK_FLAT_KOBO * (1 + vatRate) : ℚ) /
    (1 - effectiveRate vatRate)⌉ with hseed₂
  have heq₁ : seed₁ = ⌈(base + ((0 : Int) : ℚ) * (1 + vatRate)) / (1 - effectiveRate vatRate)⌉ := by
    rw [hseed₁, Int.cast_zero, zero_mul, add_zero]
  have hdef : grossUpSeed base vatRate =
      if PAYSTACK_FLAT_WAIVER_THRESHOLD_KOBO ≤ seed₁ then
        if PAYSTACK_FEE_CAP_KOBO ≤ paystackFeeBeforeVat seed₂ then
          base + PAYSTACK_FEE_CAP_KOBO + Money.round (PAYSTACK_FEE_CAP_KOBO * vatRate)
        else seed₂
      else seed₁ := rfl
  rw [hdef]
  by_cases hflat : PAYSTACK_FLAT_WAIVER_THRESHOLD_KOBO ≤ seed₁
  · rw [if_pos hflat]
    by_cases hcap : PAYSTACK_FEE_CAP_KOBO ≤ paystackFeeBeforeVat seed₂
    · rw [if_pos hcap]
      exact crosses_capped hv hv' hbase hseed₂ hcap
    · rw [if_neg hcap]
      have hlarge := flat_seed_large hv hv' heq₁ hseed₂ hflat
      exact crosses_flat hv hv' hbase hseed₂ (by omega) (by omega)
  · rw [if_neg hflat]
    have hseedpos : 0 < seed₁ := Int.ceil_pos.mpr (div_pos (Int.cast_pos.mpr hbase) hpos)
    exact crosses_waived hv hv' hbase heq₁ hseedpos (by omega)

end Window

/-- `grossUp` finds the first charge of its window that nets the base exactly. -/
theorem grossUp_finds {base : Int} {vatRate : ℚ} (hv : 0 ≤ vatRate) (hv' : vatRate ≤ 1)
    (hbase : 0 < base) : ∃ charge, grossUp base vatRate = .ok charge ∧
      charge.paystackFee = paystackFee charge.amountCharged vatRate ∧
      netOf vatRate charge.amountCharged = base ∧
      max 1 (grossUpSeed base vatRate - 32) ≤ charge.amountCharged ∧
      charge.amountCharged ≤ grossUpSeed base vatRate + 32 ∧
      ∀ b, max 1 (grossUpSeed base vatRate - 32) ≤ b → netOf vatRate b = base →
        charge.amountCharged ≤ b := by
  obtain ⟨hlow, high, hfrom, hto, hhigh⟩ := grossUpSeed_crosses hv hv' hbase
  have hstep : ∀ a, netOf vatRate (a + 1) ≤ netOf vatRate a + 1 := by
    intro a
    have := paystackFee_mono hv (by omega : a ≤ a + 1)
    unfold netOf
    omega
  obtain ⟨a, hfirst, hlast, ha⟩ := exists_eq_of_steps hstep hfrom hlow hhigh
  set first := max 1 (grossUpSeed base vatRate - 32) with hwindow
  have hsearch : ∃ found, grossUpSearch base vatRate
      (grossUpSeed base vatRate + 32 + 1 - first).toNat first none = some found ∧
        netOf vatRate found = base ∧ first ≤ found ∧
        ∀ b, first ≤ b → netOf vatRate b = base → found ≤ b :=
    grossUpSearch_exact hfirst (by omega) ha
  obtain ⟨found, hfound, hnet, hafter, hleast⟩ := hsearch
  have hinside := hleast a hfirst ha
  refine ⟨⟨found, paystackFee found vatRate⟩, ?_, rfl, hnet, hafter, by dsimp only; omega, hleast⟩
  rw [grossUp, if_neg (by omega)]
  simp only [GROSS_UP_SEARCH_WINDOW_KOBO, Nat.cast_ofNat]
  rw [← hwindow, hfound]

/-- What `grossUp` charges nets the base exactly. -/
theorem grossUp_exact {base : Int} {vatRate : ℚ} (hv : 0 ≤ vatRate) (hv' : vatRate ≤ 1)
    (hbase : 0 < base) : ∃ charge, grossUp base vatRate = .ok charge ∧
      charge.paystackFee = paystackFee charge.amountCharged vatRate ∧
      charge.amountCharged - charge.paystackFee = base := by
  obtain ⟨charge, hcharge, hfee, hnets, -⟩ := grossUp_finds hv hv' hbase
  refine ⟨charge, hcharge, hfee, ?_⟩
  rw [hfee]
  exact hnets

/-- `grossUp` never throws and never leaves a surplus: it charges an amount of its window that
    nets the base exactly, and reports the fee on it. -/
theorem grossUp_nets_base (base : Int) (vatRate : ℚ) (hbase : 1 ≤ base) (hv : 0 ≤ vatRate)
    (hv' : vatRate ≤ 1) : ∃ charge, grossUp base vatRate = .ok charge ∧
      charge.amountCharged - paystackFee charge.amountCharged vatRate = base ∧
      charge.paystackFee = paystackFee charge.amountCharged vatRate ∧
      max 1 (grossUpSeed base vatRate - GROSS_UP_SEARCH_WINDOW_KOBO) ≤ charge.amountCharged ∧
      charge.amountCharged ≤ grossUpSeed base vatRate + GROSS_UP_SEARCH_WINDOW_KOBO := by
  obtain ⟨charge, hcharge, hfee, hnets, hfrom, hto, -⟩ := grossUp_finds hv hv' hbase
  exact ⟨charge, hcharge, hnets, hfee, hfrom, hto⟩

/-- A charge of ₦4.27 with Nigerian VAT, where one kobo more nets less. -/
theorem grossUp_nets_base_step : ∃ charge, grossUp 427 (75 / 1000) = .ok charge ∧
    charge.amountCharged - paystackFee charge.amountCharged (75 / 1000) = 427 ∧
    charge.paystackFee = paystackFee charge.amountCharged (75 / 1000) ∧
    max 1 (grossUpSeed 427 (75 / 1000) - GROSS_UP_SEARCH_WINDOW_KOBO) ≤ charge.amountCharged ∧
    charge.amountCharged ≤ grossUpSeed 427 (75 / 1000) + GROSS_UP_SEARCH_WINDOW_KOBO :=
  grossUp_nets_base 427 (75 / 1000) (by decide) (by norm_num) (by norm_num)

end Lopay
