import Mathlib.Data.Rat.Floor
import Mathlib.Tactic.Linarith
import Mathlib.Tactic.NormNum

/-!
# Kobo arithmetic

Amounts are stored in integer kobo. Rates and client-supplied Naira amounts are
exact rationals here, and `Math.round` is the half-up rounding `⌊x + 1/2⌋`.
-/

namespace Lopay

namespace Money

/-- `Math.round`. -/
def round (q : ℚ) : Int := ⌊q + 1 / 2⌋

def fromNaira (naira : ℚ) : Int := round (naira * 100)

def percent (kobo : Int) (rate : ℚ) : Int := round (kobo * rate)

def toNaira (kobo : Int) : ℚ := kobo / 100

/-- Decimal digits with a comma after every third, as `en-NG` groups them. -/
def groupThousands (n : Nat) : String :=
  let digits := (Nat.repr n).toList
  let rec go : List Char → List Char
    | [] => []
    | c :: rest => if rest.length % 3 = 0 ∧ rest ≠ [] then c :: ',' :: go rest else c :: go rest
  String.ofList (go digits)

/-- ₦1,187.50, for notification and error messages. -/
def formatNaira (kobo : Int) : String :=
  let abs := kobo.natAbs
  let cents := abs % 100
  "₦" ++ (if kobo < 0 then "-" else "") ++ groupThousands (abs / 100) ++ "." ++
    (if cents < 10 then "0" else "") ++ Nat.repr cents

theorem round_nonneg {q : ℚ} (h : 0 ≤ q) : 0 ≤ round q := by
  unfold round
  apply Int.floor_nonneg.mpr
  linarith

theorem round_mono {p q : ℚ} (h : p ≤ q) : round p ≤ round q := by
  unfold round
  apply Int.floor_le_floor
  linarith

theorem percent_nonneg {kobo : Int} {rate : ℚ} (hk : 0 ≤ kobo) (hr : 0 ≤ rate) :
    0 ≤ percent kobo rate := by
  unfold percent
  apply round_nonneg
  exact mul_nonneg (Int.cast_nonneg hk) hr

/-- Naira shown and read back are the same kobo. -/
theorem fromNaira_toNaira (kobo : Int) : fromNaira (toNaira kobo) = kobo := by
  have h : (toNaira kobo * 100 + 1 / 2 : ℚ) = kobo + 1 / 2 := by
    unfold toNaira
    ring
  rw [fromNaira, round, h, Int.floor_intCast_add]
  norm_num

theorem toNaira_inj {a b : Int} : toNaira a = toNaira b ↔ a = b := by
  constructor
  · intro h
    rw [← fromNaira_toNaira a, ← fromNaira_toNaira b, h]
  · rintro rfl
    rfl

theorem toNaira_add (a b : Int) : toNaira (a + b) = toNaira a + toNaira b := by
  unfold toNaira
  push_cast
  ring

end Money

/-! ### Fee policy -/

/-- 2.5% of the total school fee, fixed at enrollment. -/
def PLATFORM_FEE_RATE : ℚ := 25 / 1000

/-- 25% of the total school fee. -/
def FIRST_PAYMENT_DEPOSIT_RATE : ℚ := 25 / 100

/-- A migrated plan carries no platform fee. -/
def MIGRATED_ENROLLMENT_PLATFORM_FEE_RATE : ℚ := 0

/-! ### The deposit split -/

structure DepositCalculation where
  schoolFees : Int
  platformFee : Int
  minimumDeposit : Int
  depositPaid : Int
  amountToSchool : Int
  remainingBalance : Int

/-- Split a first payment into the platform's and the school's share; the message
    of the refusal otherwise. -/
def calculateInitialPayment (schoolFeesKobo depositPaidKobo : Int) :
    Except String DepositCalculation :=
  if schoolFeesKobo ≤ 0 then
    .error "Invalid school fees"
  else
    let platformFee := Money.percent schoolFeesKobo PLATFORM_FEE_RATE
    let schoolShare := Money.percent schoolFeesKobo FIRST_PAYMENT_DEPOSIT_RATE
    let minimumDeposit := schoolShare + platformFee
    let maxDeposit := schoolFeesKobo + platformFee
    if depositPaidKobo < minimumDeposit then
      .error ("Deposit is below minimum required. Minimum first payment: " ++
        Money.formatNaira minimumDeposit)
    else if maxDeposit < depositPaidKobo then
      .error ("Deposit exceeds the total payable. Maximum first payment: " ++
        Money.formatNaira maxDeposit)
    else
      let amountToSchool := depositPaidKobo - platformFee
      .ok
        { schoolFees := schoolFeesKobo
          platformFee
          minimumDeposit
          depositPaid := depositPaidKobo
          amountToSchool
          remainingBalance := schoolFeesKobo - amountToSchool }

/-- What an accepted deposit is split into. -/
theorem calculateInitialPayment_ok {fees deposit : Int} {c : DepositCalculation}
    (h : calculateInitialPayment fees deposit = .ok c) :
    0 < c.schoolFees ∧ c.schoolFees = fees ∧ c.depositPaid = deposit ∧
      0 ≤ c.amountToSchool ∧ c.amountToSchool ≤ c.schoolFees ∧ 0 ≤ c.platformFee ∧
      c.amountToSchool + c.platformFee = deposit := by
  unfold calculateInitialPayment at h
  split at h
  · cases h
  · next hfees =>
    simp only at h
    split at h
    · cases h
    · next hmin =>
      split at h
      · cases h
      · next hmax =>
        obtain rfl := Except.ok.inj h
        have hshare : 0 ≤ Money.percent fees FIRST_PAYMENT_DEPOSIT_RATE :=
          Money.percent_nonneg (by omega) (by norm_num [FIRST_PAYMENT_DEPOSIT_RATE])
        have hplatform : 0 ≤ Money.percent fees PLATFORM_FEE_RATE :=
          Money.percent_nonneg (by omega) (by norm_num [PLATFORM_FEE_RATE])
        refine ⟨?_, rfl, rfl, ?_, ?_, hplatform, ?_⟩ <;> simp only <;> omega

/-! ### Paystack's fee -/

def PAYSTACK_RATE : ℚ := 15 / 1000

/-- ₦100 -/
def PAYSTACK_FLAT_KOBO : Int := 10000

/-- Below ₦2,500 the flat component is waived. -/
def PAYSTACK_FLAT_WAIVER_THRESHOLD_KOBO : Int := 250000

/-- ₦2,000, before VAT. -/
def PAYSTACK_FEE_CAP_KOBO : Int := 200000

def GROSS_UP_SEARCH_WINDOW_KOBO : Nat := 32

def paystackFeeBeforeVat (amountKobo : Int) : Int :=
  let flat := if amountKobo < PAYSTACK_FLAT_WAIVER_THRESHOLD_KOBO then 0 else PAYSTACK_FLAT_KOBO
  let raw := Money.round (amountKobo * PAYSTACK_RATE) + flat
  min raw PAYSTACK_FEE_CAP_KOBO

def paystackFee (amountKobo : Int) (vatRate : ℚ) : Int :=
  let beforeVat := paystackFeeBeforeVat amountKobo
  beforeVat + Money.round (beforeVat * vatRate)

structure GrossUp where
  amountCharged : Int
  paystackFee : Int

/-- The seed of the search: the closed form of the region the charge falls in. -/
def grossUpSeed (baseKobo : Int) (vatRate : ℚ) : Int :=
  let withVat := 1 + vatRate
  let effectiveRate := PAYSTACK_RATE * withVat
  let seed₁ : Int := ⌈(baseKobo : ℚ) / (1 - effectiveRate)⌉
  if PAYSTACK_FLAT_WAIVER_THRESHOLD_KOBO ≤ seed₁ then
    let seed₂ : Int := ⌈(baseKobo + PAYSTACK_FLAT_KOBO * withVat : ℚ) / (1 - effectiveRate)⌉
    if PAYSTACK_FEE_CAP_KOBO ≤ paystackFeeBeforeVat seed₂ then
      baseKobo + PAYSTACK_FEE_CAP_KOBO + Money.round (PAYSTACK_FEE_CAP_KOBO * vatRate)
    else seed₂
  else seed₁

/-- The loop of `grossUp` over `count` consecutive amounts: the first that nets
    exactly, else the first that netted more. -/
def grossUpSearch (baseKobo : Int) (vatRate : ℚ) : Nat → Int → Option Int → Option Int
  | 0, _, surplus => surplus
  | count + 1, amount, surplus =>
    let net := amount - paystackFee amount vatRate
    if net = baseKobo then some amount
    else if baseKobo < net ∧ surplus = none then
      grossUpSearch baseKobo vatRate count (amount + 1) (some amount)
    else grossUpSearch baseKobo vatRate count (amount + 1) surplus

/-- What to charge so that Paystack's fee comes on top; the message of the error
    otherwise. -/
def grossUp (baseKobo : Int) (vatRate : ℚ)
    (searchWindowKobo : Nat := GROSS_UP_SEARCH_WINDOW_KOBO) : Except String GrossUp :=
  if baseKobo ≤ 0 then
    .error ("grossUp requires a positive integer kobo base, got " ++ toString baseKobo)
  else
    let seed := grossUpSeed baseKobo vatRate
    let first := max 1 (seed - searchWindowKobo)
    let last := seed + searchWindowKobo
    match grossUpSearch baseKobo vatRate (last + 1 - first).toNat first none with
    | some amount => .ok { amountCharged := amount, paystackFee := paystackFee amount vatRate }
    | none => .error ("grossUp found no charge that nets base=" ++ toString baseKobo ++
        " (seed=" ++ toString seed ++ ")")

end Lopay
