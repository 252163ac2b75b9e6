import Lopay.Schedule.Progress

/-!
# The advertised schedule

`calculateInstallments` of `payments/payment.service.ts` quotes a schedule before there is a
plan; `derivePlanProgress` quotes one payment at a time to the plan as it stands. Both round
every slot down and let the last one take the remainder, so paying what is quoted follows
what was advertised.
-/

namespace Lopay

namespace Schedule

open Invites (WEEKLY_INSTALLMENTS MONTHLY_INSTALLMENTS installmentCountFor)

structure InstallmentCalculationResult where
  totalBalance : Int
  numberOfInstallments : Int
  installmentAmount : Int
  finalInstallmentAmount : Int
  plan : InstallmentFrequency
deriving DecidableEq

/-- The schedule of a balance. Every installment is rounded down and the final one absorbs
    the remainder. -/
def calculateInstallments (remainingBalance : Int) (plan : InstallmentFrequency) :
    Except String InstallmentCalculationResult :=
  if remainingBalance ≤ 0 then .error "No balance to calculate installments"
  else
    let numberOfInstallments := match plan with
      | .WEEKLY => WEEKLY_INSTALLMENTS
      | .MONTHLY => MONTHLY_INSTALLMENTS
    let installmentAmount := remainingBalance / numberOfInstallments
    .ok
      { totalBalance := remainingBalance
        numberOfInstallments
        installmentAmount
        finalInstallmentAmount := remainingBalance - installmentAmount * (numberOfInstallments - 1)
        plan }

/-- The payments a schedule describes, in order. -/
def InstallmentCalculationResult.slots (r : InstallmentCalculationResult) : List Int :=
  List.replicate (r.numberOfInstallments - 1).toNat r.installmentAmount ++
    [r.finalInstallmentAmount]

/-- The quotes a plan is given while each of them is paid, until it is settled. -/
inductive Followed (frequency : InstallmentFrequency) : Int × Int → List Int → Prop
  | settled {plan : Int × Int} :
      (derivePlanProgress ⟨plan.1, plan.2, frequency⟩).settled = true → Followed frequency plan []
  | pays {plan : Int × Int} {quotes : List Int} :
      (derivePlanProgress ⟨plan.1, plan.2, frequency⟩).settled = false →
        Followed frequency (payQuote frequency plan) quotes →
          Followed frequency plan (quote frequency plan :: quotes)

section Advertised

variable {frequency : InstallmentFrequency} {plan : Int × Int} {quotes others : List Int}
  {balance k : Int}

/-- A plan is quoted one sequence of payments. -/
theorem Followed.unique (h : Followed frequency plan quotes) :
    Followed frequency plan others → quotes = others := by
  induction h generalizing others with
  | settled hsettled =>
    intro hother
    cases hother with
    | settled => rfl
    | pays hopen => rw [hsettled] at hopen; cases hopen
  | pays hopen _ ih =>
    intro hother
    cases hother with
    | settled hsettled => rw [hopen] at hsettled; cases hsettled
    | pays _ hrest => rw [ih hrest]

theorem Followed.of_owed_nothing (h : plan.1 ≤ 0) : Followed frequency plan [] :=
  .settled (derivePlanProgress_settled h)

theorem Followed.of_owed (h : 0 < plan.1)
    (hrest : Followed frequency (payQuote frequency plan) quotes) :
    Followed frequency plan (quote frequency plan :: quotes) := by
  refine .pays ?_ hrest
  rw [← Bool.not_eq_true, settled_iff]
  omega

/-- With `k` level slots paid the next one is quoted. -/
theorem quote_level (frequency : InstallmentFrequency) (hslot : 0 < balance / installmentCountFor frequency) (h0 : 0 ≤ k)
    (hk : k < installmentCountFor frequency) :
    0 < balance - balance / installmentCountFor frequency * k ∧
      quote frequency (balance - balance / installmentCountFor frequency * k,
          balance / installmentCountFor frequency * k) =
        cumulativeTarget balance (installmentCountFor frequency) (k + 1) -
          balance / installmentCountFor frequency * k := by
  have hcount := installmentCountFor_pos frequency
  have htotal : 0 < installmentCountFor frequency := by omega
  have hbalance : 0 ≤ balance := by
    by_contra hneg
    have := Int.ediv_neg_of_neg_of_pos (by omega : balance < 0) htotal
    omega
  have hlevel : cumulativeTarget balance (installmentCountFor frequency) k =
      balance / installmentCountFor frequency * k := cumulativeTarget_level h0 hk
  have hsucc := cumulativeTarget_succ htotal hbalance hslot h0 hk
  have hle := cumulativeTarget_le (n := k + 1) htotal hbalance
  have howed : 0 < balance - balance / installmentCountFor frequency * k := by omega
  have hpaid : 0 ≤ balance / installmentCountFor frequency * k := mul_nonneg hslot.le h0
  have hwhole : balance - balance / installmentCountFor frequency * k +
      balance / installmentCountFor frequency * k = balance := by omega
  have h := derivePlanProgress_standing frequency howed hpaid
  have hcovered : (derivePlanProgress ⟨balance - balance / installmentCountFor frequency * k,
      balance / installmentCountFor frequency * k, frequency⟩).paidInstallments = k := by
    apply h.unique howed hpaid
    · rwa [hwhole]
    · rw [hwhole, hlevel]
    · rw [hwhole]
      omega
  refine ⟨howed, ?_⟩
  rw [quote, h.quote, hwhole, if_neg hslot.ne', hcovered]

/-- From the `k`-th level slot on, the quotes are the slots that are left. -/
theorem level_followed (hslot : 0 < balance / installmentCountFor frequency) (n : Nat) :
    ∀ {k : Int}, 0 ≤ k → k + n + 1 = installmentCountFor frequency →
      Followed frequency (balance - balance / installmentCountFor frequency * k,
          balance / installmentCountFor frequency * k)
        (List.replicate n (balance / installmentCountFor frequency) ++
          [balance - balance / installmentCountFor frequency *
            (installmentCountFor frequency - 1)]) := by
  have hcount := installmentCountFor_pos frequency
  induction n with
  | zero =>
    intro k h0 hk
    obtain ⟨howed, hquote⟩ := quote_level frequency hslot h0 (by omega)
    have hlast : k + 1 = installmentCountFor frequency := by omega
    rw [hlast, cumulativeTarget_last (by omega)] at hquote
    have hk : installmentCountFor frequency - 1 = k := by omega
    have hrest : Followed frequency
        (payQuote frequency (balance - balance / installmentCountFor frequency * k,
          balance / installmentCountFor frequency * k)) [] :=
      Followed.of_owed_nothing (by simp only [payQuote, hquote, sub_self, le_refl])
    have h := Followed.of_owed howed hrest
    rw [hquote] at h
    rw [hk]
    exact h
  | succ n ih =>
    intro k h0 hk
    obtain ⟨howed, hquote⟩ := quote_level frequency hslot h0 (by omega)
    rw [cumulativeTarget_level (by omega) (by omega), mul_add, mul_one, add_sub_cancel_left]
      at hquote
    have hnext := ih (k := k + 1) (by omega) (by omega)
    have hpaid : payQuote frequency (balance - balance / installmentCountFor frequency * k,
        balance / installmentCountFor frequency * k) =
        (balance - balance / installmentCountFor frequency * (k + 1),
          balance / installmentCountFor frequency * (k + 1)) := by
      simp only [payQuote, hquote, mul_add, mul_one, sub_sub]
    have h := Followed.of_owed howed (hpaid ▸ hnext)
    rwa [hquote] at h

/-- A balance below the number of slots is quoted whole. -/
theorem small_followed (hb : 0 < balance) (hslot : balance / installmentCountFor frequency = 0) :
    Followed frequency (balance, 0) [balance] := by
  have h := derivePlanProgress_standing frequency hb (le_refl 0)
  have hquote : quote frequency (balance, 0) = balance := by
    rw [quote, h.quote, add_zero, if_pos hslot]
  have hrest : Followed frequency (payQuote frequency (balance, 0)) [] :=
    Followed.of_owed_nothing (by simp only [payQuote, hquote, sub_self, le_refl])
  have hall : Followed frequency (balance, 0) [quote frequency (balance, 0)] :=
    Followed.of_owed hb hrest
  rwa [hquote] at hall

/-! ### The two agree -/

/-- What is advertised for a balance. -/
theorem calculateInstallments_ok (frequency : InstallmentFrequency) (hb : 0 < balance) :
    calculateInstallments balance frequency = .ok
      { totalBalance := balance
        numberOfInstallments := installmentCountFor frequency
        installmentAmount := balance / installmentCountFor frequency
        finalInstallmentAmount := balance - balance / installmentCountFor frequency *
          (installmentCountFor frequency - 1)
        plan := frequency } := by
  cases frequency <;> exact if_neg (not_le.mpr hb)

/-- The slots add up to the balance. -/
theorem slots_sum {r : InstallmentCalculationResult} (hn : 1 ≤ r.numberOfInstallments)
    (hfinal : r.finalInstallmentAmount =
      r.totalBalance - r.installmentAmount * (r.numberOfInstallments - 1)) :
    r.slots.sum = r.totalBalance := by
  have hcast : ((r.numberOfInstallments - 1).toNat : Int) = r.numberOfInstallments - 1 :=
    Int.toNat_of_nonneg (by omega)
  simp only [InstallmentCalculationResult.slots, List.sum_append, List.sum_replicate,
    List.sum_cons, List.sum_nil, add_zero, nsmul_eq_mul, hcast, hfinal]
  rw [mul_comm r.installmentAmount]
  omega

/-- The advertised schedule, its empty slots aside, is the one sequence of quotes that a plan
    with nothing paid is given, and it adds up to the balance. -/
theorem advertised_followed (frequency : InstallmentFrequency) (balance : Int) (hb : 0 < balance) :
    ∃ r, calculateInstallments balance frequency = .ok r ∧
      (∀ quotes, Followed frequency (balance, 0) quotes ↔
        quotes = r.slots.filter fun amount => amount ≠ 0) ∧
      r.slots.sum = balance := by
  refine ⟨_, calculateInstallments_ok frequency hb, ?_, slots_sum ?_ rfl⟩
  · have hcount := installmentCountFor_pos frequency
    suffices hfollowed : Followed frequency (balance, 0) _ from
      fun quotes => ⟨fun h => h.unique hfollowed, fun h => h ▸ hfollowed⟩
    simp only [InstallmentCalculationResult.slots]
    by_cases hslot : balance / installmentCountFor frequency = 0
    · have hempty : List.filter (fun amount : Int => decide (amount ≠ 0))
          (List.replicate (installmentCountFor frequency - 1).toNat 0 ++ [balance]) =
          [balance] := by
        simp [hb.ne']
      rw [hslot, zero_mul, sub_zero, hempty]
      exact small_followed hb hslot
    · have hnonneg : 0 ≤ balance / installmentCountFor frequency :=
        Int.ediv_nonneg hb.le (by omega)
      have hpositive : 0 < balance / installmentCountFor frequency := by omega
      have hlast := quote_level frequency hpositive (k := installmentCountFor frequency - 1)
        (by omega) (by omega)
      have hfull : List.filter (fun amount : Int => decide (amount ≠ 0))
          (List.replicate (installmentCountFor frequency - 1).toNat
              (balance / installmentCountFor frequency) ++
            [balance - balance / installmentCountFor frequency *
              (installmentCountFor frequency - 1)]) =
          List.replicate (installmentCountFor frequency - 1).toNat
              (balance / installmentCountFor frequency) ++
            [balance - balance / installmentCountFor frequency *
              (installmentCountFor frequency - 1)] := by
        simp [hslot, hlast.1.ne']
      rw [hfull]
      have h := level_followed hpositive (installmentCountFor frequency - 1).toNat (k := 0)
        (le_refl 0) (by omega)
      rwa [mul_zero, sub_zero] at h
  · have hcount := installmentCountFor_pos frequency
    exact hcount.le

/-- ₦1 over three months is thirty-three kobo twice and then thirty-four. -/
theorem advertised_followed_monthly : Followed .MONTHLY (100, 0) [33, 33, 34] := by
  obtain ⟨r, hr, hfollowed, -⟩ := advertised_followed .MONTHLY 100 (by decide)
  cases hr
  exact (hfollowed _).2 (by decide)

end Advertised

end Schedule

end Lopay
