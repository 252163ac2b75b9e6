import Lopay.Invites.Policy
import Mathlib.Algebra.BigOperators.Group.Finset.Basic

/-!
# The installment schedule

`common/installment-schedule.ts`: how far through a plan the money paid on it has carried
it. Slots are level and rounded down, the last one takes the remainder, and progress is
read off the value paid. Paying what is quoted closes one slot at a time.
-/

namespace Lopay

namespace Schedule

open Invites (installmentCountFor)

/-- Kobo that must have been paid to have closed slot `n`. -/
def cumulativeTarget (planStartBalance totalInstallments n : Int) : Int :=
  if n ≤ 0 then 0
  else if totalInstallments ≤ n then planStartBalance
  else planStartBalance / totalInstallments * n

structure PlanProgressInput where
  remainingBalance : Int
  installmentsPaidKobo : Int
  installmentFrequency : InstallmentFrequency

structure PlanProgress where
  totalInstallments : Int
  planStartBalance : Int
  installmentsPaidKobo : Int
  scheduledInstallment : Int
  paidInstallments : Int
  remainingInstallments : Int
  nextInstallmentAmount : Int
  creditTowardNextInstallment : Int
  settled : Bool
deriving DecidableEq

/-- The loop over the slots from 1 to `n`: the last one whose target has been reached. -/
def slotsCovered (target : Int → Int) (paid : Int) : Nat → Int
  | 0 => 0
  | n + 1 =>
    if 0 < target (n + 1) ∧ target (n + 1) ≤ paid then n + 1 else slotsCovered target paid n

/-- Where a plan stands. -/
def derivePlanProgress (input : PlanProgressInput) : PlanProgress :=
  let totalInstallments := installmentCountFor input.installmentFrequency
  let remainingBalance := max 0 input.remainingBalance
  let installmentsPaidKobo := max 0 input.installmentsPaidKobo
  let planStartBalance := remainingBalance + installmentsPaidKobo
  if remainingBalance ≤ 0 then
    { totalInstallments
      planStartBalance
      installmentsPaidKobo
      scheduledInstallment := 0
      paidInstallments := if 0 < planStartBalance then totalInstallments else 0
      remainingInstallments := 0
      nextInstallmentAmount := 0
      creditTowardNextInstallment := 0
      settled := true }
  else
    let target := cumulativeTarget planStartBalance totalInstallments
    let paidInstallments :=
      min (slotsCovered target installmentsPaidKobo totalInstallments.toNat)
        (totalInstallments - 1)
    let nextDue := max 0 (target (paidInstallments + 1) - installmentsPaidKobo)
    { totalInstallments
      planStartBalance
      installmentsPaidKobo
      scheduledInstallment := planStartBalance / totalInstallments
      paidInstallments
      remainingInstallments := totalInstallments - paidInstallments
      nextInstallmentAmount :=
        if 0 < nextDue then min nextDue remainingBalance else remainingBalance
      creditTowardNextInstallment := max 0 (installmentsPaidKobo - target paidInstallments)
      settled := false }

theorem installmentCountFor_pos (frequency : InstallmentFrequency) :
    1 < installmentCountFor frequency := by
  cases frequency <;> decide

/-! ### Level slots -/

section Slots

variable {balance total paid k n : Int}

theorem cumulativeTarget_zero : cumulativeTarget balance total 0 = 0 := if_pos (le_refl 0)

theorem cumulativeTarget_last (h : 0 < total) : cumulativeTarget balance total total = balance := by
  rw [cumulativeTarget, if_neg (by omega), if_pos (le_refl total)]

theorem cumulativeTarget_level (h0 : 0 ≤ n) (hn : n < total) :
    cumulativeTarget balance total n = balance / total * n := by
  unfold cumulativeTarget
  by_cases hzero : n ≤ 0
  · have hn : n = 0 := by omega
    rw [if_pos hzero, hn, mul_zero]
  · rw [if_neg hzero, if_neg (by omega)]

theorem slots_le (htotal : 0 < total) (hbalance : 0 ≤ balance) (hn : n ≤ total) :
    balance / total * n ≤ balance :=
  calc balance / total * n ≤ balance / total * total :=
        mul_le_mul_of_nonneg_left hn (Int.ediv_nonneg hbalance htotal.le)
    _ ≤ balance := Int.ediv_mul_le balance htotal.ne'

theorem cumulativeTarget_nonneg (htotal : 0 < total) (hbalance : 0 ≤ balance) :
    0 ≤ cumulativeTarget balance total n := by
  unfold cumulativeTarget
  split
  · exact le_refl 0
  · split
    · exact hbalance
    · exact mul_nonneg (Int.ediv_nonneg hbalance htotal.le) (by omega)

theorem cumulativeTarget_le (htotal : 0 < total) (hbalance : 0 ≤ balance) :
    cumulativeTarget balance total n ≤ balance := by
  unfold cumulativeTarget
  split
  · exact hbalance
  · split
    · exact le_refl balance
    · exact slots_le htotal hbalance (by omega)

theorem cumulativeTarget_mono (htotal : 0 < total) (hbalance : 0 ≤ balance) (hkn : k ≤ n) :
    cumulativeTarget balance total k ≤ cumulativeTarget balance total n := by
  by_cases hk : k ≤ 0
  · rw [cumulativeTarget, if_pos hk]
    exact cumulativeTarget_nonneg htotal hbalance
  · by_cases hn : total ≤ n
    · rw [cumulativeTarget.eq_def balance total n, if_neg (by omega), if_pos hn]
      exact cumulativeTarget_le htotal hbalance
    · rw [cumulativeTarget_level (by omega) (by omega), cumulativeTarget_level (by omega) (by omega)]
      exact mul_le_mul_of_nonneg_left hkn (Int.ediv_nonneg hbalance htotal.le)

/-- With a positive slot every slot asks for more than the one before. -/
theorem cumulativeTarget_succ (htotal : 0 < total) (hbalance : 0 ≤ balance)
    (hslot : 0 < balance / total) (h0 : 0 ≤ n) (hn : n < total) :
    cumulativeTarget balance total n < cumulativeTarget balance total (n + 1) := by
  rw [cumulativeTarget_level h0 hn]
  have hnext : balance / total * n < balance / total * (n + 1) :=
    mul_lt_mul_of_pos_left (by omega) hslot
  by_cases hlast : n + 1 < total
  · rw [cumulativeTarget_level (by omega) hlast]
    exact hnext
  · have heq : n + 1 = total := by omega
    have hwhole := slots_le (n := n + 1) htotal hbalance (by omega)
    rw [heq] at hnext hwhole ⊢
    rw [cumulativeTarget_last htotal]
    exact hnext.trans_le hwhole

/-- The slot that the loop ends on has been reached, and no later one has. -/
theorem slotsCovered_spec (target : Int → Int) (hzero : target 0 ≤ paid) (count : Nat) :
    0 ≤ slotsCovered target paid count ∧ slotsCovered target paid count ≤ count ∧
      target (slotsCovered target paid count) ≤ paid ∧
      (slotsCovered target paid count = 0 ∨ 0 < target (slotsCovered target paid count)) ∧
      ∀ n, slotsCovered target paid count < n → n ≤ count → 0 < target n → paid < target n := by
  induction count with
  | zero =>
    refine ⟨le_refl _, le_refl _, hzero, .inl rfl, ?_⟩
    intro n h0 hn
    simp only [slotsCovered] at h0
    omega
  | succ count ih =>
    obtain ⟨hnonneg, hle, hreached, hasks, hlater⟩ := ih
    unfold slotsCovered
    by_cases h : 0 < target (count + 1) ∧ target (count + 1) ≤ paid
    · rw [if_pos h]
      refine ⟨by omega, by simp, h.2, .inr h.1, ?_⟩
      intro n hlt hn
      push_cast at hn
      omega
    · rw [if_neg h]
      refine ⟨hnonneg, by push_cast; omega, hreached, hasks, ?_⟩
      intro n hlt hn hpos
      by_cases hlast : n = count + 1
      · subst hlast
        by_contra hnot
        exact h ⟨hpos, by omega⟩
      · push_cast at hn
        exact hlater n hlt (by omega) hpos

end Slots

/-! ### Progress of a plan that owes money -/

/-- What the progress of a plan says that owes `remaining` after `paid` has been paid: the
    number of slots covered lies below the total, its target has been reached, and the next
    one has not, unless the slots are empty. -/
structure Standing (frequency : InstallmentFrequency) (remaining paid : Int) (g : PlanProgress) :
    Prop where
  total : g.totalInstallments = installmentCountFor frequency
  balance : g.planStartBalance = remaining + paid
  kobo : g.installmentsPaidKobo = paid
  slot : g.scheduledInstallment = (remaining + paid) / installmentCountFor frequency
  unsettled : g.settled = false
  nonneg : 0 ≤ g.paidInstallments
  below : g.paidInstallments ≤ installmentCountFor frequency - 1
  reached : cumulativeTarget (remaining + paid) (installmentCountFor frequency)
    g.paidInstallments ≤ paid
  next : 0 < (remaining + paid) / installmentCountFor frequency →
    paid < cumulativeTarget (remaining + paid) (installmentCountFor frequency)
      (g.paidInstallments + 1)
  empty : (remaining + paid) / installmentCountFor frequency = 0 → g.paidInstallments = 0
  quote : g.nextInstallmentAmount =
    if (remaining + paid) / installmentCountFor frequency = 0 then remaining
    else cumulativeTarget (remaining + paid) (installmentCountFor frequency)
      (g.paidInstallments + 1) - paid
  credit : g.creditTowardNextInstallment = paid -
    cumulativeTarget (remaining + paid) (installmentCountFor frequency) g.paidInstallments

section Progress

variable {frequency : InstallmentFrequency} {remaining paid : Int}

theorem derivePlanProgress_standing (frequency : InstallmentFrequency) (hr : 0 < remaining) (hp : 0 ≤ paid) :
    Standing frequency remaining paid (derivePlanProgress ⟨remaining, paid, frequency⟩) := by
  have hcount := installmentCountFor_pos frequency
  unfold derivePlanProgress
  simp only [max_eq_right hr.le, max_eq_right hp, if_neg (not_le.mpr hr)]
  set total := installmentCountFor frequency
  have htotal : 0 < total := by omega
  have hbalance : 0 ≤ remaining + paid := by omega
  have hzero : cumulativeTarget (remaining + paid) total 0 ≤ paid := by
    rw [cumulativeTarget_zero]
    exact hp
  obtain ⟨hnonneg, hle, hreached, hasks, hlater⟩ := slotsCovered_spec
    (cumulativeTarget (remaining + paid) total) hzero total.toNat
  have hcast : (total.toNat : Int) = total := Int.toNat_of_nonneg htotal.le
  rw [hcast] at hle hlater
  generalize slotsCovered (cumulativeTarget (remaining + paid) total) paid total.toNat = k at *
  -- The last target is the whole balance, which has not been reached.
  have hbelow : k ≤ total - 1 := by
    by_contra hlast
    have hall : k = total := by omega
    rw [hall, cumulativeTarget_last htotal] at hreached
    omega
  rw [min_eq_left hbelow]
  have hnext : 0 < (remaining + paid) / total →
      paid < cumulativeTarget (remaining + paid) total (k + 1) := by
    intro hslot
    have hsucc := cumulativeTarget_succ htotal hbalance hslot hnonneg (by omega : k < total)
    have hstart := cumulativeTarget_nonneg (n := k) htotal hbalance
    exact hlater (k + 1) (by omega) (by omega) (by omega)
  have hempty : (remaining + paid) / total = 0 → k = 0 := by
    intro hslot
    rcases hasks with hzero | hasks
    · exact hzero
    · rw [cumulativeTarget_level hnonneg (by omega), hslot, zero_mul] at hasks
      exact absurd hasks (lt_irrefl 0)
  have hcapped : cumulativeTarget (remaining + paid) total (k + 1) - paid ≤ remaining := by
    have := cumulativeTarget_le (n := k + 1) htotal hbalance
    omega
  have hquote : (if 0 < max 0 (cumulativeTarget (remaining + paid) total (k + 1) - paid) then
      min (max 0 (cumulativeTarget (remaining + paid) total (k + 1) - paid)) remaining
        else remaining) =
      if (remaining + paid) / total = 0 then remaining
      else cumulativeTarget (remaining + paid) total (k + 1) - paid := by
    by_cases hslot : (remaining + paid) / total = 0
    · rw [if_pos hslot, hempty hslot]
      have hlevel : cumulativeTarget (remaining + paid) total (0 + 1) = 0 := by
        rw [cumulativeTarget_level (by decide) (by omega), hslot, zero_mul]
      rw [hlevel, if_neg (by omega)]
    · have hslots : 0 ≤ (remaining + paid) / total := Int.ediv_nonneg hbalance htotal.le
      have := hnext (by omega)
      rw [if_neg hslot, if_pos (by omega)]
      omega
  exact ⟨rfl, rfl, rfl, rfl, rfl, hnonneg, hbelow, hreached, hnext, hempty, hquote,
    max_eq_right (by omega)⟩

theorem derivePlanProgress_settled (hr : remaining ≤ 0) :
    (derivePlanProgress ⟨remaining, paid, frequency⟩).settled = true := by
  have h : max 0 remaining ≤ 0 := by omega
  rw [derivePlanProgress, if_pos h]

theorem settled_iff : (derivePlanProgress ⟨remaining, paid, frequency⟩).settled = true ↔
    remaining ≤ 0 := by
  constructor
  · intro h
    by_contra hr
    have hopen : ¬ max 0 remaining ≤ 0 := by omega
    rw [derivePlanProgress, if_neg hopen] at h
    cases h
  · exact derivePlanProgress_settled

namespace Standing

variable {g : PlanProgress}

theorem slot_nonneg (frequency : InstallmentFrequency) (hr : 0 < remaining) (hp : 0 ≤ paid) :
    0 ≤ (remaining + paid) / installmentCountFor frequency := by
  have := installmentCountFor_pos frequency
  exact Int.ediv_nonneg (by omega) (by omega)

/-- The quote is positive and no more than what is owed. -/
theorem quote_bounds (h : Standing frequency remaining paid g) (hr : 0 < remaining)
    (hp : 0 ≤ paid) : 0 < g.nextInstallmentAmount ∧ g.nextInstallmentAmount ≤ remaining := by
  have htotal : 0 < installmentCountFor frequency := by
    have := installmentCountFor_pos frequency
    omega
  have hbalance : 0 ≤ remaining + paid := by omega
  rw [h.quote]
  by_cases hslot : (remaining + paid) / installmentCountFor frequency = 0
  · rw [if_pos hslot]
    exact ⟨hr, le_refl remaining⟩
  · rw [if_neg hslot]
    have hnonneg := slot_nonneg frequency hr hp
    have hnext := h.next (by omega)
    have hle := cumulativeTarget_le (n := g.paidInstallments + 1) htotal hbalance
    omega

/-- The number of slots covered is determined by the bounds. -/
theorem unique (h : Standing frequency remaining paid g) (hr : 0 < remaining) (hp : 0 ≤ paid)
    (hslot : 0 < (remaining + paid) / installmentCountFor frequency) {k : Int}
    (hreached : cumulativeTarget (remaining + paid) (installmentCountFor frequency) k ≤ paid)
    (hnext : paid < cumulativeTarget (remaining + paid) (installmentCountFor frequency) (k + 1)) :
    g.paidInstallments = k := by
  have htotal : 0 < installmentCountFor frequency := by
    have := installmentCountFor_pos frequency
    omega
  have hbalance : 0 ≤ remaining + paid := by omega
  rcases lt_trichotomy g.paidInstallments k with hlt | heq | hgt
  · have := h.next hslot
    have := cumulativeTarget_mono (k := g.paidInstallments + 1) (n := k) htotal hbalance (by omega)
    omega
  · exact heq
  · have := h.reached
    have := cumulativeTarget_mono (k := k + 1) (n := g.paidInstallments) htotal hbalance (by omega)
    omega

/-- A quote that does not settle the plan closes the next slot, with nothing left over. -/
theorem paid_quote (h : Standing frequency remaining paid g) (hr : 0 < remaining)
    (hp : 0 ≤ paid) (hrest : 0 < remaining - g.nextInstallmentAmount) {next : PlanProgress}
    (hnext : Standing frequency (remaining - g.nextInstallmentAmount)
      (paid + g.nextInstallmentAmount) next) :
    0 < g.scheduledInstallment ∧ next.scheduledInstallment = g.scheduledInstallment ∧
      next.paidInstallments = g.paidInstallments + 1 ∧ next.creditTowardNextInstallment = 0 := by
  have hcount := installmentCountFor_pos frequency
  have htotal : 0 < installmentCountFor frequency := by omega
  have hbalance : 0 ≤ remaining + paid := by omega
  obtain ⟨hquote, -⟩ := h.quote_bounds hr hp
  have hsame : remaining - g.nextInstallmentAmount + (paid + g.nextInstallmentAmount) =
      remaining + paid := by omega
  have hslot : (remaining + paid) / installmentCountFor frequency ≠ 0 := by
    intro hzero
    have hall := h.quote
    rw [if_pos hzero] at hall
    omega
  have hpos : 0 < (remaining + paid) / installmentCountFor frequency := by
    have := slot_nonneg frequency hr hp
    omega
  have hpaid : paid + g.nextInstallmentAmount =
      cumulativeTarget (remaining + paid) (installmentCountFor frequency)
        (g.paidInstallments + 1) := by
    rw [h.quote, if_neg hslot]
    omega
  -- The last slot would have taken the whole balance.
  have hmore : g.paidInstallments + 1 < installmentCountFor frequency := by
    by_contra hlast
    have hall : g.paidInstallments + 1 = installmentCountFor frequency := by
      have := h.below
      omega
    rw [hall, cumulativeTarget_last htotal] at hpaid
    omega
  have hsucc := cumulativeTarget_succ htotal hbalance hpos (n := g.paidInstallments + 1)
    (by have := h.nonneg; omega) hmore
  have hk : next.paidInstallments = g.paidInstallments + 1 := by
    apply hnext.unique hrest (by omega)
    · rw [hsame]
      exact hpos
    · rw [hsame, hpaid]
    · rw [hsame, hpaid]
      exact hsucc
  refine ⟨h.slot ▸ hpos, ?_, hk, ?_⟩
  · rw [hnext.slot, hsame, h.slot]
  · rw [hnext.credit, hsame, hk, hpaid]
    omega

end Standing

end Progress

/-! ### Paying what is quoted -/

/-- What is quoted to a plan that owes `plan.1` after `plan.2` has been paid. -/
def quote (frequency : InstallmentFrequency) (plan : Int × Int) : Int :=
  (derivePlanProgress ⟨plan.1, plan.2, frequency⟩).nextInstallmentAmount

/-- Pay it. -/
def payQuote (frequency : InstallmentFrequency) (plan : Int × Int) : Int × Int :=
  (plan.1 - quote frequency plan, plan.2 + quote frequency plan)

/-- The number of quotes that are left. -/
def quotesLeft (g : PlanProgress) : Nat :=
  if g.scheduledInstallment = 0 then 1 else (g.totalInstallments - g.paidInstallments).toNat

section Drain

variable {frequency : InstallmentFrequency} {remaining paid : Int}

/-- What is paid is what is owed less. -/
theorem sum_quotes (frequency : InstallmentFrequency) (plan : Int × Int) (n : Nat) :
    ∑ i ∈ Finset.range n, quote frequency ((payQuote frequency)^[i] plan) =
      plan.1 - ((payQuote frequency)^[n] plan).1 := by
  induction n with
  | zero => simp
  | succ n ih =>
    rw [Finset.sum_range_succ, ih, Function.iterate_succ_apply']
    simp only [payQuote]
    omega

/-- The last quote is all that is owed. -/
theorem last_quote (hr : 0 < remaining) (hp : 0 ≤ paid)
    (hleft : quotesLeft (derivePlanProgress ⟨remaining, paid, frequency⟩) = 1) :
    quote frequency (remaining, paid) = remaining := by
  have h := derivePlanProgress_standing frequency hr hp
  unfold quotesLeft at hleft
  unfold quote
  rw [h.quote]
  by_cases hslot : (remaining + paid) / installmentCountFor frequency = 0
  · rw [if_pos hslot]
  · rw [h.slot, if_neg hslot, h.total] at hleft
    have hlast : (derivePlanProgress ⟨remaining, paid, frequency⟩).paidInstallments + 1 =
        installmentCountFor frequency := by omega
    have hcount := installmentCountFor_pos frequency
    rw [if_neg hslot, hlast, cumulativeTarget_last (by omega)]
    omega

/-- An earlier quote leaves a plan with one quote less. -/
theorem earlier_quote (hr : 0 < remaining) (hp : 0 ≤ paid) {n : Nat}
    (hleft : quotesLeft (derivePlanProgress ⟨remaining, paid, frequency⟩) = n + 2) :
    0 < remaining - quote frequency (remaining, paid) ∧
      0 ≤ paid + quote frequency (remaining, paid) ∧
      quotesLeft (derivePlanProgress ⟨remaining - quote frequency (remaining, paid),
        paid + quote frequency (remaining, paid), frequency⟩) = n + 1 := by
  have h := derivePlanProgress_standing frequency hr hp
  have htotal : 0 < installmentCountFor frequency := by
    have := installmentCountFor_pos frequency
    omega
  have hbalance : 0 ≤ remaining + paid := by omega
  have hnonneg := h.nonneg
  obtain ⟨hpos, -⟩ := h.quote_bounds hr hp
  have hslot : (remaining + paid) / installmentCountFor frequency ≠ 0 := by
    intro hzero
    rw [quotesLeft, h.slot, if_pos hzero] at hleft
    omega
  have hslots : 0 < (remaining + paid) / installmentCountFor frequency := by
    have := Standing.slot_nonneg frequency hr hp
    omega
  rw [quotesLeft, h.slot, if_neg hslot, h.total] at hleft
  have hrest : 0 < remaining - quote frequency (remaining, paid) := by
    have hsucc := cumulativeTarget_succ
      (n := (derivePlanProgress ⟨remaining, paid, frequency⟩).paidInstallments + 1) htotal
      hbalance hslots (by omega) (by omega)
    have hle := cumulativeTarget_le
      (n := (derivePlanProgress ⟨remaining, paid, frequency⟩).paidInstallments + 1 + 1) htotal
      hbalance
    rw [quote, h.quote, if_neg hslot]
    omega
  have hpaid : 0 ≤ paid + quote frequency (remaining, paid) := add_nonneg hp hpos.le
  have hnext := derivePlanProgress_standing frequency hrest hpaid
  obtain ⟨-, hsame, hone, -⟩ := h.paid_quote hr hp hrest hnext
  refine ⟨hrest, hpaid, ?_⟩
  rw [quotesLeft, hsame, h.slot, if_neg hslot, hnext.total, hone]
  omega

/-- The plan owes money until the last of its quotes is paid. -/
theorem drained (n : Nat) : ∀ {remaining paid : Int}, 0 < remaining → 0 ≤ paid →
    quotesLeft (derivePlanProgress ⟨remaining, paid, frequency⟩) = n + 1 →
    (∀ i < n + 1, 0 < ((payQuote frequency)^[i] (remaining, paid)).1) ∧
      ((payQuote frequency)^[n + 1] (remaining, paid)).1 = 0 := by
  induction n with
  | zero =>
    intro remaining paid hr hp hleft
    constructor
    · intro i hi
      obtain rfl : i = 0 := by omega
      exact hr
    · simp only [Nat.zero_add, Function.iterate_one, payQuote]
      rw [last_quote hr hp hleft, sub_self]
  | succ n ih =>
    intro remaining paid hr hp hleft
    obtain ⟨hrest, hpaid, hfewer⟩ := earlier_quote hr hp hleft
    obtain ⟨howes, hsettled⟩ := ih hrest hpaid hfewer
    constructor
    · intro i hi
      cases i with
      | zero => exact hr
      | succ i =>
        rw [Function.iterate_succ_apply]
        exact howes i (by omega)
    · rw [Function.iterate_succ_apply]
      exact hsettled

/-- Quotes stay within what is owed and close one slot each; paying them settles the plan
    after as many as there are slots left, and their sum is what was owed. -/
theorem schedule_telescopes (frequency : InstallmentFrequency) (remaining paid : Int)
    (hr : 0 < remaining) (hp : 0 ≤ paid) :
    let g := derivePlanProgress ⟨remaining, paid, frequency⟩
    let next := derivePlanProgress
      ⟨remaining - g.nextInstallmentAmount, paid + g.nextInstallmentAmount, frequency⟩
    (0 < g.nextInstallmentAmount ∧ g.nextInstallmentAmount ≤ remaining ∧
      g.paidInstallments ≤ g.totalInstallments - 1) ∧
    (next.settled = true ∨ 0 < g.scheduledInstallment ∧
      next.paidInstallments = g.paidInstallments + 1 ∧ next.creditTowardNextInstallment = 0) ∧
    (∀ i < quotesLeft g, 0 < ((payQuote frequency)^[i] (remaining, paid)).1) ∧
    ((payQuote frequency)^[quotesLeft g] (remaining, paid)).1 = 0 ∧
    ∑ i ∈ Finset.range (quotesLeft g),
      quote frequency ((payQuote frequency)^[i] (remaining, paid)) = remaining := by
  intro g next
  have h : Standing frequency remaining paid g := derivePlanProgress_standing frequency hr hp
  obtain ⟨hpos, hle⟩ := h.quote_bounds hr hp
  have hleft : quotesLeft g = quotesLeft g - 1 + 1 := by
    have hbelow := h.below
    have htotal := h.total
    unfold quotesLeft
    split <;> omega
  obtain ⟨howes, hdrained⟩ := drained (quotesLeft g - 1) hr hp hleft
  rw [← hleft] at howes hdrained
  refine ⟨⟨hpos, hle, ?_⟩, ?_, howes, hdrained, ?_⟩
  · rw [h.total]
    exact h.below
  · rcases hle.lt_or_eq with hlt | heq
    · have hrest : 0 < remaining - g.nextInstallmentAmount := by omega
      have hnext : Standing frequency (remaining - g.nextInstallmentAmount)
          (paid + g.nextInstallmentAmount) next :=
        derivePlanProgress_standing frequency hrest (add_nonneg hp hpos.le)
      obtain ⟨hslot, -, hone, hcredit⟩ := h.paid_quote hr hp hrest hnext
      exact .inr ⟨hslot, hone, hcredit⟩
    · exact .inl (derivePlanProgress_settled (by omega))
  · rw [sum_quotes, hdrained, sub_zero]

/-- A plan of ₦1,000 over twelve weeks, with ₦120 paid, has eleven quotes left. -/
theorem schedule_telescopes_weekly :
    let g := derivePlanProgress ⟨88000, 12000, .WEEKLY⟩
    quotesLeft g = 11 ∧ ((payQuote .WEEKLY)^[11] (88000, 12000)).1 = 0 := by
  intro g
  have hleft : quotesLeft g = 11 := by decide +kernel
  obtain ⟨-, -, -, hdrained, -⟩ :=
    schedule_telescopes .WEEKLY 88000 12000 (by decide) (by decide)
  have hdrained : ((payQuote .WEEKLY)^[quotesLeft g] (88000, 12000)).1 = 0 := hdrained
  rw [hleft] at hdrained
  exact ⟨hleft, hdrained⟩

end Drain

end Schedule

end Lopay
