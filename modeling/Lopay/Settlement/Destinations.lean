import Lopay.Settlement.Service
import Lopay.Transactions.Runs

/-!
# One settlement account

First payments go to a school as long as it is active and has a subaccount. The two
accounts agree if Paystack settles that subaccount to the account the school has stored.
Each statement of the two operations keeps them in agreement exactly if it heeds a
condition on what it finds.
-/

namespace Lopay

open Transactions

namespace Settlement

def Subaccount.account (row : Subaccount) : Option String × String :=
  (some row.settlementBank, row.accountNumber)

namespace Payouts

/-- The subaccount that first payments are split to, if the school takes any. -/
def live (s : Payouts) : Option String :=
  if s.school.paystackSubaccountActive then given s.school.paystackSubaccountCode else none

/-- The account that Paystack settles a subaccount to. -/
def settles (s : Payouts) (code : String) : Option (Option String × String) :=
  (s.subaccounts.lookup code).map (·.account)

/-- First payments settle to the account that the school has stored. -/
def Agrees (s : Payouts) : Prop := ∀ code ∈ s.live, s.settles code = some s.school.account

end Payouts

namespace Operation

/-- The school, as the operation has read it, has a subaccount whose account is to change. -/
def deactivates : Operation → Bool
  | applySettlementUpdate school dto _ => needsRepoint school dto
  | createSubaccountForSchool => false

/-- The account that the operation re-points the subaccount to. -/
def destination? : Operation → Option (Option String × String)
  | applySettlementUpdate school dto _ => some (settlementAccount school dto)
  | createSubaccountForSchool => none

/-- What a step of the operation has to heed: a save that changes the stored account of a
    school with a live subaccount is one that deactivates it, a live subaccount is
    re-pointed only to the stored account, and a subaccount goes live only if Paystack
    settles it to the stored account. -/
structure Heeds (o : Operation) (v v' : Payouts) : Prop where
  saves : v'.school.account ≠ v.school.account → o.deactivates = true ∨ v.live = none
  repoints : ∀ code ∈ v.live, v'.settles code ≠ v.settles code →
    o.destination? = some v.school.account
  revives : ∀ code ∈ v'.live, v.live ≠ some code → v.settles code = some v.school.account

instance (o : Operation) (v v' : Payouts) : Decidable (o.Heeds v v') :=
  decidable_of_iff
    ((v'.school.account ≠ v.school.account → o.deactivates = true ∨ v.live = none) ∧
      (∀ code ∈ v.live, v'.settles code ≠ v.settles code →
        o.destination? = some v.school.account) ∧
      ∀ code ∈ v'.live, v.live ≠ some code → v.settles code = some v.school.account)
    ⟨fun h => ⟨h.1, h.2.1, h.2.2⟩, fun h => ⟨h.saves, h.repoints, h.revives⟩⟩

/-! ### What a statement does -/

/-- The writes of the statements of an operation. -/
inductive Effect : Operation → Payouts → List Write → Prop
  | nothing (o : Operation) (v : Payouts) : Effect o v []
  | saved {school : School} {dto : UpdateSchoolDto} {otherFields : OtherFields}
      (accountName : Option String) (v : Payouts) :
      Effect (applySettlementUpdate school dto otherFields) v
        [.putSchool (saved school dto otherFields accountName v.school)]
  | repointed {school : School} {dto : UpdateSchoolDto} {otherFields : OtherFields} {v : Payouts}
      {code : String} {row : Subaccount} : row.account = settlementAccount school dto →
      Effect (applySettlementUpdate school dto otherFields) v [.putSubaccount code row]
  | reactivated (o : Operation) (v : Payouts) :
      Effect o v [.putSchool { v.school with paystackSubaccountActive := true }]
  | created {v : Payouts} {code : String} {row : Subaccount} : v.subaccounts.lookup code = none →
      Effect createSubaccountForSchool v [.putSubaccount code row]
  | attached (code : String) (v : Payouts) :
      Effect createSubaccountForSchool v
        [.putSchool { v.school with
          paystackSubaccountCode := some code, paystackSubaccountActive := true }]

section Statements

variable {o : Operation}

instance {α : Type} (q : Payouts → α) : Routine.Plain (Effect o) (read q) := .query (.nothing o)

instance (accountNumber bankCode : String) :
    Routine.Plain (Effect o) (ask (.resolveAccount accountNumber bankCode)) := Routine.Plain.ask _
instance (params : Subaccount) : Routine.Plain (Effect o) (ask (.subaccountCode params)) :=
  Routine.Plain.ask _
instance (n : Notification) : Routine.Plain (Effect o) (ask (.createNotification n)) :=
  Routine.Plain.ask _
instance : Routine.Plain (Effect o) (ask .invalidatePayoutStatus) := Routine.Plain.ask _

instance (code : String) : Routine.Plain (Effect o) (getSubaccount code) := .query (.nothing o)

instance (title message : String) : Routine.Plain (Effect o) (notifyAdmins title message) := by
  unfold notifyAdmins
  infer_instance

theorem plain_updateSchool {data : School → School}
    (h : ∀ v : Payouts, Effect o v [.putSchool (data v.school)]) :
    Routine.Plain (Effect o) (updateSchool data) := by
  apply Routine.Plain.exec
  · intro v a ws hf
    simp only [Except.ok.injEq, Prod.mk.injEq] at hf
    rw [← hf.2]
    exact h v
  · exact .nothing o

instance : Routine.Plain (Effect o)
    (updateSchool fun row => { row with paystackSubaccountActive := true }) :=
  plain_updateSchool fun v => .reactivated o v

end Statements

/-! ### What the operations do -/

section Updates

variable {school : School} {dto : UpdateSchoolDto} {otherFields : OtherFields}

instance (schoolName accountNumber : String) : Routine.Plain
    (Effect (applySettlementUpdate school dto otherFields))
    (announceSettlementChange schoolName accountNumber) := by
  unfold announceSettlementChange
  infer_instance

instance : Routine.Plain (Effect (applySettlementUpdate school dto otherFields))
    (resolveAccountName school dto) := by
  unfold resolveAccountName
  split
  · refine .andThen fun bankCode => .andThen fun resolved => ?_
    cases resolved with
    | ok accountName => infer_instance
    | error error => infer_instance
  · infer_instance

theorem plain_updateSubaccount {code : String} {row : Subaccount}
    (h : row.account = settlementAccount school dto) :
    Routine.Plain (Effect (applySettlementUpdate school dto otherFields))
      (updateSubaccount code row) := by
  apply Routine.Plain.exec
  · intro v a ws hf
    split at hf
    · simp only [Except.ok.injEq, Prod.mk.injEq] at hf
      rw [← hf.2]
      exact .repointed h
    · cases hf
  · exact .nothing _

/-- The statements of a settlement update are the ones listed. -/
theorem applySettlementUpdate_plain :
    Routine.Plain (Effect (applySettlementUpdate school dto otherFields))
      (Settlement.applySettlementUpdate school dto otherFields) := by
  unfold Settlement.applySettlementUpdate
  have hsave (accountName : Option String) :
      Routine.Plain (Effect (applySettlementUpdate school dto otherFields))
        (updateSchool (saved school dto otherFields accountName)) :=
    plain_updateSchool fun v => .saved accountName v
  refine .andThen fun accountName => .andThen fun updated => ?_
  split
  · infer_instance
  · refine .andThen fun _ => ?_
    split
    · next code bankCode _ hbank =>
      have hrepoint : Routine.Plain (Effect (applySettlementUpdate school dto otherFields))
          (updateSubaccount code
            { businessName := updated.name
              settlementBank := bankCode
              accountNumber := dto.accountNumber.getD school.accountNumber
              percentageCharge := 0 }) := by
        apply plain_updateSubaccount
        have hgiven : (settlementAccount school dto).1 = some bankCode :=
          (Option.filter_eq_some_iff.mp hbank).1
        exact Prod.ext hgiven.symm rfl
      infer_instance
    · infer_instance

end Updates

instance (params : Subaccount) : Routine.Plain (Effect createSubaccountForSchool)
    (createSubaccount params) := by
  unfold createSubaccount
  refine .andThen fun code => ?_
  apply Routine.Plain.exec
  · intro v a ws hf
    split at hf
    · cases hf
    · next hnew =>
      simp only [Except.ok.injEq, Prod.mk.injEq] at hf
      rw [← hf.2]
      exact .created (by simpa using hnew)
  · exact .nothing _

instance (code : String) : Routine.Plain (Effect createSubaccountForSchool)
    (updateSchool fun row =>
      { row with paystackSubaccountCode := some code, paystackSubaccountActive := true }) :=
  plain_updateSchool fun v => .attached code v

instance (school : School) : Routine.Plain (Effect createSubaccountForSchool)
    (provisionSubaccount school) := by
  unfold provisionSubaccount
  split
  · infer_instance
  · infer_instance

instance (school : School) : Routine.Plain (Effect createSubaccountForSchool)
    (replaceSubaccount school) := by
  unfold replaceSubaccount
  infer_instance

theorem createSubaccountForSchool_plain : Routine.Plain (Effect createSubaccountForSchool)
    Settlement.createSubaccountForSchool := by
  unfold Settlement.createSubaccountForSchool
  refine .andThen fun school => ?_
  split
  · refine .andThen fun existing => ?_
    cases existing with
    | some row => infer_instance
    | none => infer_instance
  · infer_instance

theorem plain (o : Operation) : o.action.Plain (Effect o) := by
  cases o with
  | applySettlementUpdate school dto otherFields =>
    have h : Routine.Plain (Effect (.applySettlementUpdate school dto otherFields))
        (Settlement.applySettlementUpdate school dto otherFields) := applySettlementUpdate_plain
    exact .map
  | createSubaccountForSchool =>
    have h := createSubaccountForSchool_plain
    exact .map

/-! ### What keeps the accounts in agreement -/

section Agreement

variable {o : Operation} {v v' : Payouts} {ws : List Write}

/-- The account is left alone at both ends; what counts is which subaccount goes live. -/
theorem agrees_iff_of_same (hv : v.Agrees) (haccount : v'.school.account = v.school.account)
    (hsettles : v'.settles = v.settles) : v'.Agrees ↔ o.Heeds v v' := by
  constructor
  · intro hagrees
    constructor
    · exact fun hne => absurd haccount hne
    · exact fun code _ hne => absurd (congrFun hsettles code) hne
    · intro code hcode _
      rw [← hsettles, ← haccount]
      exact hagrees code hcode
  · intro hheeds code hcode
    rw [hsettles, haccount]
    by_cases hlive : v.live = some code
    · exact hv code hlive
    · exact hheeds.revives code hcode hlive

theorem settles_putSubaccount (v : Payouts) (code code' : String) (row : Subaccount) :
    (Write.apply (.putSubaccount code row) v).settles code' =
      if code' = code then some row.account else v.settles code' := by
  simp only [Payouts.settles, Write.apply, Table.lookup_insert_ite]
  by_cases h : code' = code
  · simp [h]
  · simp [h]

/-- A subaccount is pointed somewhere, and the school is left alone. -/
theorem agrees_iff_of_putSubaccount (hv : v.Agrees) {code : String} {row : Subaccount}
    (hdestination : o.destination? = some row.account ∨ v.subaccounts.lookup code = none) :
    (Write.apply (.putSubaccount code row) v).Agrees ↔
      o.Heeds v (Write.apply (.putSubaccount code row) v) := by
  have hlive : (Write.apply (.putSubaccount code row) v).live = v.live := rfl
  constructor
  · intro hagrees
    constructor
    · exact fun hne => absurd rfl hne
    · intro code' hcode' hne
      have hpointed := hagrees code' hcode'
      rw [settles_putSubaccount] at hpointed hne
      by_cases heq : code' = code
      · rw [if_pos heq] at hpointed
        rcases hdestination with hdestination | hnew
        · rw [hdestination, hpointed]
          rfl
        · have hold := hv code' hcode'
          rw [Payouts.settles, heq, hnew] at hold
          cases hold
      · rw [if_neg heq] at hne
        exact absurd rfl hne
    · exact fun code' hcode' hne => absurd hcode' hne
  · intro hheeds code' hcode'
    have hold := hv code' hcode'
    by_cases hsame : (Write.apply (.putSubaccount code row) v).settles code' = v.settles code'
    · rw [hsame]
      exact hold
    · have hstored := hheeds.repoints code' hcode' hsame
      rw [settles_putSubaccount] at hsame ⊢
      by_cases heq : code' = code
      · rw [if_pos heq]
        rcases hdestination with hdestination | hnew
        · rw [← hdestination, hstored]
          rfl
        · rw [Payouts.settles, heq, hnew] at hold
          cases hold
      · rw [if_neg heq] at hsame
        exact absurd rfl hsame

theorem live_saved (school : School) (dto : UpdateSchoolDto) (otherFields : OtherFields)
    (accountName : Option String) (v : Payouts) :
    (Write.apply (.putSchool (saved school dto otherFields accountName v.school)) v).live =
      if needsRepoint school dto then none else v.live := by
  by_cases h : needsRepoint school dto = true
  · simp [Payouts.live, Write.apply, saved, h]
  · simp [Payouts.live, Write.apply, saved, h]

/-- A save: what counts is whether it deactivates the school. -/
theorem agrees_iff_of_saved (hv : v.Agrees) {school : School} {dto : UpdateSchoolDto}
    {otherFields : OtherFields} (accountName : Option String) :
    (Write.apply (.putSchool (saved school dto otherFields accountName v.school)) v).Agrees ↔
      (applySettlementUpdate school dto otherFields).Heeds v
        (Write.apply (.putSchool (saved school dto otherFields accountName v.school)) v) := by
  have hlive := live_saved school dto otherFields accountName v
  by_cases hneeds : needsRepoint school dto = true
  · rw [if_pos hneeds] at hlive
    constructor
    · intro _
      constructor
      · exact fun _ => Or.inl hneeds
      · exact fun _ _ hne => absurd rfl hne
      · intro code hcode _
        rw [hlive] at hcode
        cases hcode
    · intro _ code hcode
      rw [hlive] at hcode
      cases hcode
  · rw [if_neg hneeds] at hlive
    constructor
    · intro hagrees
      constructor
      · intro hchanged
        right
        cases hcode : v.live with
        | none => rfl
        | some code =>
          have hafter := hagrees code (hlive.trans hcode)
          have hbefore := hv code hcode
          exact absurd (Option.some.inj (hafter.symm.trans hbefore)) hchanged
      · exact fun _ _ hne => absurd rfl hne
      · exact fun code hcode hne => absurd (hlive ▸ hcode) hne
    · intro hheeds code hcode
      have hold : v.live = some code := hlive ▸ hcode
      have hbefore := hv code hold
      by_contra hdiffer
      rcases hheeds.saves (fun hsame => hdiffer (hbefore.trans (congrArg some hsame.symm))) with
        hdeactivates | hnone
      · exact hneeds hdeactivates
      · rw [hold] at hnone
        cases hnone

/-- A statement keeps the accounts in agreement if and only if it heeds its conditions. -/
theorem Effect.agrees_iff (h : Effect o v ws) (hv : v.Agrees) :
    (store.applyAll ws v).Agrees ↔ o.Heeds v (store.applyAll ws v) := by
  cases h with
  | nothing => exact agrees_iff_of_same hv rfl rfl
  | saved accountName => exact agrees_iff_of_saved hv accountName
  | repointed haccount =>
    exact agrees_iff_of_putSubaccount hv (Or.inl (congrArg some haccount.symm))
  | reactivated => exact agrees_iff_of_same hv rfl rfl
  | created hnew => exact agrees_iff_of_putSubaccount hv (Or.inr hnew)
  | attached code => exact agrees_iff_of_same hv rfl rfl

end Agreement

end Operation

/-! ### Runs -/

/-- The operation that moves heeds its conditions. -/
def Careful (s : Backoffice) (e : Event Operation Answer) (s' : Backoffice) : Prop :=
  ∀ p ∈ s.mover? e, p.job.Heeds s.store s'.store

instance (s : Backoffice) (e : Event Operation Answer) (s' : Backoffice) :
    Decidable (Careful s e s') := inferInstanceAs (Decidable (∀ p ∈ s.mover? e, _))

/-- A step from accounts in agreement leaves them so if and only if it is careful. -/
theorem step_agrees_iff {guard : Backoffice → Event Operation Answer → Backoffice → Prop}
    {start : Payouts → Prop} {s s' : Backoffice}
    (hs : Sys.Reach store Operation.program guard start s) {e : Event Operation Answer}
    (hstep : s.step store Operation.program e = some s') (hagrees : s.store.Agrees) :
    s'.store.Agrees ↔ Careful s e s' := by
  have hreach : Sys.Reach store Operation.program (fun _ _ _ => True) start s :=
    hs.mono fun _ _ _ _ => trivial
  rcases hreach.plain store_whole Operation.plain hstep trivial with hsame | hmoved
  · constructor
    · intro _ p _
      rw [hsame]
      exact (Operation.agrees_iff_of_same hagrees rfl rfl).mp hagrees
    · intro _
      rw [hsame]
      exact hagrees
  · obtain ⟨p, ws, hp, heffect, hstore⟩ := hmoved
    rw [Careful, hp, hstore]
    simp only [Option.mem_some_iff, forall_eq']
    exact heffect.agrees_iff hagrees

/-- Paystack settles to the account that the school has stored. -/
def payingSchool : School where
  name := "Unity School"
  phone := "080"
  address := "1 Unity Road"
  bankName := "GTBank"
  bankCode := some "058"
  accountName := "Unity School"
  accountNumber := "0123456789"
  paystackSubaccountCode := some "ACCT_1"
  paystackSubaccountActive := true

def payouts : Payouts where
  school := payingSchool
  subaccounts := [⟨"ACCT_1",
    { businessName := "Unity School"
      settlementBank := "058"
      accountNumber := "0123456789"
      percentageCharge := 0 }⟩].toAList
  admins := ["admin"]

/-- The school asks to be paid to another account of its bank. -/
def moveAccount : Operation :=
  .applySettlementUpdate payingSchool
    { schoolName := none
      address := none
      phone := none
      bankName := none
      bankCode := none
      accountName := none
      accountNumber := some "9876543210" }
    { name := none, address := none, phone := none }

/-- A step that fails, or goes well. -/
def answering (fault : Bool) : Choice Answer where
  fault := fault
  answer := fun
    | .resolveAccount _ _ => .ok "Unity School"
    | .subaccountCode _ => "ACCT_2"
    | .createNotification _ => true
    | .invalidatePayoutStatus => ()

/-- The update runs to its end; its call to Paystack fails or not. -/
def updating (paystackFails : Bool) : List (Event Operation Answer) :=
  .spawn moveAccount :: (List.range 6).map fun i =>
    .move 0 (answering (i == 4 && paystackFails))

theorem payouts_agrees : payouts.Agrees := by
  intro code hcode
  obtain rfl := Option.some.inj hcode
  rfl

/-- Paystack cannot be reached when the subaccount is to be re-pointed; the admin then
    retries. -/
def updatedAndRetried : List (Event Operation Answer) :=
  updating true ++ [.move 0 (answering false), .spawn .createSubaccountForSchool] ++
    List.replicate 3 (.move 1 (answering false))

end Settlement

end Lopay
