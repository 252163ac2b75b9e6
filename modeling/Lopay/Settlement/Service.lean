import Lopay.Enrollment.Target
import Lopay.Transactions.Plain

/-!
# Where a school is paid

The account that installments go to is a column of the school, the account that first
payments settle into is kept by Paystack under the code of a subaccount.
`applySettlementUpdate` moves both, and `createSubaccountForSchool` repairs the second. A
call that creates or re-points a subaccount does all of it or fails.
-/

namespace Lopay

open Transactions

namespace Settlement

/-- The profile and payout columns of the school. -/
structure School where
  name : String
  phone : String
  address : String
  bankName : String
  bankCode : Option String
  accountName : String
  accountNumber : String
  paystackSubaccountCode : Option String
  paystackSubaccountActive : Bool

/-- What Paystack keeps of a subaccount. -/
structure Subaccount where
  businessName : String
  settlementBank : String
  accountNumber : String
  percentageCharge : Int
deriving DecidableEq

/-- The school, the subaccounts at Paystack, and the admins to be told. -/
structure Payouts where
  school : School
  subaccounts : Table String Subaccount
  admins : List Id

inductive Write where
  | putSchool (row : School)
  | putSubaccount (code : String) (row : Subaccount)

def Write.apply : Write → Payouts → Payouts
  | .putSchool row, s => { s with school := row }
  | .putSubaccount code row, s => { s with subaccounts := s.subaccounts.insert code row }

/-- No transaction is ever open, so nothing is held beyond a statement. -/
def store : Store Payouts Write Unit where
  apply := Write.apply
  locks := fun _ => [()]

@[simp] theorem store_apply (w : Write) (s : Payouts) : store.apply w s = w.apply s := rfl

theorem store_whole : store.Whole fun _ s t => s = t where
  frame :=
    { refl := fun _ _ => rfl
      trans := fun _ _ _ _ h h' => h.trans h'
      frame := fun _ _ _ hk => absurd List.mem_cons_self hk }
  congr := fun _ ws _ _ h => congrArg (store.applyAll ws) h
  locked := fun _ => ⟨(), List.mem_cons_self, fun _ _ h => h⟩

inductive Call where
  | resolveAccount (accountNumber bankCode : String)
  | subaccountCode (params : Subaccount)
  | createNotification (notification : Notification)
  | invalidatePayoutStatus

@[reducible] def Answer : Call → Type
  | .resolveAccount _ _ => Except PaystackError String
  | .subaccountCode _ => String
  | .createNotification _ => Bool
  | .invalidatePayoutStatus => Unit

abbrev Action (α : Type) := Routine Payouts Write Answer Err α

/-! ### Calls -/

def ask (c : Call) : Action (Answer c) := Routine.ask c

def read {α : Type} (q : Payouts → α) : Action α := Routine.query .database q

/-- `prisma.school.update`: the updated row. -/
def updateSchool (data : School → School) : Action School :=
  Routine.exec .database fun s => .ok (data s.school, [.putSchool (data s.school)])

/-- `PaystackService.getSubaccount`. -/
def getSubaccount (code : String) : Action (Option Subaccount) :=
  Routine.query (.paystack .unavailable) fun s => s.subaccounts.lookup code

/-- `PaystackService.createSubaccount`: Paystack picks a code that it has not used. -/
def createSubaccount (params : Subaccount) : Action String := do
  let code ← ask (.subaccountCode params)
  Routine.exec (.paystack .unavailable) fun s =>
    if (s.subaccounts.lookup code).isSome then .error (.paystack .unavailable)
    else .ok (code, [.putSubaccount code params])

/-- `PaystackService.updateSubaccount`. -/
def updateSubaccount (code : String) (params : Subaccount) : Action Unit :=
  Routine.exec (.paystack .unavailable) fun s => match s.subaccounts.lookup code with
    | some _ => .ok ((), [.putSubaccount code params])
    | none => .error (.paystack (.api 404 "Subaccount not found"))

/-- Fan a platform-level alert out to every super admin. -/
def notifyAdmins (title message : String) : Action Unit := do
  let admins ← read fun s => s.admins
  let delivered ← admins.mapM fun admin => ask (.createNotification
    { userId := admin, title, message, type := .ALERT, link := some "/admin/schools" })
  Routine.throwIf (false ∈ delivered) .notification

/-! ### A change of the settlement account -/

structure UpdateSchoolDto where
  schoolName : Option String
  address : Option String
  phone : Option String
  bankName : Option String
  bankCode : Option String
  accountName : Option String
  accountNumber : Option String

/-- The columns that the caller updates along with the account. -/
structure OtherFields where
  name : Option String
  address : Option String
  phone : Option String

/-- The account that money is to go to: the bank, if one is known, and the number. -/
def settlementAccount (school : School) (dto : UpdateSchoolDto) : Option String × String :=
  (dto.bankCode.or school.bankCode, dto.accountNumber.getD school.accountNumber)

def School.account (school : School) : Option String × String :=
  (school.bankCode, school.accountNumber)

def settlementChanged (school : School) (dto : UpdateSchoolDto) : Bool :=
  settlementAccount school dto ≠ school.account

def needsRepoint (school : School) (dto : UpdateSchoolDto) : Bool :=
  settlementChanged school dto && (given school.paystackSubaccountCode).isSome

def mask (accountNumber : String) : String :=
  let shown := accountNumber.toList.drop (accountNumber.length - 4)
  String.ofList (List.replicate (accountNumber.length - shown.length) '•' ++ shown)

def announceSettlementChange (schoolName accountNumber : String) : Action Unit :=
  notifyAdmins "School settlement account changed"
    (schoolName ++ " updated its bank details. Money now settles to account " ++
      mask accountNumber ++ ". Verify with the school if this was not expected.")

/-- The account name to store: the registered one if the account changes. -/
def resolveAccountName (school : School) (dto : UpdateSchoolDto) : Action (Option String) :=
  if settlementChanged school dto = true then do
    let bankCode ← Routine.orThrow (given (settlementAccount school dto).1)
      (.badRequest "bankCode is required when changing the settlement account")
    let resolved ← ask (.resolveAccount (settlementAccount school dto).2 bankCode)
    match resolved with
    | .ok accountName => pure (some accountName)
    | .error error => throw (.paystack error)
  else pure dto.accountName

/-- The row as `applySettlementUpdate` saves it; what the caller did not send stays. -/
def saved (school : School) (dto : UpdateSchoolDto) (otherFields : OtherFields)
    (accountName : Option String) (row : School) : School where
  name := otherFields.name.getD row.name
  phone := otherFields.phone.getD row.phone
  address := otherFields.address.getD row.address
  bankName := dto.bankName.getD row.bankName
  bankCode := dto.bankCode.or row.bankCode
  accountName := accountName.getD row.accountName
  accountNumber := dto.accountNumber.getD row.accountNumber
  paystackSubaccountCode := row.paystackSubaccountCode
  paystackSubaccountActive :=
    if needsRepoint school dto then false else row.paystackSubaccountActive

/-- Persist a school profile update and keep the two settlement destinations in step. The
    caller has just read `school`. -/
def applySettlementUpdate (school : School) (dto : UpdateSchoolDto) (otherFields : OtherFields) :
    Action School := do
  let (settlementBank, accountNumber) := settlementAccount school dto
  let accountName ← resolveAccountName school dto
  let updated ← updateSchool (saved school dto otherFields accountName)
  if settlementChanged school dto = false then pure updated
  else do
    announceSettlementChange updated.name accountNumber
    match given school.paystackSubaccountCode, given settlementBank with
    | some code, some bankCode =>
      let repointed ← tryCatch
        (do
          updateSubaccount code
            { businessName := updated.name
              settlementBank := bankCode
              accountNumber
              percentageCharge := 0 }
          pure true)
        (fun _ => do
          notifyAdmins "Paystack subaccount out of sync"
            (updated.name ++ " changed its settlement account but the Paystack subaccount could " ++
              "not be updated. Online first payments are disabled for this school until an " ++
              "admin re-provisions the subaccount.")
          pure false)
      -- Not awaited inside the `try`: a failure from here on is the caller's.
      if repointed = true then
        updateSchool fun row => { row with paystackSubaccountActive := true }
      else pure updated
    | _, _ => pure updated

/-! ### The repair by an admin -/

structure Provisioned where
  active : Bool
  subaccountCode : Option String
  warning : Option String

def provisionSubaccount (school : School) : Action Provisioned :=
  match given school.bankCode with
  | none => pure
      { active := false
        subaccountCode := none
        warning := some "No bank code on file; cannot create Paystack subaccount." }
  | some bankCode =>
    tryCatch
      (do
        let subaccountCode ← createSubaccount
          { businessName := school.name
            settlementBank := bankCode
            accountNumber := school.accountNumber
            percentageCharge := 0 }
        let _ ← updateSchool fun row =>
          { row with
            paystackSubaccountCode := some subaccountCode
            paystackSubaccountActive := true }
        pure { active := true, subaccountCode := some subaccountCode, warning := none })
      (fun _ => pure
        { active := false
          subaccountCode := none
          warning := some ("School created, but Paystack subaccount setup failed. Retry from " ++
            "the school settings before accepting online payments.") })

structure Repaired where
  subaccountCode : Option String
  created : Bool

/-- Create the subaccount, and pass on why it could not be created. -/
def replaceSubaccount (school : School) : Action Repaired := do
  let result ← provisionSubaccount school
  Routine.throwIf (result.active = false)
    (.badRequest (result.warning.getD "Subaccount creation failed"))
  ask .invalidatePayoutStatus
  pure { subaccountCode := result.subaccountCode, created := true }

/-- (Re)create the subaccount of the school; one that Paystack has is kept. -/
def createSubaccountForSchool : Action Repaired := do
  let school ← read fun s => s.school
  match given school.paystackSubaccountCode with
  | some code =>
    let existing ← getSubaccount code
    match existing with
    | some _ =>
      let _ ← updateSchool fun row => { row with paystackSubaccountActive := true }
      ask .invalidatePayoutStatus
      pure { subaccountCode := some code, created := false }
    | none => replaceSubaccount school
  | none => replaceSubaccount school

/-! ### Operations -/

inductive Operation where
  | applySettlementUpdate (school : School) (dto : UpdateSchoolDto) (otherFields : OtherFields)
  | createSubaccountForSchool

def Operation.action : Operation → Action Unit
  | applySettlementUpdate school dto otherFields =>
    (fun _ => ()) <$> Settlement.applySettlementUpdate school dto otherFields
  | createSubaccountForSchool => (fun _ => ()) <$> Settlement.createSubaccountForSchool

def Operation.program (o : Operation) : Prog Payouts Write Answer (Except Err Unit) := o.action.run

/-- What is stored and everything that has been started. A process that never moves again
    has crashed. -/
abbrev Backoffice := Sys Operation Payouts Write Answer (Except Err Unit)

end Settlement

end Lopay
