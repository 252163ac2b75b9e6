import Lopay.World

/-!
# Defaulted plans

`markEnrollmentAsDefaulted`, by a school, and the scheduled
`DefaulterDetectionService.runDetection` with the per-row
`markEnrollmentDefaultedBySweep` it calls.
-/

namespace Lopay

open Transactions

namespace Ledger

def markEnrollmentAsDefaulted (enrollmentId schoolId : Id) (actor : AuditActor) :
    Action ChildEnrollment := do
  let found ← read fun db => (db.plan? enrollmentId).filter fun e => e.row.schoolId = schoolId
  let enrollment ← Routine.orThrow found (.badRequest "Enrollment not found")
  let result ← transaction do
    let updatedEnrollment ← updateEnrollment enrollmentId fun e =>
      { e with paymentStatus := .DEFAULTED }
    record
      { action := .ENROLLMENT_DEFAULTED
        entityType := "ChildEnrollment"
        entityId := enrollmentId
        actor := some actor
        schoolId := some schoolId
        reason := none
        before := some [("paymentStatus", .plan enrollment.row.paymentStatus)]
        after := some [("paymentStatus", .plan .DEFAULTED)]
        metadata := some [("remainingBalance", .num enrollment.row.remainingBalance)] }
    createNotification
      { userId := enrollment.parent.userId
        title := "Payment Defaulted"
        message := "Your enrollment for " ++ enrollment.child.fullName ++ " (" ++
          enrollment.row.className ++ ") at " ++ enrollment.school.name ++
          " has been marked as defaulted. Please contact the school."
        type := .ALERT
        link := some "/history" }
    pure updatedEnrollment
  let _ ← ask (.emitEnrollmentsChanged
    { parentUserId := some enrollment.parent.userId, schoolId := some schoolId,
      notifyAdmins := true })
  pure result

/-- Default one plan the sweep found; whether the row flipped. -/
def markEnrollmentDefaultedBySweep (enrollment : Plan) : Action Bool := do
  let flipped ← transaction do
    let res ← updateEnrollments enrollment.id
      (fun e => e.paymentStatus = .ACTIVE ∧ 0 < e.remainingBalance)
      (fun e => { e with paymentStatus := .DEFAULTED })
    if res = 0 then
      pure none
    else do
      record
        { action := .ENROLLMENT_DEFAULTED
          entityType := "ChildEnrollment"
          entityId := enrollment.id
          actor := none
          schoolId := some enrollment.row.schoolId
          reason := none
          before := some [("paymentStatus", .plan .ACTIVE)]
          after := some [("paymentStatus", .plan .DEFAULTED)]
          metadata := some
            [("remainingBalance", .num enrollment.row.remainingBalance),
             ("source", .str "scheduled-defaulter-detection")] }
      let toParent : Notification :=
        { userId := enrollment.parent.userId
          title := "Payment Defaulted"
          message := "Your enrollment for " ++ enrollment.child.fullName ++ " at " ++
            enrollment.school.name ++
            " has been marked as defaulted due to outstanding balance of " ++
            Money.formatNaira enrollment.row.remainingBalance ++ "."
          type := .ALERT
          link := some "/history" }
      insertNotification toParent
      pure (some toParent)
  match flipped with
  | none => pure false
  | some toParent => do
    let _ ← ask (.pushNotification enrollment.parent.userId toParent)
    let _ ← ask (.emitEnrollmentsChanged
      { parentUserId := some enrollment.parent.userId,
        schoolId := some enrollment.row.schoolId, notifyAdmins := true })
    pure true

end Ledger

namespace DefaulterDetection

/-- The ACTIVE plans whose term has ended with a balance. -/
def overdue (now : Int) (db : Db) : List Plan :=
  (db.enrollments.rows.filter fun r =>
    r.2.paymentStatus = .ACTIVE ∧ r.2.termEndDate < now ∧ 0 < r.2.remainingBalance).filterMap
      fun r => db.plan? r.1

/-- Default every overdue plan, one after the other; the source starts them
    together, each in a transaction of its own. -/
def runDetection : Action Unit := do
  let now ← ask .now
  let overdue ← read (overdue now)
  let _ ← overdue.mapM Ledger.markEnrollmentDefaultedBySweep
  pure ()

end DefaulterDetection

end Lopay
