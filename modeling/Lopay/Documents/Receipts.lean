import Lopay.Documents.Paths
import Lopay.Books.Jobs
import Lopay.Text

/-!
# Receipts and the folders they lie in

`DocumentsService`: a receipt is an object in a bucket, under the path that the payment was
submitted with. The submission compares the beginning of that text with the folder of the caller,
and the download signs the text as it is stored; storage resolves it. The signer of whole batches
refuses any text with two dots in it.
-/

namespace Lopay

open Transactions

namespace Documents

open Paths Text

/-! ### Signing -/

section Sign

variable (configured : Bool)

/-- `bucket()`, and the path that is handed to `createSignedUrl`. -/
def sign (path : String) : Except Err String :=
  if configured then .ok path else .error (.badRequest "Receipt storage is not configured")

def createReceiptDownloadUrl (db : Db) (paymentId : Id) (user : AuthUser) : Except Err String :=
  match db.payments.lookup paymentId with
  | none => .error (.notFound "Payment not found")
  | some payment =>
      match given payment.receiptUrl with
      | none => .error (.notFound "Receipt not available")
      | some receiptPath =>
          let plan := db.plan? payment.enrollmentId
          let isParent := user.role = .PARENT ∧ (plan.map (·.parent.userId)) = some user.userId
          let isSchoolOwner :=
            user.role = .SCHOOL_OWNER ∧ (plan.map (·.school.ownerId)) = some user.userId
          let isAdmin := user.role = .SUPER_ADMIN
          if isParent ∨ isSchoolOwner ∨ isAdmin then sign configured receiptPath
          else .error (.forbidden "Not authorized to access this receipt")

/-- The batch signer. -/
def createSignedUrlForPath (filePath : String) : Except Err String :=
  if trim filePath.toList = [] then .error (.badRequest "Path is required")
  else if ¬"receipts/".toList <+: filePath.toList ∨ ['.', '.'] <:+: filePath.toList then
    .error (.badRequest "Path is not a receipt object")
  else sign configured filePath

end Sign

/-! ### Folders -/

/-- `receipts/<userId>` -/
def folderOf (userId : Id) : List Segment := ["receipts".toList, userId.toList]

/-- Someone who uploads receipts; the ids that the database mints are names. -/
structure Uploader where
  id : Id
  isName : Segment.IsName id.toList

/-- What an accepted text says beyond the folder of its submitter. -/
def beyond (userId : Id) (receiptUrl : String) : List Segment :=
  segments (receiptUrl.toList.drop (folderText (folderOf userId)).length)

/-- It names again whatever of the folder it climbs out of. -/
def ReturnsTo (userId : Id) (receiptUrl : String) : Prop :=
  (folderOf userId).drop (2 - (settle (beyond userId receiptUrl)).1)
    <+: (settle (beyond userId receiptUrl)).2

theorem folderOf_names (owner : Uploader) : ∀ name ∈ folderOf owner.id, name.IsName := by
  intro name hname
  simp only [folderOf, List.mem_cons, List.not_mem_nil, or_false] at hname
  rcases hname with rfl | rfl
  · exact ⟨by decide, by decide, by decide⟩
  · exact owner.isName

/-- An accepted text begins with the folder. -/
theorem ownsReceiptPath_text {receiptUrl : String} {userId : Id}
    (h : Enrollment.ownsReceiptPath (some receiptUrl) userId = true) :
    receiptUrl.toList = folderText (folderOf userId)
      ++ receiptUrl.toList.drop (folderText (folderOf userId)).length := by
  have hfolder : ("receipts/" ++ userId ++ "/").toList = folderText (folderOf userId) := by
    simp [folderText, folderOf]
  have hprefix : folderText (folderOf userId) <+: receiptUrl.toList := by
    rw [← hfolder]
    exact List.isPrefixOf_iff_prefix.1 h
  obtain ⟨rest, hrest⟩ := hprefix
  rw [← hrest, List.drop_left]

/-- The path that is signed for a payment is the text in its row. -/
theorem createReceiptDownloadUrl_path {configured : Bool} {db : Db} {paymentId : Id}
    {user : AuthUser} {path : String}
    (h : createReceiptDownloadUrl configured db paymentId user = .ok path) :
    ∃ payment, db.payments.lookup paymentId = some payment ∧ payment.receiptUrl = some path := by
  unfold createReceiptDownloadUrl at h
  cases hrow : db.payments.lookup paymentId with
  | none =>
    rw [hrow] at h
    cases h
  | some payment =>
    rw [hrow] at h
    simp only at h
    cases hreceipt : given payment.receiptUrl with
    | none =>
      rw [hreceipt] at h
      cases h
    | some receiptPath =>
      rw [hreceipt] at h
      simp only [sign] at h
      split at h
      · split at h
        · cases h
          exact ⟨payment, rfl, (Option.filter_eq_some_iff.1 hreceipt).1⟩
        · cases h
      · cases h

/-- What the batch signer lets through of an accepted text stays in the folder. -/
theorem returnsTo_of_no_dots {receiptUrl : String} (userId : Id) {configured : Bool}
    {signed : String} (hsigned : createSignedUrlForPath configured receiptUrl = .ok signed) :
    ReturnsTo userId receiptUrl := by
  have hdots : ¬['.', '.'] <:+: receiptUrl.toList := by
    intro hdots
    unfold createSignedUrlForPath at hsigned
    rw [if_pos (Or.inr hdots)] at hsigned
    split at hsigned <;> cases hsigned
  have hexcess : (settle (beyond userId receiptUrl)).1 = 0 := by
    apply settle_of_no_climb
    intro segment hsegment hclimbs
    have hpart := infix_of_mem_segments hsegment
    rw [hclimbs] at hpart
    exact hdots (hpart.trans (List.drop_suffix _ _).isInfix)
  unfold ReturnsTo
  rw [hexcess]
  exact List.nil_prefix

/-- The object that is signed for an accepted receipt lies in the folder of its submitter exactly
    if the text goes back into what it climbs out of. -/
theorem receipt_stays_iff (owner : Uploader) {receiptUrl : String}
    (haccepted : Enrollment.ownsReceiptPath (some receiptUrl) owner.id = true) {db : Db}
    {paymentId : Id} {payment : Payment} (hrow : db.payments.lookup paymentId = some payment)
    (hreceipt : payment.receiptUrl = some receiptUrl) {configured : Bool} {viewer : AuthUser}
    {path : String} (hsigned : createReceiptDownloadUrl configured db paymentId viewer = .ok path) :
    folderOf owner.id <+: resolve path.toList ↔ ReturnsTo owner.id receiptUrl := by
  obtain ⟨found, hfound, hpath⟩ := createReceiptDownloadUrl_path hsigned
  rw [hrow, Option.some.injEq] at hfound
  subst hfound
  rw [hreceipt, Option.some.injEq] at hpath
  subst hpath
  rw [ownsReceiptPath_text haccepted, within_folder_iff (folderOf_names owner)]
  rfl

/-- A text that climbs and comes back. -/
def windingReceipt : String := "receipts/parent/.//june/../photo.jpg"

def parentUploader : Uploader where
  id := "parent"
  isName := ⟨by decide, by decide, by decide⟩

def familyWithReceipt : Db :=
  { oneFamily with
    payments := [⟨"x4", Enrollment.installmentPayment "a6" "school" 75000 (some windingReceipt)
      none 0⟩].toAList }

theorem receipt_stays_winding :
    folderOf parentUploader.id <+: resolve windingReceipt.toList := by
  have hsigned : createReceiptDownloadUrl true familyWithReceipt "x4"
      ⟨"admin", .SUPER_ADMIN, none⟩ = .ok windingReceipt := rfl
  refine (receipt_stays_iff parentUploader (by decide) rfl rfl hsigned).2 ?_
  unfold ReturnsTo
  decide

/-- The parent submits an installment with a path through the folder of somebody else. -/
def strayReceipt : String := "receipts/parent/../other/photo.jpg"

def straySubmission : List (Job × (Nat → Choice Answer)) :=
  [(.enrollChild (enrollment none) "parent", smoothly "a"),
   (.settleFirstPayment "a8" admin, smoothly "b"),
   (.submitInstallmentPayment "a6" 75000 parentUser (some strayReceipt) none, smoothly "x")]

/-- It is accepted, and what is signed for it is the other one's. -/
theorem receipt_stays_needs_return :
    ∃ db, execSerial store Job.program (fun _ _ _ => true) straySubmission oneFamily = some db
      ∧ createReceiptDownloadUrl true db "x4" parentUser = .ok strayReceipt
      ∧ resolve strayReceipt.toList
        = ["receipts".toList, "other".toList, "photo.jpg".toList]
      ∧ ¬folderOf "parent" <+: resolve strayReceipt.toList := by
  have hruns : ((execSerial store Job.program (fun _ _ _ => true) straySubmission oneFamily).any
      fun db => createReceiptDownloadUrl true db "x4" parentUser = .ok strayReceipt) = true := by
    decide +kernel
  obtain ⟨db, hdb, hsigned⟩ := (Option.any_eq_true _ _).mp hruns
  exact ⟨db, hdb, of_decide_eq_true hsigned, by decide, by decide⟩

end Documents

end Lopay
