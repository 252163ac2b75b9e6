import Lopay.Schema
import Lopay.Text
import Mathlib.Data.List.Sort

/-!
# Class fees and their cache

The fee schedule of a school, as `schools.service.ts` writes and lists it, and the cache in
front of the list. A row is kept under its unique key, the school and the class name. What the
cache holds is JSON under a key of its own, and a cache that cannot be reached is a miss.
-/

namespace Lopay

open Transactions

namespace Fees

/-- The columns of a class fee besides its school and class name. -/
structure ClassFee where
  id : Id
  feeAmount : Int
  isActive : Bool
deriving DecidableEq

/-- A class fee as it is listed, in Naira. -/
structure ListedFee where
  id : Id
  schoolId : Id
  className : String
  feeAmount : ℚ
  isActive : Bool
deriving DecidableEq

/-- A school and a class name, under which there is one row. -/
abbrev FeeKey := Id × String

/-- The fee rows, and what is cached. -/
structure Shelf where
  classFees : Table FeeKey ClassFee
  cached : Table String (List ListedFee)

inductive Write where
  | putClassFee (key : FeeKey) (row : ClassFee)
  | setCache (key : String) (value : List ListedFee)
  | delCache (key : String)

def Write.apply : Write → Shelf → Shelf
  | .putClassFee key row, s => { s with classFees := s.classFees.insert key row }
  | .setCache key value, s => { s with cached := s.cached.insert key value }
  | .delCache key, s => { s with cached := s.cached.erase key }

/-- Rows are locked until their transaction ends; the cache knows no locks. -/
def store : Store Shelf Write FeeKey where
  apply := Write.apply
  locks := fun
    | .putClassFee key _ => [key]
    | .setCache _ _ => []
    | .delCache _ => []

@[simp] theorem store_apply (w : Write) (s : Shelf) : store.apply w s = w.apply s := rfl

/-- The one request: the `uuid()` of a new row. -/
inductive Call where
  | newId
deriving DecidableEq

@[reducible] def Answer : Call → Type
  | .newId => Id

abbrev Action (α : Type) := Routine Shelf Write Answer Err α

/-- What the code takes from its surroundings: `toLowerCase`, and the order the database sorts
    texts in. -/
structure Locale where
  toLowerCase : String → String
  before : String → String → Bool

/-! ### The cache -/

def CacheKeys.classFees (schoolId : Id) : String := "cache:classfees:" ++ schoolId

namespace Cache

/-- `get`: a cache read never breaks the request. -/
def get (key : String) : Action (Option (List ListedFee)) :=
  tryCatch (Routine.query .database fun s => s.cached.lookup key) fun _ => pure none

def set (key : String) (value : List ListedFee) : Action Unit :=
  tryCatch (Routine.exec .database fun _ => .ok ((), [.setCache key value])) fun _ => pure ()

/-- Invalidate an exact key. -/
def del (key : String) : Action Unit :=
  tryCatch (Routine.exec .database fun _ => .ok ((), [.delCache key])) fun _ => pure ()

/-- Return the cached value if present, else run `loader`, cache it, return it. -/
def getOrSet (key : String) (loader : Action (List ListedFee)) : Action (List ListedFee) := do
  let hit ← get key
  match hit with
  | some value => pure value
  | none =>
    let value ← loader
    set key value
    pure value

end Cache

/-! ### Statements -/

def fees (s : Shelf) : List (FeeKey × ClassFee) := s.classFees.rows

/-- `classFee.findFirst({ where: { className } })` of a tenant. -/
def findClassFee (schoolId : Id) (className : String) : Action (Option ClassFee) :=
  Routine.query .database fun s => s.classFees.lookup (schoolId, className)

/-- The row of this id with a new amount, active. -/
def updated (id : Id) (feeAmount : Int) (s : Shelf) :
    Except Err ((FeeKey × ClassFee) × List Write) :=
  match (fees s).find? fun r => r.2.id = id with
  | some (key, row) =>
    let row := { row with feeAmount, isActive := true }
    .ok ((key, row), [.putClassFee key row])
  | none => .error .recordNotFound

/-- `classFee.update({ where: { id } })`. -/
def updateClassFee (id : Id) (feeAmount : Int) : Action (FeeKey × ClassFee) :=
  Routine.exec .database (updated id feeAmount)

/-- The row of a new class fee, unless its key or its id is taken. -/
def inserted (key : FeeKey) (row : ClassFee) (s : Shelf) :
    Except Err ((FeeKey × ClassFee) × List Write) :=
  if (s.classFees.lookup key).isSome then .error (.unique "schoolId_className")
  else if ((fees s).find? fun r => r.2.id = row.id).isSome then .error (.unique "id")
  else .ok ((key, row), [.putClassFee key row])

/-- `classFee.create`. -/
def insertClassFee (key : FeeKey) (feeAmount : Int) : Action (FeeKey × ClassFee) := do
  let id ← Routine.ask Call.newId
  Routine.exec .database (inserted key { id, feeAmount, isActive := true })

/-- One entry of a schedule, in the row that is there or in a new one. -/
def upserted (key : FeeKey) (feeAmount : Int) (id : Id) (s : Shelf) :
    Except Err ((FeeKey × ClassFee) × List Write) :=
  match s.classFees.lookup key with
  | some row =>
    let row := { row with feeAmount, isActive := true }
    .ok ((key, row), [.putClassFee key row])
  | none => inserted key { id, feeAmount, isActive := true } s

/-- `classFee.upsert`. -/
def upsertClassFee (key : FeeKey) (feeAmount : Int) : Action Unit := do
  let id ← Routine.ask Call.newId
  let _ ← Routine.exec .database (upserted key feeAmount id)
  pure ()

def retire (row : ClassFee) : ClassFee := { row with isActive := false }

/-- The active rows of a school whose class is not kept, to be retired. -/
def retired (schoolId : Id) (keptNames : List String) (s : Shelf) : List Write :=
  ((fees s).filter fun r => r.1.1 = schoolId && r.2.isActive && !keptNames.contains r.1.2).map
    fun r => .putClassFee r.1 (retire r.2)

/-- `classFee.updateMany({ data: { isActive: false } })`. -/
def retireOthers (schoolId : Id) (keptNames : List String) : Action Unit :=
  Routine.exec .database fun s => .ok ((), retired schoolId keptNames s)

def listedFee (r : FeeKey × ClassFee) : ListedFee where
  id := r.2.id
  schoolId := r.1.1
  className := r.1.2
  feeAmount := Money.toNaira r.2.feeAmount
  isActive := r.2.isActive

section Operations

variable (locale : Locale)

/-- The fee list of a school: its active rows by class name. -/
def feeList (schoolId : Id) (s : Shelf) : List ListedFee :=
  (((fees s).filter fun r => r.1.1 = schoolId && r.2.isActive).mergeSort
    fun r r' => locale.before r.1.2 r'.1.2).map listedFee

/-! ### Operations -/

def getClassFees (schoolId : Id) : Action (List ListedFee) :=
  Cache.getOrSet (CacheKeys.classFees schoolId)
    (Routine.query .database (feeList locale schoolId))

def createClassFee (schoolId : Id) (className : String) (feeAmount : ℚ) :
    Action (FeeKey × ClassFee) := do
  let feeKobo := Money.fromNaira feeAmount
  let existingFee ← findClassFee schoolId className
  -- Invalidate the cached fee list; the next read repopulates.
  Cache.del (CacheKeys.classFees schoolId)
  match existingFee with
  | some existing => updateClassFee existing.id feeKobo
  | none => insertClassFee (schoolId, className) feeKobo

/-- An entry of a payload. -/
structure CreateClassFeeDto where
  className : String
  feeAmount : ℚ

def trim (text : String) : String := String.ofList (Text.trim text.toList)

/-- The first entry whose class was named before, up to spaces around it and case. -/
def duplicate? (seen : List String) : List CreateClassFeeDto → Option String
  | [] => none
  | fee :: fees =>
    let key := locale.toLowerCase (trim fee.className)
    if seen.contains key then some fee.className else duplicate? (key :: seen) fees

/-- An entry as it is stored: the name trimmed, the amount in kobo. -/
def normalized (fee : CreateClassFeeDto) : String × Int :=
  (trim fee.className, Money.fromNaira fee.feeAmount)

def upsertAll (schoolId : Id) : List (String × Int) → Action Unit
  | [] => pure ()
  | fee :: fees => do
    upsertClassFee (schoolId, fee.1) fee.2
    upsertAll schoolId fees

/-- The one transaction of `setClassFees`. -/
def publish (schoolId : Id) (entries : List (String × Int)) : Action Unit :=
  Routine.transaction .database do
    retireOthers schoolId (entries.map Prod.fst)
    upsertAll schoolId entries

/-- Publish the complete fee schedule of a school. -/
def setClassFees (schoolId : Id) (fees : List CreateClassFeeDto) : Action (List ListedFee) :=
  match duplicate? locale [] fees with
  | some className => throw (.badRequest ("Duplicate class name in payload: " ++ className))
  | none => do
    publish schoolId (fees.map normalized)
    -- Invalidate after the commit: a read racing an aborted transaction must not cache fees
    -- that were rolled back.
    Cache.del (CacheKeys.classFees schoolId)
    getClassFees locale schoolId

/-! ### Requests -/

inductive Job where
  | createClassFee (schoolId : Id) (className : String) (feeAmount : ℚ)
  | setClassFees (schoolId : Id) (fees : List CreateClassFeeDto)
  | getClassFees (schoolId : Id)
  /-- A cached value reaches the end of its time. -/
  | expire (key : String)

inductive Reply where
  | fee (row : FeeKey × ClassFee)
  | fees (list : List ListedFee)
  | nothing

def Job.action : Job → Action Reply
  | createClassFee schoolId className feeAmount =>
    Reply.fee <$> Fees.createClassFee schoolId className feeAmount
  | setClassFees schoolId fees => Reply.fees <$> Fees.setClassFees locale schoolId fees
  | getClassFees schoolId => Reply.fees <$> Fees.getClassFees locale schoolId
  | expire key => (fun _ => Reply.nothing) <$> Cache.del key

abbrev Program := Prog Shelf Write Answer (Except Err Reply)

def Job.program (job : Job) : Program := (job.action locale).run

/-- What is stored and every request so far. -/
abbrev Desk := Sys Job Shelf Write Answer (Except Err Reply)

end Operations

end Fees

end Lopay
