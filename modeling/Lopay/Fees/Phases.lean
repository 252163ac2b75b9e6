import Lopay.Fees.Service

/-!
# The steps of a fee request

Each request of `Lopay.Fees.Service` is a fixed sequence of statements, which the definitions
here spell out, and the programs of the service are shown to be these sequences.
-/

namespace Lopay.Fees

open Transactions

/-- The rows that a statement writes. -/
def written {β : Type} (out : Except Err (β × List Write)) : List Write :=
  match out with
  | .ok (_, ws) => ws
  | .error _ => []

theorem exec_run {β : Type} (f : Shelf → Except Err (β × List Write)) :
    (Routine.exec .database f : Action β).run = .stmt (fun v => written (f v)) fun
      | none => .ret (.error .database)
      | some v => .ret ((f v).map Prod.fst) := by
  refine congrArg₂ Prog.stmt (funext fun v => ?_) (funext fun v? => ?_)
  · cases hout : f v <;> rfl
  · cases v? with
    | none => rfl
    | some v => cases hout : f v <;> simp [hout, Except.map]

section Phases

variable (locale : Locale) (schoolId : Id)

/-! ### Reading -/

/-- The reader has its list and stores it. -/
def storing (list : List ListedFee) : Program :=
  .stmt (fun _ => [.setCache (CacheKeys.classFees schoolId) list]) fun _ => .ret (.ok (.fees list))

/-- The reader has missed the cache and reads the rows. -/
def loading : Program :=
  .stmt (fun _ => []) fun
    | none => .ret (.error .database)
    | some v => storing schoolId (feeList locale schoolId v)

/-- The reader looks into the cache. -/
def looking : Program :=
  .stmt (fun _ => []) fun
    | none => loading locale schoolId
    | some v => match v.cached.lookup (CacheKeys.classFees schoolId) with
      | some list => .ret (.ok (.fees list))
      | none => loading locale schoolId

theorem getClassFees_program :
    (Job.getClassFees schoolId).program locale = looking locale schoolId := by
  have hload : ((Reply.fees <$> do
      let value ← Routine.query .database (feeList locale schoolId)
      Cache.set (CacheKeys.classFees schoolId) value
      pure value : Action Reply)).run = loading locale schoolId := by
    refine congrArg (Prog.stmt _) (funext fun v? => ?_)
    cases v? with
    | none => rfl
    | some v =>
      refine congrArg (Prog.stmt _) (funext fun w? => ?_)
      cases w? <;> rfl
  have hhit : ∀ hit : Option (List ListedFee), ((Reply.fees <$> (match hit with
      | some value => pure value
      | none => do
        let value ← Routine.query .database (feeList locale schoolId)
        Cache.set (CacheKeys.classFees schoolId) value
        pure value) : Action Reply)).run = match hit with
      | some list => .ret (.ok (.fees list))
      | none => loading locale schoolId
    | none => hload
    | some _ => rfl
  refine congrArg (Prog.stmt _) (funext fun v? => ?_)
  cases v? with
  | none => exact hload
  | some v => exact hhit (v.cached.lookup (CacheKeys.classFees schoolId))

/-! ### Publishing a schedule -/

/-- The schedule is committed; the cached list goes, and the new one is read. -/
def deleting : Program :=
  .stmt (fun _ => [.delCache (CacheKeys.classFees schoolId)]) fun _ => looking locale schoolId

def committing : Program :=
  .commit fun
    | true => deleting locale schoolId
    | false => .ret (.error .database)

/-- The transaction is abandoned. -/
def abandoning (error : Err) : Program := .rollback (.ret (.error error))

/-- One upsert, for which an id has been drawn. -/
def upsertingRow (e : String × Int) (id : Id) (rest : Program) : Program :=
  .stmt (fun v => written (upserted (schoolId, e.1) e.2 id v)) fun
    | none => abandoning .database
    | some v => match upserted (schoolId, e.1) e.2 id v with
      | .ok _ => rest
      | .error error => abandoning error

/-- The entries that are still to be upserted. -/
def upserting : List (String × Int) → Program
  | [] => committing locale schoolId
  | e :: entries => .call .newId fun id => upsertingRow schoolId e id (upserting entries)

def retiring (entries : List (String × Int)) : Program :=
  .stmt (fun v => retired schoolId (entries.map Prod.fst) v) fun
    | none => abandoning .database
    | some _ => upserting locale schoolId entries

/-- What follows the upserts of the transaction. -/
def ending : Except Err Unit → Program
  | .ok _ => committing locale schoolId
  | .error error => abandoning error

theorem upsertAll_ending (entries : List (String × Int)) :
    (upsertAll schoolId entries).run.bind (ending locale schoolId) =
      upserting locale schoolId entries := by
  induction entries with
  | nil => rfl
  | cons e entries ih =>
    refine congrArg (Prog.call _) (funext fun id => ?_)
    have hexec := exec_run (upserted (schoolId, e.1) e.2 id)
    refine (congrArg (fun p => ((Prog.bind p (ExceptT.bindCont fun _ => (pure () : Action Unit))).bind
      (ExceptT.bindCont fun _ => upsertAll schoolId entries)).bind (ending locale schoolId)) hexec).trans ?_
    refine congrArg (Prog.stmt _) (funext fun v? => ?_)
    cases v? with
    | none => rfl
    | some v =>
      cases hout : upserted (schoolId, e.1) e.2 id v with
      | ok out =>
        simp only [Prog.bind, hout, Except.map, ExceptT.bindCont]
        exact ih
      | error error =>
        simp only [Prog.bind, hout, Except.map, ExceptT.bindCont]
        rfl

theorem del_getClassFees_run :
    (Reply.fees <$> do
      Cache.del (CacheKeys.classFees schoolId)
      getClassFees locale schoolId : Action Reply).run = deleting locale schoolId := by
  refine congrArg (Prog.stmt _) (funext fun v? => ?_)
  have hlook := getClassFees_program locale schoolId
  cases v? <;> exact hlook

theorem publish_run (entries : List (String × Int)) :
    (Reply.fees <$> do
      publish schoolId entries
      Cache.del (CacheKeys.classFees schoolId)
      getClassFees locale schoolId : Action Reply).run =
        .start (retiring locale schoolId entries) := by
  refine congrArg Prog.start (congrArg (Prog.stmt _) (funext fun v? => ?_))
  cases v? with
  | none => rfl
  | some v =>
    rw [← upsertAll_ending]
    refine (Prog.bind_bind _ _ _).trans ?_
    refine (Prog.bind_bind _ _ _).trans ?_
    refine congrArg (Prog.bind (upsertAll schoolId entries).run) (funext fun outcome => ?_)
    cases outcome with
    | error error => rfl
    | ok _ =>
      refine congrArg Prog.commit (funext fun committed => ?_)
      cases committed with
      | false => rfl
      | true => exact del_getClassFees_run locale schoolId

theorem setClassFees_program (fees : List CreateClassFeeDto) :
    (Job.setClassFees schoolId fees).program locale = match duplicate? locale [] fees with
      | some className =>
        .ret (.error (.badRequest ("Duplicate class name in payload: " ++ className)))
      | none => .start (retiring locale schoolId (fees.map normalized)) := by
  change (Reply.fees <$> setClassFees locale schoolId fees : Action Reply).run = _
  unfold setClassFees
  cases duplicate? locale [] fees with
  | some className => rfl
  | none => exact publish_run locale schoolId (fees.map normalized)

/-! ### One class fee -/

/-- The row that `createClassFee` found is rewritten. -/
def updating (id : Id) (feeAmount : Int) : Program :=
  .stmt (fun v => written (updated id feeAmount v)) fun
    | none => .ret (.error .database)
    | some v => .ret ((updated id feeAmount v).map fun out => .fee out.1)

def insertingRow (key : FeeKey) (row : ClassFee) : Program :=
  .stmt (fun v => written (inserted key row v)) fun
    | none => .ret (.error .database)
    | some v => .ret ((inserted key row v).map fun out => .fee out.1)

/-- A row for a class that had none. -/
def inserting (key : FeeKey) (feeAmount : Int) : Program :=
  .call .newId fun id => insertingRow key { id, feeAmount, isActive := true }

/-- The cached list goes before the row is written. -/
def dropping (className : String) (feeAmount : Int) (existingFee : Option ClassFee) : Program :=
  .stmt (fun _ => [.delCache (CacheKeys.classFees schoolId)]) fun _ => match existingFee with
    | some existing => updating existing.id feeAmount
    | none => inserting (schoolId, className) feeAmount

def finding (className : String) (feeAmount : Int) : Program :=
  .stmt (fun _ => []) fun
    | none => .ret (.error .database)
    | some v => dropping schoolId className feeAmount (v.classFees.lookup (schoolId, className))

/-- A request that ends with one statement. -/
theorem fee_exec_run (f : Shelf → Except Err ((FeeKey × ClassFee) × List Write)) :
    (Reply.fee <$> (Routine.exec .database f : Action _) : Action Reply).run =
      .stmt (fun v => written (f v)) fun
        | none => .ret (.error .database)
        | some v => .ret ((f v).map fun out => .fee out.1) := by
  refine (congrArg (fun p => Prog.bind p _) (exec_run f)).trans ?_
  refine congrArg (Prog.stmt _) (funext fun v? => ?_)
  cases v? with
  | none => rfl
  | some v => cases hout : f v <;> simp only [hout, Except.map] <;> rfl

theorem createClassFee_program (className : String) (feeAmount : ℚ) :
    (Job.createClassFee schoolId className feeAmount).program locale =
      finding schoolId className (Money.fromNaira feeAmount) := by
  refine congrArg (Prog.stmt _) (funext fun v? => ?_)
  cases v? with
  | none => rfl
  | some v =>
    have hwrite : ∀ existingFee : Option ClassFee, (Reply.fee <$> (match existingFee with
        | some existing => updateClassFee existing.id (Money.fromNaira feeAmount)
        | none => insertClassFee (schoolId, className) (Money.fromNaira feeAmount)) :
          Action Reply).run = match existingFee with
        | some existing => updating existing.id (Money.fromNaira feeAmount)
        | none => inserting (schoolId, className) (Money.fromNaira feeAmount)
      | some _ => fee_exec_run _
      | none => congrArg (Prog.call _) (funext fun _ => fee_exec_run _)
    refine congrArg (Prog.stmt _) (funext fun w? => ?_)
    cases w? <;> exact hwrite (v.classFees.lookup (schoolId, className))

/-- A cached value goes by itself. -/
def expiring (key : String) : Program :=
  .stmt (fun _ => [.delCache key]) fun _ => .ret (.ok .nothing)

theorem expire_program (key : String) : (Job.expire key).program locale = expiring key := by
  refine congrArg (Prog.stmt _) (funext fun v? => ?_)
  cases v? <;> rfl

end Phases

end Lopay.Fees
