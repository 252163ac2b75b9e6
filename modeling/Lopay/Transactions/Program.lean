import Mathlib.Logic.Basic

/-!
# Programs that talk to a database

A program is a tree of interactions: statements against the database, calls to
the outside world, and the transaction brackets. Nothing in the tree says what
runs beside it; the same tree is executed alone or interleaved with others in
`Lopay.Transactions.Machine`.

A statement reads the state it runs on (its *view*: the committed state overlaid
with the uncommitted writes of its own transaction), decides the row writes it
performs, and hands the view to the rest of the program. A statement can fail,
and then it writes nothing and the rest of the program is told so.
-/

namespace Transactions

/-- A program over database states `σ` and row writes `ω` that may put requests
    of type `ι` to the outside world, the answer to `c` being an `Ans c`. -/
inductive Prog (σ ω : Type) {ι : Type} (Ans : ι → Type) (α : Type) : Type where
  | ret (value : α)
  | call (request : ι) (next : Ans request → Prog σ ω Ans α)
  | stmt (writes : σ → List ω) (next : Option σ → Prog σ ω Ans α)
  | start (next : Prog σ ω Ans α)
  | commit (next : Bool → Prog σ ω Ans α)
  | rollback (next : Prog σ ω Ans α)

variable {σ ω ι : Type} {Ans : ι → Type} {α β ε : Type}

namespace Prog

/-- Run `p`, then the program its result selects. -/
def bind : Prog σ ω Ans α → (α → Prog σ ω Ans β) → Prog σ ω Ans β
  | ret a, f => f a
  | call c k, f => call c fun a => (k a).bind f
  | stmt w k, f => stmt w fun v => (k v).bind f
  | start k, f => start (k.bind f)
  | commit k, f => commit fun ok => (k ok).bind f
  | rollback k, f => rollback (k.bind f)

instance : Monad (Prog σ ω Ans) where
  pure := ret
  bind := bind

theorem bind_ret (p : Prog σ ω Ans α) : p.bind ret = p := by
  induction p with
  | ret a => rfl
  | call c k ih => exact congrArg (call c) (funext ih)
  | stmt w k ih => exact congrArg (stmt w) (funext ih)
  | start k ih => exact congrArg start ih
  | commit k ih => exact congrArg commit (funext ih)
  | rollback k ih => exact congrArg rollback ih

theorem bind_bind {γ : Type} (p : Prog σ ω Ans α) (f : α → Prog σ ω Ans β)
    (g : β → Prog σ ω Ans γ) : (p.bind f).bind g = p.bind fun a => (f a).bind g := by
  induction p with
  | ret a => rfl
  | call c k ih => exact congrArg (call c) (funext ih)
  | stmt w k ih => exact congrArg (stmt w) (funext ih)
  | start k ih => exact congrArg start ih
  | commit k ih => exact congrArg commit (funext ih)
  | rollback k ih => exact congrArg rollback ih

instance : LawfulMonad (Prog σ ω Ans) :=
  LawfulMonad.mk' (Prog σ ω Ans) bind_ret (fun _ _ => rfl) bind_bind

/-- A program with nothing left to do. -/
def finished : Prog σ ω Ans α → Bool
  | ret _ => true
  | _ => false

/-- The value of a finished program. -/
def result? : Prog σ ω Ans α → Option α
  | ret a => some a
  | _ => none

@[simp] theorem finished_ret (a : α) : (ret a : Prog σ ω Ans α).finished = true := rfl

theorem eq_ret_of_finished {p : Prog σ ω Ans α} (h : p.finished = true) : ∃ a, p = ret a := by
  cases p with
  | ret a => exact ⟨a, rfl⟩
  | call c k => cases h
  | stmt w k => cases h
  | start k => cases h
  | commit k => cases h
  | rollback k => cases h

theorem eq_ret_of_result {p : Prog σ ω Ans α} {a : α} (h : p.result? = some a) : p = ret a := by
  cases p with
  | ret b =>
    obtain rfl := Option.some.inj h
    rfl
  | call c k => cases h
  | stmt w k => cases h
  | start k => cases h
  | commit k => cases h
  | rollback k => cases h

end Prog

/-- A program that may throw an `ε`. -/
abbrev Routine (σ ω : Type) {ι : Type} (Ans : ι → Type) (ε : Type) :=
  ExceptT ε (Prog σ ω Ans)

namespace Routine

/-- One statement: on its view it either throws or returns a value together with
    the rows it writes. A statement that fails throws `fault`. -/
def exec (fault : ε) (f : σ → Except ε (α × List ω)) : Routine σ ω Ans ε α :=
  ExceptT.mk (.stmt
    (fun v => match f v with
      | .ok (_, ws) => ws
      | .error _ => [])
    (fun
      | none => .ret (.error fault)
      | some v => .ret (match f v with
        | .ok (a, _) => .ok a
        | .error e => .error e)))

/-- A statement that only reads. -/
def query (fault : ε) (q : σ → α) : Routine σ ω Ans ε α :=
  exec fault fun v => .ok (q v, [])

/-- A request to the outside world. -/
def ask (c : ι) : Routine σ ω Ans ε (Ans c) :=
  ExceptT.mk (.call c fun a => .ret (.ok a))

/-- Run `body` between the transaction brackets: an error rolls back and is
    thrown again, a failed commit throws `fault`. -/
def transaction (fault : ε) (body : Routine σ ω Ans ε α) : Routine σ ω Ans ε α :=
  ExceptT.mk (.start (body.run.bind fun
    | .ok a => .commit fun
      | true => .ret (.ok a)
      | false => .ret (.error fault)
    | .error e => .rollback (.ret (.error e))))

/-- Throw `e` when the condition holds. -/
def throwIf (c : Prop) [Decidable c] (e : ε) : Routine σ ω Ans ε Unit :=
  if c then throw e else pure ()

/-- The value of an option, or throw `e`. -/
def orThrow (o : Option α) (e : ε) : Routine σ ω Ans ε α :=
  match o with
  | some a => pure a
  | none => throw e

/-- Run `m` only when the condition holds. -/
def onlyIf (c : Prop) [Decidable c] (m : Routine σ ω Ans ε Unit) : Routine σ ω Ans ε Unit :=
  if c then m else pure ()

end Routine

end Transactions
