import Lopay.Transactions.Program
import Mathlib.Data.List.Basic

/-!
# Executing programs under READ COMMITTED

The machine keeps one committed state. A process holds the uncommitted writes of
its open transaction; these are visible to itself only, and the rows they touch
stay locked until the transaction ends. A statement therefore waits while it
needs a row that another process has locked, and otherwise runs on the latest
committed state overlaid with its own writes. Statements outside a transaction
commit at once.

Everything is executable: a scheduler event names the process that moves, what
the outside world answers it and whether the step fails, and `Sys.step` computes
the next state.
-/

namespace Transactions

variable {σ ω κ ι J : Type} {Ans : ι → Type} {α : Type}

/-- How a row write changes the committed state, and the row locks it takes. -/
structure Store (σ ω κ : Type) where
  apply : ω → σ → σ
  locks : ω → List κ

namespace Store

variable (S : Store σ ω κ)

/-- Perform writes in order. -/
def applyAll (ws : List ω) (s : σ) : σ := ws.foldl (fun s w => S.apply w s) s

/-- All locks a list of writes takes. -/
def locksOf (ws : List ω) : List κ := ws.flatMap S.locks

@[simp] theorem applyAll_nil (s : σ) : S.applyAll [] s = s := rfl

@[simp] theorem applyAll_cons (w : ω) (ws : List ω) (s : σ) :
    S.applyAll (w :: ws) s = S.applyAll ws (S.apply w s) := rfl

theorem applyAll_append (ws ws' : List ω) (s : σ) :
    S.applyAll (ws ++ ws') s = S.applyAll ws' (S.applyAll ws s) := by
  simp only [applyAll, List.foldl_append]

@[simp] theorem locksOf_nil : S.locksOf [] = [] := rfl

@[simp] theorem locksOf_cons (w : ω) (ws : List ω) :
    S.locksOf (w :: ws) = S.locks w ++ S.locksOf ws := rfl

@[simp] theorem locksOf_append (ws ws' : List ω) :
    S.locksOf (ws ++ ws') = S.locksOf ws ++ S.locksOf ws' := by
  simp only [locksOf, List.flatMap_append]

end Store

/-- What surrounds a running program: the latest committed state, the committed
    states since the program began (newest first), its open transaction, its
    exchanges with the outside world (newest first), and how many statements it
    has executed. -/
structure Ctx (σ ω : Type) {ι : Type} (Ans : ι → Type) where
  now : σ
  past : List σ
  tx : Option (List ω)
  log : List (Sigma Ans)
  ran : Nat

namespace Ctx

variable (S : Store σ ω κ)

/-- The context of a program that has done nothing yet. -/
def init (s : σ) : Ctx σ ω Ans := ⟨s, [], none, [], 0⟩

/-- The uncommitted writes of the open transaction. -/
def pending (x : Ctx σ ω Ans) : List ω := x.tx.getD []

/-- The state the next statement runs on. -/
def view (x : Ctx σ ω Ans) : σ := S.applyAll x.pending x.now

/-- The row locks held. -/
def locks (x : Ctx σ ω Ans) : List κ := S.locksOf x.pending

/-- The context after `ws` has been committed, by this program or another. -/
def see (x : Ctx σ ω Ans) (ws : List ω) : Ctx σ ω Ans :=
  match ws with
  | [] => x
  | w :: ws => { x with now := S.applyAll (w :: ws) x.now, past := x.now :: x.past }

/-- The committed states the program has lived through, newest first. -/
def seen (x : Ctx σ ω Ans) : List σ := x.now :: x.past

/-- Record an exchange with the outside world. -/
def answered (x : Ctx σ ω Ans) (c : ι) (a : Ans c) : Ctx σ ω Ans :=
  { x with log := ⟨c, a⟩ :: x.log }

/-- Count a statement that failed. -/
def failed (x : Ctx σ ω Ans) : Ctx σ ω Ans := { x with ran := x.ran + 1 }

/-- Perform the writes of a statement: inside a transaction they stay pending,
    outside they are committed at once. -/
def wrote (x : Ctx σ ω Ans) (ws : List ω) : Ctx σ ω Ans :=
  match x.tx with
  | none => see S { x with ran := x.ran + 1 } ws
  | some pending => { x with tx := some (pending ++ ws), ran := x.ran + 1 }

/-- The writes a statement makes visible to everybody. -/
def released (x : Ctx σ ω Ans) (ws : List ω) : List ω :=
  match x.tx with
  | none => ws
  | some _ => []

/-- Open a transaction. -/
def opened (x : Ctx σ ω Ans) : Ctx σ ω Ans := { x with tx := some [] }

/-- Drop the open transaction. -/
def closed (x : Ctx σ ω Ans) : Ctx σ ω Ans := { x with tx := none }

@[simp] theorem released_nil (x : Ctx σ ω Ans) : x.released [] = [] := by
  unfold released
  split <;> rfl

theorem released_outside {x : Ctx σ ω Ans} (h : x.tx = none) (ws : List ω) :
    x.released ws = ws := by
  unfold released
  rw [h]

@[simp] theorem see_nil (x : Ctx σ ω Ans) : x.see S [] = x := rfl

@[simp] theorem see_tx (x : Ctx σ ω Ans) (ws : List ω) : (x.see S ws).tx = x.tx := by
  cases ws <;> rfl

@[simp] theorem see_log (x : Ctx σ ω Ans) (ws : List ω) : (x.see S ws).log = x.log := by
  cases ws <;> rfl

@[simp] theorem see_ran (x : Ctx σ ω Ans) (ws : List ω) : (x.see S ws).ran = x.ran := by
  cases ws <;> rfl

@[simp] theorem see_now (x : Ctx σ ω Ans) (ws : List ω) :
    (x.see S ws).now = S.applyAll ws x.now := by
  cases ws <;> rfl

@[simp] theorem see_locks (x : Ctx σ ω Ans) (ws : List ω) :
    (x.see S ws).locks S = x.locks S := by
  simp only [locks, pending, see_tx]

@[simp] theorem wrote_now (x : Ctx σ ω Ans) (ws : List ω) :
    (x.wrote S ws).now = S.applyAll (x.released ws) x.now := by
  unfold wrote released
  cases x.tx with
  | none => exact see_now S _ ws
  | some p => rfl

@[simp] theorem wrote_log (x : Ctx σ ω Ans) (ws : List ω) : (x.wrote S ws).log = x.log := by
  unfold wrote
  cases x.tx with
  | none => exact see_log S _ ws
  | some p => rfl

@[simp] theorem wrote_ran (x : Ctx σ ω Ans) (ws : List ω) :
    (x.wrote S ws).ran = x.ran + 1 := by
  unfold wrote
  cases x.tx with
  | none => exact see_ran S _ ws
  | some p => rfl

theorem wrote_tx (x : Ctx σ ω Ans) (ws : List ω) :
    (x.wrote S ws).tx = x.tx.map (· ++ ws) := by
  unfold wrote
  cases x.tx with
  | none => exact see_tx S _ ws
  | some p => rfl

end Ctx

/-- What the scheduler decides about a step besides who moves: whether it fails,
    and the answer to a request should the step be one. -/
structure Choice {ι : Type} (Ans : ι → Type) where
  fault : Bool
  answer : (c : ι) → Ans c

/-- The outcome of one step of a program: what is left of it, its context, and
    the writes that became visible to everybody. -/
structure Stepped (σ ω : Type) {ι : Type} (Ans : ι → Type) (α : Type) where
  prog : Prog σ ω Ans α
  ctx : Ctx σ ω Ans
  released : List ω

/-- One step of a program; `free` tells whether nobody else holds a lock in a
    list. A finished or waiting program has no step. -/
def Prog.step (S : Store σ ω κ) (free : List κ → Bool) (ch : Choice Ans) :
    Prog σ ω Ans α → Ctx σ ω Ans → Option (Stepped σ ω Ans α)
  | .ret _, _ => none
  | .call c k, x => some ⟨k (ch.answer c), x.answered c (ch.answer c), []⟩
  | .start k, x => some ⟨k, x.opened, []⟩
  | .rollback k, x => some ⟨k, x.closed, []⟩
  | .commit k, x =>
    if ch.fault then some ⟨k false, x.closed, []⟩
    else some ⟨k true, x.closed.see S x.pending, x.pending⟩
  | .stmt w k, x =>
    if ch.fault then some ⟨k none, x.failed, []⟩
    else if free (S.locksOf (w (x.view S))) then
      some ⟨k (some (x.view S)), x.wrote S (w (x.view S)), x.released (w (x.view S))⟩
    else none

/-! ### One program alone -/

/-- Run a program with nobody beside it, the `n`-th step taking the `n`-th
    choice. -/
def Prog.alone (S : Store σ ω κ) :
    Prog σ ω Ans α → (Nat → Choice Ans) → Ctx σ ω Ans → α × Ctx σ ω Ans
  | .ret a, _, x => (a, x)
  | .call c k, ch, x =>
    (k ((ch 0).answer c)).alone S (fun n => ch (n + 1)) (x.answered c ((ch 0).answer c))
  | .start k, ch, x => k.alone S (fun n => ch (n + 1)) x.opened
  | .rollback k, ch, x => k.alone S (fun n => ch (n + 1)) x.closed
  | .commit k, ch, x =>
    if (ch 0).fault then (k false).alone S (fun n => ch (n + 1)) x.closed
    else (k true).alone S (fun n => ch (n + 1)) (x.closed.see S x.pending)
  | .stmt w k, ch, x =>
    if (ch 0).fault then (k none).alone S (fun n => ch (n + 1)) x.failed
    else (k (some (x.view S))).alone S (fun n => ch (n + 1)) (x.wrote S (w (x.view S)))

/-- The commits a program performs when run alone, in order: the committed state
    before each, and the rows it writes. -/
def Prog.commits (S : Store σ ω κ) :
    Prog σ ω Ans α → (Nat → Choice Ans) → Ctx σ ω Ans → List (σ × List ω)
  | .ret _, _, _ => []
  | .call c k, ch, x =>
    (k ((ch 0).answer c)).commits S (fun n => ch (n + 1)) (x.answered c ((ch 0).answer c))
  | .start k, ch, x => k.commits S (fun n => ch (n + 1)) x.opened
  | .rollback k, ch, x => k.commits S (fun n => ch (n + 1)) x.closed
  | .commit k, ch, x =>
    if (ch 0).fault then (k false).commits S (fun n => ch (n + 1)) x.closed
    else
      (x.now, x.pending) ::
        (k true).commits S (fun n => ch (n + 1)) (x.closed.see S x.pending)
  | .stmt w k, ch, x =>
    if (ch 0).fault then (k none).commits S (fun n => ch (n + 1)) x.failed
    else
      (x.now, x.released (w (x.view S))) ::
        (k (some (x.view S))).commits S (fun n => ch (n + 1)) (x.wrote S (w (x.view S)))

/-! ### Many programs interleaved -/

/-- A running program with the job it was started for. -/
structure Proc (J σ ω : Type) {ι : Type} (Ans : ι → Type) (α : Type) where
  job : J
  prog : Prog σ ω Ans α
  ctx : Ctx σ ω Ans

/-- Another process has committed `ws`; a finished process no longer watches. -/
def Proc.watch (S : Store σ ω κ) (p : Proc J σ ω Ans α) (ws : List ω) : Proc J σ ω Ans α :=
  if p.prog.finished then p else { p with ctx := p.ctx.see S ws }

/-- The committed state and every process started so far. -/
structure Sys (J σ ω : Type) {ι : Type} (Ans : ι → Type) (α : Type) where
  store : σ
  procs : List (Proc J σ ω Ans α)

/-- A scheduler event: start a job, or let a process move. -/
inductive Event (J : Type) {ι : Type} (Ans : ι → Type) where
  | spawn (job : J)
  | move (pid : Nat) (choice : Choice Ans)

namespace Sys

/-- The system in which nothing has been started. -/
def init (s : σ) : Sys J σ ω Ans α := ⟨s, []⟩

/-- No process other than `pid` holds one of the locks. -/
def free [DecidableEq κ] (S : Store σ ω κ) (s : Sys J σ ω Ans α) (pid : Nat)
    (ks : List κ) : Bool :=
  (s.procs.eraseIdx pid).all fun q => ks.all fun k => decide (k ∉ q.ctx.locks S)

/-- Install the outcome of a step of process `pid`. -/
def advance (S : Store σ ω κ) (s : Sys J σ ω Ans α) (pid : Nat) (p : Proc J σ ω Ans α)
    (out : Stepped σ ω Ans α) : Sys J σ ω Ans α :=
  { store := S.applyAll out.released s.store
    procs := (s.procs.map fun q => q.watch S out.released).set pid
      { p with prog := out.prog, ctx := out.ctx } }

/-- One event. -/
def step [DecidableEq κ] (S : Store σ ω κ) (program : J → Prog σ ω Ans α)
    (s : Sys J σ ω Ans α) : Event J Ans → Option (Sys J σ ω Ans α)
  | .spawn j => some { s with procs := s.procs ++ [⟨j, program j, .init s.store⟩] }
  | .move pid ch =>
    match s.procs[pid]? with
    | none => none
    | some p => (p.prog.step S (s.free S pid) ch p.ctx).map (s.advance S pid p)

/-- The process that an event moves. -/
def mover? (s : Sys J σ ω Ans α) : Event J Ans → Option (Proc J σ ω Ans α)
  | .spawn _ => none
  | .move pid _ => s.procs[pid]?

/-- The other processes. -/
def others (s : Sys J σ ω Ans α) : Event J Ans → List (Proc J σ ω Ans α)
  | .spawn _ => s.procs
  | .move pid _ => s.procs.eraseIdx pid

/-- The systems reachable from a start by events that all satisfy `guard`. -/
inductive Reach [DecidableEq κ] (S : Store σ ω κ) (program : J → Prog σ ω Ans α)
    (guard : Sys J σ ω Ans α → Event J Ans → Sys J σ ω Ans α → Prop)
    (start : σ → Prop) : Sys J σ ω Ans α → Prop where
  | init {s : σ} : start s → Reach S program guard start (.init s)
  | step {s s' : Sys J σ ω Ans α} (e : Event J Ans) : Reach S program guard start s →
      s.step S program e = some s' → guard s e s' → Reach S program guard start s'

/-- Execute a schedule, as long as every event passes `check`. -/
def exec [DecidableEq κ] (S : Store σ ω κ) (program : J → Prog σ ω Ans α)
    (check : Sys J σ ω Ans α → Event J Ans → Sys J σ ω Ans α → Bool) :
    List (Event J Ans) → Sys J σ ω Ans α → Option (Sys J σ ω Ans α)
  | [], s => some s
  | e :: es, s =>
    match s.step S program e with
    | none => none
    | some s' => if check s e s' then exec S program check es s' else none

end Sys

end Transactions
