import Lopay.Transactions.Runs

/-!
# A run and its moments

`Sys.Timeline` is a run with its systems numbered, for what has to be said about the order of
several steps.
-/

namespace Transactions

variable {σ ω κ ι J : Type} {Ans : ι → Type} {α : Type} {S : Store σ ω κ}

namespace Sys

variable [DecidableEq κ] {program : J → Prog σ ω Ans α} {start : σ → Prop}

/-- The systems that the events lead to, one after the other, from `s` on. -/
def after (S : Store σ ω κ) (program : J → Prog σ ω Ans α) (s : Sys J σ ω Ans α)
    (event : Nat → Event J Ans) : Nat → Sys J σ ω Ans α
  | 0 => s
  | i + 1 => ((after S program s event i).step S program (event i)).getD (after S program s event i)

/-- A run from a start, of some length. -/
structure Timeline (S : Store σ ω κ) (program : J → Prog σ ω Ans α) (start : σ → Prop) where
  length : Nat
  state : Nat → Sys J σ ω Ans α
  event : Nat → Event J Ans
  starts : ∃ s, start s ∧ state 0 = .init s
  steps : ∀ i < length, (state i).step S program (event i) = some (state (i + 1))

namespace Timeline

variable (R : Timeline S program start)

/-- The events that can be executed make a run. -/
def ofEvents (S : Store σ ω κ) (program : J → Prog σ ω Ans α) {start : σ → Prop} {s : σ}
    (hs : start s) (event : Nat → Event J Ans) (length : Nat)
    (h : ∀ i < length, ((after S program (.init s) event i).step S program (event i)).isSome) :
    Timeline S program start where
  length := length
  state := after S program (.init s) event
  event := event
  starts := ⟨s, hs, rfl⟩
  steps := by
    intro i hi
    obtain ⟨t, ht⟩ := Option.isSome_iff_exists.mp (h i hi)
    rw [ht, after, ht, Option.getD_some]

theorem reach {i : Nat} (hi : i ≤ R.length) :
    Reach S program (fun _ _ _ => True) start (R.state i) := by
  induction i with
  | zero =>
    obtain ⟨s, hs, h0⟩ := R.starts
    rw [h0]
    exact .init hs
  | succ i ih => exact .step (R.event i) (ih (by omega)) (R.steps i (by omega)) trivial

/-- What is true of the first system and survives every step is true at every moment. -/
theorem invariant {P : Nat → Prop} (h0 : P 0) (hstep : ∀ i < R.length, P i → P (i + 1)) {i : Nat}
    (hi : i ≤ R.length) : P i := by
  induction i with
  | zero => exact h0
  | succ i ih => exact hstep i (by omega) (ih (by omega))

/-- After a spawn there is one process more, which has done nothing. -/
theorem spawned {i pid : Nat} {j : J} {p : Proc J σ ω Ans α} (hi : i < R.length)
    (he : R.event i = .spawn j) (hp : (R.state (i + 1)).procs[pid]? = some p) :
    (R.state i).procs[pid]? = some p ∨ p = ⟨j, program j, .init (R.state i).store⟩ := by
  have hstep := R.steps i hi
  rw [he] at hstep
  rw [← Option.some.inj hstep, List.getElem?_append] at hp
  split at hp
  · exact Or.inl hp
  · exact Or.inr (List.mem_singleton.mp (List.mem_of_getElem? hp))

theorem spawned_store {i : Nat} {j : J} (hi : i < R.length) (he : R.event i = .spawn j) :
    (R.state (i + 1)).store = (R.state i).store := by
  have hstep := R.steps i hi
  rw [he] at hstep
  rw [← Option.some.inj hstep]

/-- A step leaves a process as it was unless it is the process that moves. -/
theorem other {i pid : Nat} {p : Proc J σ ω Ans α} (hi : i < R.length)
    (hp : (R.state i).procs[pid]? = some p) (hevent : ∀ ch, R.event i ≠ .move pid ch) :
    ∃ q, (R.state (i + 1)).procs[pid]? = some q ∧ q.job = p.job ∧ q.prog = p.prog ∧
      q.ctx.tx = p.ctx.tx := by
  have hstep := R.steps i hi
  cases he : R.event i with
  | spawn j =>
    rw [he] at hstep
    rw [← Option.some.inj hstep]
    exact ⟨p, (List.getElem?_append_left (List.getElem?_eq_some_iff.mp hp).1).trans hp, rfl, rfl, rfl⟩
  | move mover ch =>
    rw [he] at hstep
    obtain ⟨m, out, hm, -, -, hadvance⟩ := step_move hstep
    have hne : pid ≠ mover := by
      rintro rfl
      exact hevent ch he
    rw [hadvance]
    refine ⟨_, advance_other hne hp, Proc.watch_job p _, Proc.watch_prog p _, ?_⟩
    unfold Proc.watch
    split
    · rfl
    · exact Ctx.see_tx S p.ctx _

/-- A process that did not move was there before, unless it has just been started. -/
theorem unmoved {i pid : Nat} {q : Proc J σ ω Ans α} (hi : i < R.length)
    (hq : (R.state (i + 1)).procs[pid]? = some q) (hevent : ∀ ch, R.event i ≠ .move pid ch) :
    (∃ p, (R.state i).procs[pid]? = some p ∧ q.job = p.job ∧ q.prog = p.prog ∧
      q.ctx.tx = p.ctx.tx) ∨
    ∃ j, q = ⟨j, program j, .init (R.state i).store⟩ := by
  cases hold : (R.state i).procs[pid]? with
  | some p =>
    obtain ⟨q', hq', hsame⟩ := R.other hi hold hevent
    obtain rfl := Option.some.inj (hq'.symm.trans hq)
    exact Or.inl ⟨p, rfl, hsame⟩
  | none =>
    refine Or.inr ?_
    cases he : R.event i with
    | spawn j =>
      rcases R.spawned hi he hq with hp | hnew
      · rw [hold] at hp
        cases hp
      · exact ⟨j, hnew⟩
    | move mover ch =>
      have hstep := R.steps i hi
      rw [he] at hstep
      obtain ⟨m, out, hm, -, -, hadvance⟩ := step_move hstep
      rw [hadvance] at hq
      rcases advance_procs hm hq with ⟨rfl, -⟩ | ⟨-, p, hp, -⟩
      · exact absurd he (hevent ch)
      · rw [hold] at hp
        cases hp

/-- A process that is finished stays so. -/
theorem finished_stays {a b pid : Nat} {p : Proc J σ ω Ans α} (hb : b ≤ R.length) (hab : a ≤ b)
    (hp : (R.state a).procs[pid]? = some p) (hfin : p.prog.finished = true) :
    ∃ q, (R.state b).procs[pid]? = some q ∧ q.prog.finished = true := by
  induction hab with
  | refl => exact ⟨p, hp, hfin⟩
  | @step b hab ih =>
    obtain ⟨q, hq, hqfin⟩ := ih (by omega)
    have hevent : ∀ ch, R.event b ≠ .move pid ch := by
      intro ch he
      have hstep := R.steps b hb
      rw [he] at hstep
      obtain ⟨m, out, hm, hrun, -⟩ := step_move hstep
      obtain rfl := Option.some.inj (hm.symm.trans hq)
      rw [hqfin] at hrun
      cases hrun
    obtain ⟨r, hr, -, hprog, -⟩ := R.other hb hq hevent
    exact ⟨r, hr, by rw [hprog, hqfin]⟩

end Timeline

end Sys

end Transactions
