import Lopay.Transactions.Soundness

/-!
# What a program can do

The dual of the weakest precondition for a program that runs alone: `Prog.can` asks for
one execution that ends in the postcondition instead of all of them. It shows that a
condition is necessary where a weakest precondition shows that it is enough.
-/

namespace Transactions

variable {σ ω κ ι : Type} {Ans : ι → Type} {α β ε : Type}
variable {S : Store σ ω κ}

/-- Some execution of the program alone ends in the postcondition. -/
def Prog.can (S : Store σ ω κ) (Q : α → Ctx σ ω Ans → Prop) :
    Prog σ ω Ans α → Ctx σ ω Ans → Prop
  | .ret a, x => Q a x
  | .call c k, x => ∃ a, (k a).can S Q (x.answered c a)
  | .start k, x => k.can S Q x.opened
  | .rollback k, x => k.can S Q x.closed
  | .commit k, x => (k false).can S Q x.closed ∨
      (k true).can S Q (x.closed.see S x.pending)
  | .stmt w k, x => (k none).can S Q x.failed ∨
      (k (some (x.view S))).can S Q (x.wrote S (w (x.view S)))

namespace Prog

variable {Q Q' : α → Ctx σ ω Ans → Prop} {x : Ctx σ ω Ans}

/-- An execution that can be had is had under some choices. -/
theorem alone_of_can (d : Choice Ans) {p : Prog σ ω Ans α} (h : p.can S Q x) :
    ∃ ch, Q (p.alone S ch x).1 (p.alone S ch x).2 := by
  classical
  -- The first choice, then the choices of the rest.
  let after (c : Choice Ans) (ch : Nat → Choice Ans) (n : Nat) : Choice Ans :=
    n.casesOn c ch
  induction p generalizing x with
  | ret a => exact ⟨fun _ => d, h⟩
  | call c k ih =>
    obtain ⟨a, ha⟩ := h
    obtain ⟨ch, hch⟩ := ih a ha
    refine ⟨after ⟨false, Function.update d.answer c a⟩ ch, ?_⟩
    let answer := Function.update d.answer c a
    have hanswer : answer c = a := Function.update_self c a d.answer
    change Q ((k (answer c)).alone S ch (x.answered c (answer c))).1
      ((k (answer c)).alone S ch (x.answered c (answer c))).2
    rw [hanswer]
    exact hch
  | start k ih =>
    obtain ⟨ch, hch⟩ := ih h
    exact ⟨after d ch, hch⟩
  | rollback k ih =>
    obtain ⟨ch, hch⟩ := ih h
    exact ⟨after d ch, hch⟩
  | commit k ih =>
    rcases h with h | h
    · obtain ⟨ch, hch⟩ := ih false h
      exact ⟨after ⟨true, d.answer⟩ ch, hch⟩
    · obtain ⟨ch, hch⟩ := ih true h
      exact ⟨after ⟨false, d.answer⟩ ch, hch⟩
  | stmt w k ih =>
    rcases h with h | h
    · obtain ⟨ch, hch⟩ := ih none h
      exact ⟨after ⟨true, d.answer⟩ ch, hch⟩
    · obtain ⟨ch, hch⟩ := ih _ h
      exact ⟨after ⟨false, d.answer⟩ ch, hch⟩

theorem can_bind {p : Prog σ ω Ans α} {f : α → Prog σ ω Ans β} {Q : β → Ctx σ ω Ans → Prop}
    (h : p.can S (fun a y => (f a).can S Q y) x) : (p.bind f).can S Q x := by
  induction p generalizing x with
  | ret a => exact h
  | call c k ih =>
    obtain ⟨a, ha⟩ := h
    exact ⟨a, ih a ha⟩
  | start k ih => exact ih h
  | rollback k ih => exact ih h
  | commit k ih =>
    rcases h with h | h
    · exact Or.inl (ih false h)
    · exact Or.inr (ih true h)
  | stmt w k ih =>
    rcases h with h | h
    · exact Or.inl (ih none h)
    · exact Or.inr (ih _ h)

theorem can_mono {p : Prog σ ω Ans α} (hQ : ∀ a y, Q a y → Q' a y) (h : p.can S Q x) :
    p.can S Q' x := by
  induction p generalizing x with
  | ret a => exact hQ a x h
  | call c k ih =>
    obtain ⟨a, ha⟩ := h
    exact ⟨a, ih a ha⟩
  | start k ih => exact ih h
  | rollback k ih => exact ih h
  | commit k ih =>
    rcases h with h | h
    · exact Or.inl (ih false h)
    · exact Or.inr (ih true h)
  | stmt w k ih =>
    rcases h with h | h
    · exact Or.inl (ih none h)
    · exact Or.inr (ih _ h)

/-- A program can end without having committed anything more. -/
theorem can_idle (d : Choice Ans) {p : Prog σ ω Ans α} :
    p.can S (fun _ y => y.now = x.now) x := by
  induction p generalizing x with
  | ret a => exact rfl
  | call c k ih => exact ⟨d.answer c, ih (x := x.answered c _) _⟩
  | start k ih => exact ih (x := x.opened)
  | rollback k ih => exact ih (x := x.closed)
  | commit k ih => exact Or.inl (ih (x := x.closed) false)
  | stmt w k ih => exact Or.inl (ih (x := x.failed) none)

end Prog

/-- Some execution of the routine alone returns a value and ends in the postcondition. -/
def Routine.can (S : Store σ ω κ) (m : Routine σ ω Ans ε α) (ok : α → Ctx σ ω Ans → Prop)
    (x : Ctx σ ω Ans) : Prop :=
  m.run.can S (fun r y => ∃ a, r = .ok a ∧ ok a y) x

namespace Routine

variable {m : Routine σ ω Ans ε α} {ok : α → Ctx σ ω Ans → Prop} {x : Ctx σ ω Ans}

theorem can_pure {a : α} (h : ok a x) : (pure a : Routine σ ω Ans ε α).can S ok x := ⟨a, rfl, h⟩

/-- What the rest does is left open. -/
theorem can_run_bind {f : α → Routine σ ω Ans ε β} {Q : Except ε β → Ctx σ ω Ans → Prop}
    (h : m.can S (fun a y => (f a).run.can S Q y) x) : (m >>= f).run.can S Q x := by
  unfold Routine.can at h
  rw [ExceptT.run_bind]
  refine Prog.can_bind (Prog.can_mono ?_ h)
  rintro _ y ⟨a, rfl, ha⟩
  exact ha

theorem can_bind {f : α → Routine σ ω Ans ε β} {ok : β → Ctx σ ω Ans → Prop}
    (h : m.can S (fun a y => (f a).can S ok y) x) : (m >>= f).can S ok x := can_run_bind h

theorem can_throwIf {c : Prop} [Decidable c] {e : ε} {ok : Unit → Ctx σ ω Ans → Prop}
    (hc : ¬ c) (h : ok () x) : (throwIf c e : Routine σ ω Ans ε Unit).can S ok x := by
  unfold throwIf
  rw [if_neg hc]
  exact can_pure h

theorem can_orThrow {o : Option α} {a : α} {e : ε} (ho : o = some a) (h : ok a x) :
    (orThrow o e : Routine σ ω Ans ε α).can S ok x := by
  subst ho
  exact can_pure h

theorem can_onlyIf {c : Prop} [Decidable c] {m : Routine σ ω Ans ε Unit}
    {ok : Unit → Ctx σ ω Ans → Prop} (hc : c) (h : m.can S ok x) : (onlyIf c m).can S ok x := by
  unfold onlyIf
  rw [if_pos hc]
  exact h

theorem can_skip {c : Prop} [Decidable c] {m : Routine σ ω Ans ε Unit}
    {ok : Unit → Ctx σ ω Ans → Prop} (hc : ¬ c) (h : ok () x) : (onlyIf c m).can S ok x := by
  unfold onlyIf
  rw [if_neg hc]
  exact can_pure h

theorem can_ask {c : ι} {ok : Ans c → Ctx σ ω Ans → Prop} (a : Ans c)
    (h : ok a (x.answered c a)) : (ask c : Routine σ ω Ans ε (Ans c)).can S ok x :=
  ⟨a, a, rfl, h⟩

theorem can_exec {fault : ε} {f : σ → Except ε (α × List ω)} {a : α} {ws : List ω}
    (hf : f (x.view S) = .ok (a, ws)) (h : ok a (x.wrote S ws)) :
    (exec fault f).can S ok x := by
  refine Or.inr ⟨a, ?_, ?_⟩
  · simp only [hf]
  · simp only [hf]
    exact h

theorem can_query {fault : ε} {q : σ → α} (h : ok (q (x.view S)) (x.wrote S [])) :
    (query fault q).can S ok x := can_exec rfl h

theorem can_transaction {fault : ε} {body : Routine σ ω Ans ε α}
    (h : body.can S (fun a z => ok a (z.closed.see S z.pending)) x.opened) :
    (transaction fault body).can S ok x := by
  refine Prog.can_bind (Prog.can_mono ?_ h)
  rintro _ z ⟨a, rfl, ha⟩
  exact Or.inr ⟨a, rfl, ha⟩

end Routine

end Transactions
