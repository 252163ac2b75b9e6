import Lopay.Transactions.Alone

/-!
# Runs that nothing disturbs

A program that runs with nobody beside it and none of whose statements fails sees what it has
written and nothing else. What it ends in is then decided by the state it starts on and by
what it is answered, so a postcondition that tells its results apart says exactly when it
succeeds.
-/

namespace Transactions

variable {σ ω κ ι : Type} {Ans : ι → Type} {α β ε : Type} {S : Store σ ω κ}

/-- The contract of a program with nobody beside it whose statements all go through. -/
def undisturbed : Contract σ ω Ans where
  rely := isolated
  answers := fun _ _ _ => True
  faults := fun _ => False
  admits := fun _ _ => True
  guarantee := fun _ _ => True
  asks := fun _ _ => True

variable {x : Ctx σ ω Ans} {s : σ} {v : Option σ}

/-- The contract of such a program when its requests are answered as `A` says. -/
def hearing (A : (c : ι) → Ans c → Prop) : Contract σ ω Ans where
  rely := isolated
  answers := fun _ => A
  faults := fun _ => False
  admits := fun _ _ => True
  guarantee := fun _ _ => True
  asks := fun _ _ => True

theorem Prog.alone_hearing {A : (c : ι) → Ans c → Prop} {Q : α → Ctx σ ω Ans → Prop}
    {p : Prog σ ω Ans α} {ch : Nat → Choice Ans} (hch : ∀ n, (ch n).fault = false)
    (hA : ∀ n c, A c ((ch n).answer c)) (h : p.wp S (hearing A) Q x) :
    Q (p.alone S ch x).1 (p.alone S ch x).2 := by
  induction p generalizing x ch with
  | ret a => exact h
  | call c k ih =>
    exact ih _ (fun n => hch (n + 1)) (fun n => hA (n + 1)) ((h x (.refl x)).2 _ (hA 0 c))
  | start k ih => exact ih (fun n => hch (n + 1)) (fun n => hA (n + 1)) (h x (.refl x))
  | rollback k ih => exact ih (fun n => hch (n + 1)) (fun n => hA (n + 1)) (h x (.refl x))
  | commit k ih =>
    have hnext := (h x (.refl x)).2.2 fun _ => trivial
    rw [Prog.alone, if_neg (by simp [hch 0])]
    exact ih true (fun n => hch (n + 1)) (fun n => hA (n + 1)) hnext
  | stmt w k ih =>
    have hnext := (h x (.refl x)).2.2 fun _ => trivial
    rw [Prog.alone, if_neg (by simp [hch 0])]
    exact ih _ (fun n => hch (n + 1)) (fun n => hA (n + 1)) hnext

/-- What holds whatever is answered holds for these answers. -/
theorem undisturbed_refines (A : (c : ι) → Ans c → Prop) :
    (undisturbed : Contract σ ω Ans).Refines (hearing A) :=
  ⟨fun _ _ h => h, fun _ _ _ _ => trivial, fun _ h => h, fun _ _ h => h, fun _ _ h => h,
    fun _ _ h => h⟩

theorem Prog.alone_undisturbed {Q : α → Ctx σ ω Ans → Prop} {p : Prog σ ω Ans α}
    {ch : Nat → Choice Ans} (hch : ∀ n, (ch n).fault = false) (h : p.wp S undisturbed Q x) :
    Q (p.alone S ch x).1 (p.alone S ch x).2 :=
  Prog.alone_hearing (A := fun _ _ => True) hch (fun _ _ => trivial)
    (Prog.wp_weaken (undisturbed_refines _) (fun _ _ hQ => hQ) h)

/-- The program has come to the committed state `s`, and sees `v` if a transaction is open. -/
def Ctx.On (S : Store σ ω κ) (s : σ) (v : Option σ) (x : Ctx σ ω Ans) : Prop :=
  match v with
  | none => x.Outside s
  | some v => x.Inside S s v

namespace Ctx.On

theorem init (s : σ) : (init s : Ctx σ ω Ans).On S s none := ⟨rfl, rfl⟩

theorem now (h : x.On S s v) : x.now = s := by
  cases v with
  | none => exact Outside.now h
  | some v => exact Inside.now h

theorem view (h : x.On S s v) : x.view S = v.getD s := by
  cases v with
  | none => exact Outside.view h
  | some v => exact Inside.view h

theorem answered (h : x.On S s v) (c : ι) (a : Ans c) : (x.answered c a).On S s v := by
  cases v with
  | none =>
    obtain ⟨hnow, htx⟩ := h
    exact ⟨hnow, htx⟩
  | some v =>
    obtain ⟨hnow, htx⟩ := h
    exact ⟨hnow, htx⟩

theorem wrote_nil (h : x.On S s v) : (x.wrote S []).On S s v := by
  cases v with
  | none => exact Outside.wrote h []
  | some v => exact Inside.wrote h []

end Ctx.On

/-! ### Step by step -/

theorem Routine.alone_ask_bind {c : ι} {f : Ans c → Routine σ ω Ans ε α} {ch : Nat → Choice Ans} :
    ((ask c >>= f : Routine σ ω Ans ε α).run.alone S ch x) =
      (f ((ch 0).answer c)).run.alone S (fun n => ch (n + 1)) (x.answered c ((ch 0).answer c)) :=
  rfl

theorem Routine.alone_query_bind {fault : ε} {q : σ → β} {f : β → Routine σ ω Ans ε α}
    {ch : Nat → Choice Ans} (hch : (ch 0).fault = false) :
    ((query fault q >>= f : Routine σ ω Ans ε α).run.alone S ch x) =
      (f (q (x.view S))).run.alone S (fun n => ch (n + 1)) (x.wrote S []) := by
  change (if (ch 0).fault then _ else _) = _
  rw [if_neg (by simp [hch])]
  rfl

theorem Prog.alone_stmt_bind {w : σ → List ω} {r : Option σ → α} {f : α → Prog σ ω Ans β}
    {ch : Nat → Choice Ans} :
    ((Prog.stmt w fun v => .ret (r v)).bind f).alone S ch x =
      if (ch 0).fault then (f (r none)).alone S (fun n => ch (n + 1)) x.failed
      else (f (r (some (x.view S)))).alone S (fun n => ch (n + 1)) (x.wrote S (w (x.view S))) :=
  rfl

theorem Prog.alone_bind_ret (f : α → β) {p : Prog σ ω Ans α} {ch : Nat → Choice Ans} :
    (p.bind fun a => .ret (f a)).alone S ch x = (f (p.alone S ch x).1, (p.alone S ch x).2) := by
  induction p generalizing x ch with
  | ret a => rfl
  | call c k ih => exact ih _
  | start k ih => exact ih
  | rollback k ih => exact ih
  | commit k ih =>
    simp only [Prog.bind, Prog.alone]
    split
    · exact ih false
    · exact ih true
  | stmt w k ih =>
    simp only [Prog.bind, Prog.alone]
    split
    · exact ih none
    · exact ih _

/-- The choices that are left when the program has ended. -/
def Prog.rest (S : Store σ ω κ) :
    Prog σ ω Ans α → (Nat → Choice Ans) → Ctx σ ω Ans → Nat → Choice Ans
  | .ret _, ch, _ => ch
  | .call c k, ch, x =>
    (k ((ch 0).answer c)).rest S (fun n => ch (n + 1)) (x.answered c ((ch 0).answer c))
  | .start k, ch, x => k.rest S (fun n => ch (n + 1)) x.opened
  | .rollback k, ch, x => k.rest S (fun n => ch (n + 1)) x.closed
  | .commit k, ch, x =>
    if (ch 0).fault then (k false).rest S (fun n => ch (n + 1)) x.closed
    else (k true).rest S (fun n => ch (n + 1)) (x.closed.see S x.pending)
  | .stmt w k, ch, x =>
    if (ch 0).fault then (k none).rest S (fun n => ch (n + 1)) x.failed
    else (k (some (x.view S))).rest S (fun n => ch (n + 1)) (x.wrote S (w (x.view S)))

/-- What comes after a part of a program takes up the choices that the part has left. -/
theorem Prog.alone_bind {p : Prog σ ω Ans α} {f : α → Prog σ ω Ans β} {ch : Nat → Choice Ans} :
    (p.bind f).alone S ch x =
      (f (p.alone S ch x).1).alone S (p.rest S ch x) (p.alone S ch x).2 := by
  induction p generalizing x ch with
  | ret a => rfl
  | call c k ih => exact ih _
  | start k ih => exact ih
  | rollback k ih => exact ih
  | commit k ih =>
    simp only [Prog.bind, Prog.alone, Prog.rest]
    split
    · exact ih false
    · exact ih true
  | stmt w k ih =>
    simp only [Prog.bind, Prog.alone, Prog.rest]
    split
    · exact ih none
    · exact ih _

/-- What follows is not reached after an error. -/
theorem Routine.alone_bind_error {m : Routine σ ω Ans ε α} {f : α → Routine σ ω Ans ε β}
    {ch : Nat → Choice Ans} {e : ε} (h : (m.run.alone S ch x).1 = .error e) :
    ((m >>= f).run.alone S ch x).1 = .error e := by
  change (Prog.alone S (m.run.bind _) ch x).1 = _
  rw [Prog.alone_bind, h]
  rfl

/-- What ends in a throw does not return. -/
theorem Routine.alone_bind_throw {m : Routine σ ω Ans ε α} {ch : Nat → Choice Ans} {e : ε} :
    ∃ e', ((m >>= fun _ => throw e : Routine σ ω Ans ε β).run.alone S ch x).1 = .error e' := by
  cases h : (m.run.alone S ch x).1 with
  | ok a =>
    refine ⟨e, ?_⟩
    change (Prog.alone S (m.run.bind _) ch x).1 = _
    rw [Prog.alone_bind, h]
    rfl
  | error e' => exact ⟨e', alone_bind_error h⟩

theorem Routine.alone_tryCatch_error {m : Routine σ ω Ans ε α} {handler : ε → Routine σ ω Ans ε α}
    {ch : Nat → Choice Ans} {e : ε} (h : (m.run.alone S ch x).1 = .error e) :
    (tryCatch m handler).run.alone S ch x =
      (handler e).run.alone S (m.run.rest S ch x) (m.run.alone S ch x).2 := by
  change Prog.alone S (m.run.bind _) ch x = _
  rw [Prog.alone_bind, h]
  rfl

/-- What is made of the result does not change what has been done. -/
theorem Routine.alone_map (f : α → β) {m : Routine σ ω Ans ε α} {ch : Nat → Choice Ans} :
    ((f <$> m).run.alone S ch x).2 = (m.run.alone S ch x).2 := by
  have hmap : (f <$> m).run = m.run.bind fun r => .ret (f <$> r) := by
    refine congrArg m.run.bind (funext fun r => ?_)
    cases r with
    | ok a => rfl
    | error e => rfl
  rw [hmap, Prog.alone_bind_ret]

/-! ### Rules -/

namespace Routine

variable {m : Routine σ ω Ans ε α} {ok : α → Ctx σ ω Ans → Prop} {err : ε → Ctx σ ω Ans → Prop}

/-- The precondition of a routine that runs undisturbed. -/
abbrev smooth (m : Routine σ ω Ans ε α) (S : Store σ ω κ) (ok : α → Ctx σ ω Ans → Prop)
    (err : ε → Ctx σ ω Ans → Prop) (x : Ctx σ ω Ans) : Prop :=
  m.wp S undisturbed ok err x

theorem smooth_ask (h : x.On S s v) {c : ι} {ok : Ans c → Ctx σ ω Ans → Prop}
    (hok : ∀ a y, y.On S s v → ok a y) :
    (ask c : Routine σ ω Ans ε (Ans c)).smooth S ok err x := by
  apply wp_ask
  intro y hd
  obtain rfl := hd.eq_of_isolated
  exact ⟨trivial, fun a _ => hok a _ (h.answered c a)⟩

theorem smooth_query (h : x.On S s v) {fault : ε} {q : σ → α}
    (hok : ∀ y, y.On S s v → ok (q (v.getD s)) y) :
    (query fault q : Routine σ ω Ans ε α).smooth S ok err x := by
  apply wp_query
  intro y hd
  obtain rfl := hd.eq_of_isolated
  rw [h.view]
  exact ⟨fun hf => hf.elim, hok _ h.wrote_nil⟩

theorem smooth_inside {w : σ} (h : x.On S s (some w)) {fault : ε}
    {f : σ → Except ε (α × List ω)}
    (hok : ∀ a ws y, f w = .ok (a, ws) → y.On S s (some (S.applyAll ws w)) → ok a y)
    (herr : ∀ e y, f w = .error e → y.On S s (some w) → err e y) :
    (exec fault f : Routine σ ω Ans ε α).smooth S ok err x := by
  apply wp_exec
  intro y hd
  obtain rfl := hd.eq_of_isolated
  rw [h.view]
  refine ⟨fun hf => hf.elim, fun e he => herr e _ he h.wrote_nil, fun a ws hf =>
    ⟨fun _ _ => trivial, fun _ => hok a ws _ hf (Ctx.Inside.wrote h ws)⟩⟩

theorem smooth_outside (h : x.On S s none) {fault : ε} {f : σ → Except ε (α × List ω)}
    (hok : ∀ a ws y, f s = .ok (a, ws) → y.On S (S.applyAll ws s) none → ok a y)
    (herr : ∀ e y, f s = .error e → y.On S s none → err e y) :
    (exec fault f : Routine σ ω Ans ε α).smooth S ok err x := by
  apply wp_exec
  intro y hd
  obtain rfl := hd.eq_of_isolated
  rw [h.view]
  refine ⟨fun hf => hf.elim, fun e he => herr e _ he h.wrote_nil, fun a ws hf =>
    ⟨fun _ _ => trivial, fun _ => hok a ws _ hf (Ctx.Outside.wrote h ws)⟩⟩

/-- What the transaction has come to see is committed, or nothing is. -/
theorem smooth_transaction (h : x.On S s none) {fault : ε} {body : Routine σ ω Ans ε α}
    (hbody : ∀ y, y.On S s (some s) → body.smooth S
      (fun a z => ∃ v, z.On S s (some v) ∧ ∀ u, u.On S v none → ok a u)
      (fun e z => (∃ v, z.On S s (some v)) ∧ ∀ u, u.On S s none → err e u) y) :
    (transaction fault body).smooth S ok err x := by
  apply wp_transaction
  intro y hd
  obtain rfl := hd.eq_of_isolated
  refine wp_mono ?_ ?_ (hbody _ ⟨h.now, [], rfl, rfl⟩)
  · rintro a z ⟨v, hz, hok⟩ u hd
    obtain rfl := hd.eq_of_isolated
    obtain ⟨hnow, pending, htx, rfl⟩ := hz
    have hpending : u.pending = pending := by
      rw [Ctx.pending, htx]
      rfl
    rw [hpending]
    refine ⟨fun hf => hf.elim, fun _ _ => trivial, fun _ => hok _ ⟨?_, ?_⟩⟩
    · rw [Ctx.see_now]
      exact congrArg _ hnow
    · rw [Ctx.see_tx]
      rfl
  · rintro e z ⟨⟨v, hz⟩, herr⟩ u hd
    obtain rfl := hd.eq_of_isolated
    exact herr _ ⟨hz.now, rfl⟩

end Routine

end Transactions
