import Lopay.Transactions.Machine

/-!
# Rely–guarantee reasoning for database programs

A `Contract` says what a program may count on and what it owes. It may count on
its rely: between any two of its steps the environment only commits writes that
the rely allows and that touch no row the program has locked. It may also count on
the answers of the outside world, on when a statement can fail and on what the
scheduler lets it commit. It owes its guarantee on everything it commits, and a
condition on every request it makes.

`Prog.wp` is the weakest precondition under a contract. Since a program is a
well-founded tree, it is a plain recursion on it. The rules at the end of the file
are the ones program proofs use: one for each combinator of `Routine`, with
separate postconditions for a returned value and for a thrown error.
-/

namespace Transactions

variable {σ ω κ ι : Type} {Ans : ι → Type} {α β ε : Type}
variable {S : Store σ ω κ} {R : Ctx σ ω Ans → List ω → Prop}

/-! ### Interference -/

/-- The environment moves a program's context by committing writes that the rely
    allows and that need none of the program's locks. -/
inductive Drift (S : Store σ ω κ) (R : Ctx σ ω Ans → List ω → Prop) :
    Ctx σ ω Ans → Ctx σ ω Ans → Prop where
  | refl (x : Ctx σ ω Ans) : Drift S R x x
  | step {x y : Ctx σ ω Ans} (ws : List ω) : Drift S R x y → ws ≠ [] → R y ws →
      (∀ k ∈ S.locksOf ws, k ∉ y.locks S) → Drift S R x (y.see S ws)

namespace Drift

variable {x y z : Ctx σ ω Ans}

theorem trans (hxy : Drift S R x y) (hyz : Drift S R y z) : Drift S R x z := by
  induction hyz with
  | refl => exact hxy
  | step ws _ hne hR hfree ih => exact .step ws ih hne hR hfree

theorem tx_eq (h : Drift S R x y) : y.tx = x.tx := by
  induction h with
  | refl => rfl
  | step ws _ _ _ _ ih => rw [Ctx.see_tx, ih]

theorem log_eq (h : Drift S R x y) : y.log = x.log := by
  induction h with
  | refl => rfl
  | step ws _ _ _ _ ih => rw [Ctx.see_log, ih]

theorem ran_eq (h : Drift S R x y) : y.ran = x.ran := by
  induction h with
  | refl => rfl
  | step ws _ _ _ _ ih => rw [Ctx.see_ran, ih]

/-- What each commit keeps of the database, the others keep. -/
theorem keeps {D : σ → Prop} (h : Drift S R x y)
    (hR : ∀ u ws, u.tx = x.tx → u.ran = x.ran → R u ws → D u.now → D (S.applyAll ws u.now))
    (hx : D x.now) : D y.now := by
  induction h with
  | refl => exact hx
  | step ws hd _ hws _ ih =>
    rw [Ctx.see_now]
    exact hR _ ws hd.tx_eq hd.ran_eq hws ih

theorem pending_eq (h : Drift S R x y) : y.pending = x.pending := by
  rw [Ctx.pending, h.tx_eq, Ctx.pending]

theorem locks_eq (h : Drift S R x y) : y.locks S = x.locks S := by
  rw [Ctx.locks, h.pending_eq, Ctx.locks]

/-- A state that was seen stays in the history. -/
theorem seen_subset (h : Drift S R x y) : ∀ s ∈ x.seen, s ∈ y.seen := by
  induction h with
  | refl => exact fun _ hs => hs
  | step ws _ _ _ _ ih =>
    intro s hs
    cases ws with
    | nil => exact ih s hs
    | cons w ws => exact List.mem_cons_of_mem _ (ih s hs)

/-- Nothing drifts when the rely allows nothing. -/
theorem eq_of_isolated (h : Drift S (fun _ _ => False) x y) : y = x := by
  induction h with
  | refl => rfl
  | step _ _ _ hR _ _ => exact hR.elim

/-- A reflexive and transitive relation between committed states that every
    allowed commit respects relates the two ends of a drift. -/
theorem relates {P : σ → σ → Prop} (hrefl : ∀ s, P s s)
    (htrans : ∀ s t u, P s t → P t u → P s u)
    (hstep : ∀ y ws, R y ws → (∀ k ∈ S.locksOf ws, k ∉ y.locks S) →
      P y.now (S.applyAll ws y.now))
    (h : Drift S R x y) : P x.now y.now := by
  induction h with
  | refl => exact hrefl _
  | step ws _ _ hR hfree ih =>
    rw [Ctx.see_now]
    exact htrans _ _ _ ih (hstep _ ws hR hfree)

end Drift

/-- A reflexive and transitive relation that every allowed commit respects as
    long as it does not need the lock `k` relates the two ends of a drift during
    which `k` is held. -/
theorem Drift.relates_locked {P : σ → σ → Prop} {x y : Ctx σ ω Ans} {k : κ}
    (hk : k ∈ x.locks S) (hrefl : ∀ s, P s s)
    (htrans : ∀ s t u, P s t → P t u → P s u)
    (hstep : ∀ y ws, R y ws → k ∉ S.locksOf ws → P y.now (S.applyAll ws y.now))
    (h : Drift S R x y) : P x.now y.now := by
  induction h with
  | refl => exact hrefl _
  | step ws hxy _ hR hfree ih =>
    rw [Ctx.see_now]
    refine htrans _ _ _ ih (hstep _ ws hR ?_)
    intro hmem
    exact hfree k hmem (by rw [hxy.locks_eq]; exact hk)

/-- What a row lock protects: `agree k` relates states with the same row at `k`,
    and a write that does not take the lock keeps that row. -/
structure Store.Frame (S : Store σ ω κ) (agree : κ → σ → σ → Prop) : Prop where
  refl (k : κ) (s : σ) : agree k s s
  trans (k : κ) (s t u : σ) : agree k s t → agree k t u → agree k s u
  frame (k : κ) (w : ω) (s : σ) : k ∉ S.locks w → agree k s (S.apply w s)

namespace Store.Frame

variable {agree : κ → σ → σ → Prop}

theorem applyAll (hF : S.Frame agree) {k : κ} {ws : List ω} (s : σ)
    (h : k ∉ S.locksOf ws) : agree k s (S.applyAll ws s) := by
  induction ws generalizing s with
  | nil => exact hF.refl k s
  | cons w ws ih =>
    rw [Store.locksOf_cons, List.mem_append, not_or] at h
    exact hF.trans k _ _ _ (hF.frame k w s h.1) (ih _ h.2)

/-- A locked row does not move under interference. -/
theorem locked (hF : S.Frame agree) {x y : Ctx σ ω Ans} (h : Drift S R x y) {k : κ}
    (hk : k ∈ x.locks S) : agree k x.now y.now := by
  induction h with
  | refl => exact hF.refl k _
  | step ws hxy _ _ hfree ih =>
    rw [Ctx.see_now]
    refine hF.trans k _ _ _ ih (hF.applyAll _ ?_)
    intro hmem
    exact hfree k hmem (by rw [hxy.locks_eq]; exact hk)

end Store.Frame

/-! ### Weakest preconditions -/

/-- What a program may count on (`rely`, `answers`, `faults`, `admits`) and what it
    owes (`guarantee`, `asks`). -/
structure Contract (σ ω : Type) {ι : Type} (Ans : ι → Type) where
  rely : Ctx σ ω Ans → List ω → Prop
  answers : Ctx σ ω Ans → (c : ι) → Ans c → Prop
  faults : Ctx σ ω Ans → Prop
  admits : Ctx σ ω Ans → List ω → Prop
  guarantee : Ctx σ ω Ans → List ω → Prop
  asks : Ctx σ ω Ans → ι → Prop

namespace Contract

/-- The contract that counts on its rely only, and promises nothing about requests. -/
def plain (R G : Ctx σ ω Ans → List ω → Prop) : Contract σ ω Ans where
  rely := R
  answers := fun _ _ _ => True
  faults := fun _ => True
  admits := fun _ _ => True
  guarantee := G
  asks := fun _ _ => True

/-- `K` promises at least as much as `K'` and counts on no more. -/
structure Refines (K K' : Contract σ ω Ans) : Prop where
  rely : ∀ y ws, K'.rely y ws → K.rely y ws
  answers : ∀ y c a, K'.answers y c a → K.answers y c a
  faults : ∀ y, K'.faults y → K.faults y
  admits : ∀ y ws, K'.admits y ws → K.admits y ws
  guarantee : ∀ y ws, K.guarantee y ws → K'.guarantee y ws
  asks : ∀ y c, K.asks y c → K'.asks y c

end Contract

variable {K K' : Contract σ ω Ans}

/-- The program keeps its side of the contract and ends in the postcondition. -/
def Prog.wp (S : Store σ ω κ) (K : Contract σ ω Ans)
    (Q : α → Ctx σ ω Ans → Prop) : Prog σ ω Ans α → Ctx σ ω Ans → Prop
  | .ret a, x => Q a x
  | .call c k, x => ∀ y, Drift S K.rely x y →
      K.asks y c ∧ ∀ a, K.answers y c a → (k a).wp S K Q (y.answered c a)
  | .start k, x => ∀ y, Drift S K.rely x y → k.wp S K Q y.opened
  | .rollback k, x => ∀ y, Drift S K.rely x y → k.wp S K Q y.closed
  | .commit k, x => ∀ y, Drift S K.rely x y →
      (K.faults y → (k false).wp S K Q y.closed) ∧
      (y.pending ≠ [] → K.admits y y.pending → K.guarantee y y.pending) ∧
      ((y.pending ≠ [] → K.admits y y.pending) → (k true).wp S K Q (y.closed.see S y.pending))
  | .stmt w k, x => ∀ y, Drift S K.rely x y →
      (K.faults y → (k none).wp S K Q y.failed) ∧
      (y.released (w (y.view S)) ≠ [] → K.admits y (y.released (w (y.view S))) →
        K.guarantee y (y.released (w (y.view S)))) ∧
      ((y.released (w (y.view S)) ≠ [] → K.admits y (y.released (w (y.view S)))) →
        (k (some (y.view S))).wp S K Q (y.wrote S (w (y.view S))))

namespace Prog

variable {Q Q' : α → Ctx σ ω Ans → Prop} {x y : Ctx σ ω Ans}

/-- Interference does not invalidate the precondition of an unfinished program. -/
theorem wp_drift {p : Prog σ ω Ans α} (hp : p.finished = false) (hd : Drift S K.rely x y)
    (h : p.wp S K Q x) : p.wp S K Q y := by
  cases p with
  | ret a => cases hp
  | call c k => exact fun z hz => h z (hd.trans hz)
  | stmt w k => exact fun z hz => h z (hd.trans hz)
  | start k => exact fun z hz => h z (hd.trans hz)
  | commit k => exact fun z hz => h z (hd.trans hz)
  | rollback k => exact fun z hz => h z (hd.trans hz)

/-- A weaker contract and a weaker postcondition are met as well. -/
theorem wp_weaken {p : Prog σ ω Ans α} (hK : K.Refines K') (hQ : ∀ a z, Q a z → Q' a z)
    (h : p.wp S K Q x) : p.wp S K' Q' x := by
  have hdrift : ∀ {x y : Ctx σ ω Ans}, Drift S K'.rely x y → Drift S K.rely x y := by
    intro x y hd
    induction hd with
    | refl => exact .refl _
    | step ws _ hne hR hfree ih => exact .step ws ih hne (hK.rely _ ws hR) hfree
  induction p generalizing x with
  | ret a => exact hQ a x h
  | call c k ih =>
    intro y hy
    obtain ⟨hask, hans⟩ := h y (hdrift hy)
    exact ⟨hK.asks y c hask, fun a ha => ih a (hans a (hK.answers y c a ha))⟩
  | start k ih => exact fun y hy => ih (h y (hdrift hy))
  | rollback k ih => exact fun y hy => ih (h y (hdrift hy))
  | commit k ih =>
    intro y hy
    obtain ⟨hfail, hG, hok⟩ := h y (hdrift hy)
    exact ⟨fun hf => ih false (hfail (hK.faults y hf)),
      fun hne ha => hK.guarantee y _ (hG hne (hK.admits y _ ha)),
      fun ha => ih true (hok fun hne => hK.admits y _ (ha hne))⟩
  | stmt w k ih =>
    intro y hy
    obtain ⟨hfail, hG, hok⟩ := h y (hdrift hy)
    exact ⟨fun hf => ih none (hfail (hK.faults y hf)),
      fun hne ha => hK.guarantee y _ (hG hne (hK.admits y _ ha)),
      fun ha => ih _ (hok fun hne => hK.admits y _ (ha hne))⟩

theorem wp_mono {p : Prog σ ω Ans α} (hQ : ∀ a z, Q a z → Q' a z)
    (h : p.wp S K Q x) : p.wp S K Q' x :=
  wp_weaken ⟨fun _ _ h => h, fun _ _ _ h => h, fun _ h => h, fun _ _ h => h, fun _ _ h => h,
    fun _ _ h => h⟩ hQ h

theorem wp_bind {p : Prog σ ω Ans α} {f : α → Prog σ ω Ans β}
    {Q : β → Ctx σ ω Ans → Prop} :
    (p.bind f).wp S K Q x ↔ p.wp S K (fun a y => (f a).wp S K Q y) x := by
  induction p generalizing x with
  | ret a => exact Iff.rfl
  | call c k ih =>
    constructor
    · intro h y hy
      obtain ⟨hask, hans⟩ := h y hy
      exact ⟨hask, fun a ha => (ih a).mp (hans a ha)⟩
    · intro h y hy
      obtain ⟨hask, hans⟩ := h y hy
      exact ⟨hask, fun a ha => (ih a).mpr (hans a ha)⟩
  | start k ih =>
    constructor
    · exact fun h y hy => ih.mp (h y hy)
    · exact fun h y hy => ih.mpr (h y hy)
  | rollback k ih =>
    constructor
    · exact fun h y hy => ih.mp (h y hy)
    · exact fun h y hy => ih.mpr (h y hy)
  | commit k ih =>
    constructor
    · intro h y hy
      obtain ⟨hfail, hG, hok⟩ := h y hy
      exact ⟨fun hf => (ih false).mp (hfail hf), hG, fun ha => (ih true).mp (hok ha)⟩
    · intro h y hy
      obtain ⟨hfail, hG, hok⟩ := h y hy
      exact ⟨fun hf => (ih false).mpr (hfail hf), hG, fun ha => (ih true).mpr (hok ha)⟩
  | stmt w k ih =>
    constructor
    · intro h y hy
      obtain ⟨hfail, hG, hok⟩ := h y hy
      exact ⟨fun hf => (ih none).mp (hfail hf), hG, fun ha => (ih _).mp (hok ha)⟩
    · intro h y hy
      obtain ⟨hfail, hG, hok⟩ := h y hy
      exact ⟨fun hf => (ih none).mpr (hfail hf), hG, fun ha => (ih _).mpr (hok ha)⟩

/-- A program never forgets a state it has seen. -/
theorem wp_seen {p : Prog σ ω Ans α} (h : p.wp S K Q x) :
    p.wp S K (fun a y => Q a y ∧ ∀ s ∈ x.seen, s ∈ y.seen) x := by
  have hsee : ∀ (y : Ctx σ ω Ans) ws, ∀ s ∈ y.seen, s ∈ (y.see S ws).seen := by
    intro y ws s hs
    cases ws with
    | nil => exact hs
    | cons w ws => exact List.mem_cons_of_mem _ hs
  have hwrote : ∀ (y : Ctx σ ω Ans) ws, ∀ s ∈ y.seen, s ∈ (y.wrote S ws).seen := by
    intro y ws s hs
    unfold Ctx.wrote
    split
    · exact hsee _ ws s hs
    · exact hs
  have hmono : ∀ {p : Prog σ ω Ans α} {x y : Ctx σ ω Ans}, (∀ s ∈ x.seen, s ∈ y.seen) →
      p.wp S K (fun a z => Q a z ∧ ∀ s ∈ y.seen, s ∈ z.seen) y →
      p.wp S K (fun a z => Q a z ∧ ∀ s ∈ x.seen, s ∈ z.seen) y := by
    intro p x y hsub hp
    exact wp_mono (fun a z hz => ⟨hz.1, fun s hs => hz.2 s (hsub s hs)⟩) hp
  induction p generalizing x with
  | ret a => exact ⟨h, fun s hs => hs⟩
  | call c k ih =>
    intro y hy
    obtain ⟨hask, hans⟩ := h y hy
    exact ⟨hask, fun a ha => hmono hy.seen_subset (ih a (hans a ha))⟩
  | start k ih => exact fun y hy => hmono hy.seen_subset (ih (h y hy))
  | rollback k ih => exact fun y hy => hmono hy.seen_subset (ih (h y hy))
  | commit k ih =>
    intro y hy
    obtain ⟨hfail, hG, hok⟩ := h y hy
    refine ⟨fun hf => hmono hy.seen_subset (ih false (hfail hf)), hG,
      fun ha => hmono ?_ (ih true (hok ha))⟩
    exact fun s hs => hsee y.closed y.pending s (hy.seen_subset s hs)
  | stmt w k ih =>
    intro y hy
    obtain ⟨hfail, hG, hok⟩ := h y hy
    refine ⟨fun hf => hmono hy.seen_subset (ih none (hfail hf)), hG,
      fun ha => hmono ?_ (ih _ (hok ha))⟩
    exact fun s hs => hwrote y _ s (hy.seen_subset s hs)

end Prog

/-! ### Rules for routines -/

/-- The weakest precondition of a routine, with one postcondition for a returned
    value and one for a thrown error. -/
def Routine.wp (S : Store σ ω κ) (K : Contract σ ω Ans)
    (m : Routine σ ω Ans ε α) (ok : α → Ctx σ ω Ans → Prop) (err : ε → Ctx σ ω Ans → Prop)
    (x : Ctx σ ω Ans) : Prop :=
  m.run.wp S K (fun r y => match r with
    | .ok a => ok a y
    | .error e => err e y) x

namespace Routine

variable {m : Routine σ ω Ans ε α} {ok ok' : α → Ctx σ ω Ans → Prop}
  {err err' : ε → Ctx σ ω Ans → Prop} {x : Ctx σ ω Ans}

theorem wp_weaken (hK : K.Refines K') (hok : ∀ a y, ok a y → ok' a y)
    (herr : ∀ e y, err e y → err' e y) (h : m.wp S K ok err x) : m.wp S K' ok' err' x := by
  refine Prog.wp_weaken hK ?_ h
  intro r y hr
  cases r with
  | ok a => exact hok a y hr
  | error e => exact herr e y hr

theorem wp_mono (hok : ∀ a y, ok a y → ok' a y) (herr : ∀ e y, err e y → err' e y)
    (h : m.wp S K ok err x) : m.wp S K ok' err' x := by
  refine Prog.wp_mono ?_ h
  intro r y hr
  cases r with
  | ok a => exact hok a y hr
  | error e => exact herr e y hr

/-- What was true of a state seen before stays true of a state seen. -/
theorem wp_remember {V : σ → Prop} (hV : ∃ s ∈ x.seen, V s) (h : m.wp S K ok err x) :
    m.wp S K (fun a y => ok a y ∧ ∃ s ∈ y.seen, V s) err x := by
  obtain ⟨s, hs, hv⟩ := hV
  refine Prog.wp_mono ?_ (Prog.wp_seen h)
  rintro r y ⟨hr, hsub⟩
  cases r with
  | ok a => exact ⟨hr, s, hsub s hs, hv⟩
  | error e => exact hr

theorem wp_pure {a : α} (h : ok a x) :
    (pure a : Routine σ ω Ans ε α).wp S K ok err x := h

theorem wp_throw {e : ε} (h : err e x) :
    (throw e : Routine σ ω Ans ε α).wp S K ok err x := h

theorem wp_bind {f : α → Routine σ ω Ans ε β} {ok : β → Ctx σ ω Ans → Prop}
    (h : m.wp S K (fun a y => (f a).wp S K ok err y) err x) :
    (m >>= f).wp S K ok err x := by
  unfold Routine.wp at h ⊢
  rw [ExceptT.run_bind]
  refine Prog.wp_bind.mpr (Prog.wp_mono ?_ h)
  intro r y hr
  cases r with
  | ok a => exact hr
  | error e => exact hr

theorem wp_tryCatch {handler : ε → Routine σ ω Ans ε α}
    (h : m.wp S K ok (fun e y => (handler e).wp S K ok err y) x) :
    (tryCatch m handler).wp S K ok err x := by
  unfold Routine.wp at h ⊢
  refine Prog.wp_bind.mpr (Prog.wp_mono ?_ h)
  intro r y hr
  cases r with
  | ok a => exact hr
  | error e => exact hr

theorem wp_throwIf {c : Prop} [Decidable c] {e : ε} {ok : Unit → Ctx σ ω Ans → Prop}
    (hthrow : c → err e x) (hok : ¬ c → ok () x) :
    (throwIf c e : Routine σ ω Ans ε Unit).wp S K ok err x := by
  unfold throwIf
  by_cases hc : c
  · rw [if_pos hc]
    exact wp_throw (hthrow hc)
  · rw [if_neg hc]
    exact wp_pure (hok hc)

theorem wp_orThrow {o : Option α} {e : ε} (hnone : o = none → err e x)
    (hsome : ∀ a, o = some a → ok a x) :
    (orThrow o e : Routine σ ω Ans ε α).wp S K ok err x := by
  cases o with
  | none => exact wp_throw (hnone rfl)
  | some a => exact wp_pure (hsome a rfl)

theorem wp_onlyIf {c : Prop} [Decidable c] {m : Routine σ ω Ans ε Unit}
    {ok : Unit → Ctx σ ω Ans → Prop} (hpos : c → m.wp S K ok err x)
    (hneg : ¬ c → ok () x) : (onlyIf c m).wp S K ok err x := by
  unfold onlyIf
  by_cases hc : c
  · rw [if_pos hc]
    exact hpos hc
  · rw [if_neg hc]
    exact wp_pure (hneg hc)

theorem wp_ite {c : Prop} [Decidable c] {m n : Routine σ ω Ans ε α}
    (hpos : c → m.wp S K ok err x) (hneg : ¬ c → n.wp S K ok err x) :
    (if c then m else n).wp S K ok err x := by
  by_cases hc : c
  · rw [if_pos hc]
    exact hpos hc
  · rw [if_neg hc]
    exact hneg hc

/-- A loop: what every round keeps. -/
theorem wp_mapM {f : β → Routine σ ω Ans ε α} {l : List β} {P : Ctx σ ω Ans → Prop}
    {ok : List α → Ctx σ ω Ans → Prop} (hx : P x)
    (hf : ∀ b ∈ l, ∀ y, P y → (f b).wp S K (fun _ => P) err y)
    (h : ∀ as y, P y → ok as y) : (l.mapM f).wp S K ok err x := by
  induction l generalizing x ok with
  | nil => exact h [] x hx
  | cons b l ih =>
    rw [List.mapM_cons]
    refine wp_bind (wp_mono (fun a y hy => ?_) (fun _ _ hy => hy)
      (hf b List.mem_cons_self x hx))
    refine wp_bind (ih hy (fun b' hb' => hf b' (List.mem_cons_of_mem b hb')) ?_)
    exact fun as z hz => wp_pure (h _ z hz)

/-- A request: its obligation holds where it is made, and any answer the contract
    admits may come. -/
theorem wp_ask {c : ι} {ok : Ans c → Ctx σ ω Ans → Prop}
    (h : ∀ y, Drift S K.rely x y →
      K.asks y c ∧ ∀ a, K.answers y c a → ok a (y.answered c a)) :
    (ask c : Routine σ ω Ans ε (Ans c)).wp S K ok err x := h

/-- A statement: it may fail; it may throw after reading its view; or it writes. -/
theorem wp_exec {fault : ε} {f : σ → Except ε (α × List ω)}
    (h : ∀ y, Drift S K.rely x y →
      (K.faults y → err fault y.failed) ∧
      (∀ e, f (y.view S) = .error e → err e (y.wrote S [])) ∧
      ∀ a ws, f (y.view S) = .ok (a, ws) →
        (y.released ws ≠ [] → K.admits y (y.released ws) → K.guarantee y (y.released ws)) ∧
        ((y.released ws ≠ [] → K.admits y (y.released ws)) → ok a (y.wrote S ws))) :
    (exec fault f).wp S K ok err x := by
  intro y hy
  obtain ⟨hfault, herr, hok⟩ := h y hy
  refine ⟨hfault, ?_⟩
  cases hf : f (y.view S) with
  | error e =>
    simp only [hf, Ctx.released_nil]
    exact ⟨fun hne => absurd rfl hne, fun _ => herr e hf⟩
  | ok r =>
    obtain ⟨a, ws⟩ := r
    simp only [hf]
    exact hok a ws hf

/-- A statement that goes well is counted. -/
theorem wp_exec_counted {fault : ε} {f : σ → Except ε (α × List ω)}
    (h : (exec fault f).wp S K (fun a y => y.ran = x.ran + 1 → ok a y) err x) :
    (exec fault f).wp S K ok err x := by
  intro y hy
  obtain ⟨hfault, hG, hok⟩ := h y hy
  refine ⟨hfault, hG, fun hadmits => ?_⟩
  have hend := hok hadmits
  cases hf : f (y.view S) with
  | error e =>
    simp only [hf] at hend ⊢
    exact hend
  | ok r =>
    simp only [hf] at hend ⊢
    exact hend (by rw [Ctx.wrote_ran, hy.ran_eq])

/-- A read neither writes nor throws by itself. -/
theorem wp_query {fault : ε} {q : σ → α}
    (h : ∀ y, Drift S K.rely x y →
      (K.faults y → err fault y.failed) ∧ ok (q (y.view S)) (y.wrote S [])) :
    (query fault q).wp S K ok err x := by
  refine wp_exec fun y hy => ?_
  obtain ⟨hfault, hok⟩ := h y hy
  refine ⟨hfault, ?_, ?_⟩
  · intro e he
    cases he
  intro a ws hr
  obtain ⟨rfl, rfl⟩ := Prod.mk.inj (Except.ok.inj hr)
  rw [Ctx.released_nil]
  exact ⟨fun hne => absurd rfl hne, fun _ => hok⟩

/-- A transaction: the body runs with the transaction open, an error rolls it
    back, and on success what it wrote is committed at once. -/
theorem wp_transaction {fault : ε} {body : Routine σ ω Ans ε α}
    (h : ∀ y, Drift S K.rely x y → body.wp S K
      (fun a z => ∀ u, Drift S K.rely z u →
        (K.faults u → err fault u.closed) ∧
        (u.pending ≠ [] → K.admits u u.pending → K.guarantee u u.pending) ∧
        ((u.pending ≠ [] → K.admits u u.pending) → ok a (u.closed.see S u.pending)))
      (fun e z => ∀ u, Drift S K.rely z u → err e u.closed) y.opened) :
    (transaction fault body).wp S K ok err x := by
  intro y hy
  refine Prog.wp_bind.mpr (Prog.wp_mono ?_ (h y hy))
  intro r z hr
  cases r with
  | ok a => exact hr
  | error e => exact hr

end Routine

end Transactions
