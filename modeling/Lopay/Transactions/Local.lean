import Lopay.Transactions.Soundness

/-!
# Statement by statement

A program logic for laws that hold whatever else commits: a program obeys `L` if each of
its statements does, whatever view it runs on. Nothing needs to be known about the
processes beside it. What a transaction writes is seen when it commits only, but the rows
it has written are locked until then; so the commit does what its statements would do if
they ran then, as far as the rows they write are concerned. `Replays` says so, and
`Sys.Reach.obeys` that it is so in every interleaving. A law about single rows that
composes is then a law about commits, `Replays.law`.
-/

namespace Transactions

variable {σ ω κ ι J : Type} {Ans : ι → Type} {α β ε : Type}

/-- What a program has learned and done: the answers of the outside world, the committed
    states that its statements outside any transaction ran on, and the statements of the
    open transaction, each with its view. -/
structure Trace (σ ω : Type) {ι : Type} (Ans : ι → Type) where
  log : List (Sigma Ans)
  read : List σ
  inside : Bool
  done : List (σ × List ω)

namespace Trace

/-- Nothing has been learned. -/
def nil : Trace σ ω Ans := ⟨[], [], false, []⟩

def answered (τ : Trace σ ω Ans) (c : ι) (a : Ans c) : Trace σ ω Ans :=
  { τ with log := ⟨c, a⟩ :: τ.log }

/-- A statement ran on the view `v` and wrote `ws`. -/
def ran (τ : Trace σ ω Ans) (v : σ) (ws : List ω) : Trace σ ω Ans :=
  if τ.inside then { τ with done := τ.done ++ [(v, ws)] } else { τ with read := v :: τ.read }

def opened (τ : Trace σ ω Ans) : Trace σ ω Ans := { τ with inside := true, done := [] }

def closed (τ : Trace σ ω Ans) : Trace σ ω Ans := { τ with inside := false, done := [] }

/-- Everything that has been learned in `τ` has been in `τ'`. -/
structure Within (τ τ' : Trace σ ω Ans) : Prop where
  log : ∀ a ∈ τ.log, a ∈ τ'.log
  read : ∀ s ∈ τ.read, s ∈ τ'.read

namespace Within

variable {τ τ' τ'' : Trace σ ω Ans}

theorem refl (τ : Trace σ ω Ans) : τ.Within τ := ⟨fun _ h => h, fun _ h => h⟩

theorem trans (h : τ.Within τ') (h' : τ'.Within τ'') : τ.Within τ'' :=
  ⟨fun a ha => h'.log a (h.log a ha), fun s hs => h'.read s (h.read s hs)⟩

theorem answered (τ : Trace σ ω Ans) (c : ι) (a : Ans c) : τ.Within (τ.answered c a) :=
  ⟨fun _ h => List.mem_cons_of_mem _ h, fun _ h => h⟩

theorem ran (τ : Trace σ ω Ans) (v : σ) (ws : List ω) : τ.Within (τ.ran v ws) := by
  unfold Trace.ran
  split
  · exact ⟨fun _ h => h, fun _ h => h⟩
  · exact ⟨fun _ h => h, fun _ h => List.mem_cons_of_mem _ h⟩

end Within

@[simp] theorem ran_log (τ : Trace σ ω Ans) (v : σ) (ws : List ω) :
    (τ.ran v ws).log = τ.log := by
  unfold ran
  split <;> rfl

@[simp] theorem ran_inside (τ : Trace σ ω Ans) (v : σ) (ws : List ω) :
    (τ.ran v ws).inside = τ.inside := by
  unfold ran
  split <;> rfl

theorem ran_outside {τ : Trace σ ω Ans} (h : τ.inside = false) (v : σ) (ws : List ω) :
    τ.ran v ws = { τ with read := v :: τ.read } := by
  simp [ran, h]

theorem ran_within {τ : Trace σ ω Ans} (h : τ.inside = true) (v : σ) (ws : List ω) :
    τ.ran v ws = { τ with done := τ.done ++ [(v, ws)] } := by
  simp [ran, h]

end Trace

/-! ### Programs whose statements obey a law -/

/-- Every statement of the program obeys `L`, whatever it runs on and whatever it is
    answered, and the program ends in the postcondition. -/
def Prog.obeys (L : Trace σ ω Ans → σ → List ω → Prop) (Q : α → Trace σ ω Ans → Prop) :
    Prog σ ω Ans α → Trace σ ω Ans → Prop
  | .ret a, τ => Q a τ
  | .call c k, τ => ∀ a, (k a).obeys L Q (τ.answered c a)
  | .start k, τ => k.obeys L Q τ.opened
  | .rollback k, τ => k.obeys L Q τ.closed
  | .commit k, τ => ∀ ok, (k ok).obeys L Q τ.closed
  | .stmt w k, τ => (k none).obeys L Q τ ∧ ∀ v, L τ v (w v) ∧ (k (some v)).obeys L Q (τ.ran v (w v))

variable {L L' : Trace σ ω Ans → σ → List ω → Prop} {τ : Trace σ ω Ans}

namespace Prog

variable {Q Q' : α → Trace σ ω Ans → Prop} {p : Prog σ ω Ans α}

theorem obeys_weaken (hL : ∀ τ v ws, L τ v ws → L' τ v ws) (hQ : ∀ a τ, Q a τ → Q' a τ)
    (h : p.obeys L Q τ) : p.obeys L' Q' τ := by
  induction p generalizing τ with
  | ret a => exact hQ a τ h
  | call c k ih => exact fun a => ih a (h a)
  | start k ih => exact ih h
  | rollback k ih => exact ih h
  | commit k ih => exact fun ok => ih ok (h ok)
  | stmt w k ih =>
    exact ⟨ih none h.1, fun v => ⟨hL τ v _ (h.2 v).1, ih (some v) (h.2 v).2⟩⟩

/-- A law that asks nothing is obeyed. -/
theorem obeys_always (hL : ∀ τ v ws, L τ v ws) : p.obeys L (fun _ _ => True) τ := by
  induction p generalizing τ with
  | ret a => exact trivial
  | call c k ih => exact fun a => ih a
  | start k ih => exact ih
  | rollback k ih => exact ih
  | commit k ih => exact fun ok => ih ok
  | stmt w k ih => exact ⟨ih none, fun v => ⟨hL τ v _, ih (some v)⟩⟩

/-- Two laws together. -/
theorem obeys_and (h : p.obeys L Q τ) (h' : p.obeys L' (fun _ _ => True) τ) :
    p.obeys (fun τ v ws => L τ v ws ∧ L' τ v ws) Q τ := by
  induction p generalizing τ with
  | ret a => exact h
  | call c k ih => exact fun a => ih a (h a) (h' a)
  | start k ih => exact ih h h'
  | rollback k ih => exact ih h h'
  | commit k ih => exact fun ok => ih ok (h ok) (h' ok)
  | stmt w k ih =>
    exact ⟨ih none h.1 h'.1, fun v => ⟨⟨(h.2 v).1, (h'.2 v).1⟩, ih (some v) (h.2 v).2 (h'.2 v).2⟩⟩

theorem obeys_mono (hQ : ∀ a τ, Q a τ → Q' a τ) (h : p.obeys L Q τ) : p.obeys L Q' τ :=
  obeys_weaken (fun _ _ _ h => h) hQ h

/-- What has been learned is not forgotten. -/
theorem obeys_within (h : p.obeys L Q τ) : p.obeys L (fun a τ' => Q a τ' ∧ τ.Within τ') τ := by
  induction p generalizing τ with
  | ret a => exact ⟨h, .refl τ⟩
  | call c k ih =>
    intro a
    exact obeys_mono (fun _ _ hQ => ⟨hQ.1, (Trace.Within.answered τ c a).trans hQ.2⟩) (ih a (h a))
  | start k ih =>
    exact obeys_mono (fun _ _ hQ => ⟨hQ.1, hQ.2.log, hQ.2.read⟩) (ih (τ := τ.opened) h)
  | rollback k ih =>
    exact obeys_mono (fun _ _ hQ => ⟨hQ.1, hQ.2.log, hQ.2.read⟩) (ih (τ := τ.closed) h)
  | commit k ih =>
    intro ok
    exact obeys_mono (fun _ _ hQ => ⟨hQ.1, hQ.2.log, hQ.2.read⟩) (ih ok (τ := τ.closed) (h ok))
  | stmt w k ih =>
    refine ⟨ih none h.1, fun v => ⟨(h.2 v).1, ?_⟩⟩
    exact obeys_mono (fun _ _ hQ => ⟨hQ.1, (Trace.Within.ran τ v (w v)).trans hQ.2⟩)
      (ih (some v) (h.2 v).2)

/-- Every statement runs with all that had been learned before. -/
theorem obeys_since (h : p.obeys L Q τ) {τ₀ : Trace σ ω Ans} (hτ : τ₀.Within τ) :
    p.obeys (fun τ v ws => τ₀.Within τ ∧ L τ v ws) Q τ := by
  induction p generalizing τ with
  | ret a => exact h
  | call c k ih => exact fun a => ih a (h a) (hτ.trans (.answered τ c a))
  | start k ih => exact ih h ⟨hτ.log, hτ.read⟩
  | rollback k ih => exact ih h ⟨hτ.log, hτ.read⟩
  | commit k ih => exact fun ok => ih ok (h ok) ⟨hτ.log, hτ.read⟩
  | stmt w k ih =>
    refine ⟨ih none h.1 hτ, fun v => ⟨⟨hτ, (h.2 v).1⟩, ih (some v) (h.2 v).2 ?_⟩⟩
    exact hτ.trans (.ran τ v (w v))

theorem obeys_bind {f : α → Prog σ ω Ans β} {Q : β → Trace σ ω Ans → Prop} :
    (p.bind f).obeys L Q τ ↔ p.obeys L (fun a τ => (f a).obeys L Q τ) τ := by
  induction p generalizing τ with
  | ret a => exact Iff.rfl
  | call c k ih => exact forall_congr' fun a => ih a
  | start k ih => exact ih
  | rollback k ih => exact ih
  | commit k ih => exact forall_congr' fun ok => ih ok
  | stmt w k ih => exact and_congr (ih none) (forall_congr' fun v => and_congr Iff.rfl (ih _))

end Prog

/-- The same for routines, with a postcondition for what is thrown. -/
def Routine.obeys (m : Routine σ ω Ans ε α) (L : Trace σ ω Ans → σ → List ω → Prop)
    (ok : α → Trace σ ω Ans → Prop) (err : ε → Trace σ ω Ans → Prop) (τ : Trace σ ω Ans) : Prop :=
  m.run.obeys L (fun r τ => match r with
    | .ok a => ok a τ
    | .error e => err e τ) τ

namespace Routine

variable {m : Routine σ ω Ans ε α} {ok ok' : α → Trace σ ω Ans → Prop}
  {err err' : ε → Trace σ ω Ans → Prop}

theorem obeys_weaken (hL : ∀ τ v ws, L τ v ws → L' τ v ws) (hok : ∀ a τ, ok a τ → ok' a τ)
    (herr : ∀ e τ, err e τ → err' e τ) (h : m.obeys L ok err τ) : m.obeys L' ok' err' τ := by
  refine Prog.obeys_weaken hL ?_ h
  intro r τ hr
  cases r with
  | ok a => exact hok a τ hr
  | error e => exact herr e τ hr

theorem obeys_mono (hok : ∀ a τ, ok a τ → ok' a τ) (herr : ∀ e τ, err e τ → err' e τ)
    (h : m.obeys L ok err τ) : m.obeys L ok' err' τ :=
  obeys_weaken (fun _ _ _ h => h) hok herr h

theorem obeys_pure {a : α} : (pure a : Routine σ ω Ans ε α).obeys L ok err τ ↔ ok a τ := Iff.rfl

theorem obeys_throw {e : ε} : (throw e : Routine σ ω Ans ε α).obeys L ok err τ ↔ err e τ := Iff.rfl

theorem obeys_bind {f : α → Routine σ ω Ans ε β} {ok : β → Trace σ ω Ans → Prop}
    (h : m.obeys L (fun a τ => (f a).obeys L ok err τ) err τ) : (m >>= f).obeys L ok err τ := by
  unfold Routine.obeys at h ⊢
  rw [ExceptT.run_bind]
  refine Prog.obeys_bind.mpr (Prog.obeys_mono ?_ h)
  intro r τ hr
  cases r with
  | ok a => exact hr
  | error e => exact hr

/-- How a routine ends need not matter. -/
theorem obeys_regardless (hok : ∀ a τ, ok a τ) (herr : ∀ e τ, err e τ)
    (h : m.obeys L (fun _ _ => True) (fun _ _ => True) τ) : m.obeys L ok err τ :=
  obeys_mono (fun a τ _ => hok a τ) (fun e τ _ => herr e τ) h

theorem obeys_seq {f : α → Routine σ ω Ans ε β}
    (h : m.obeys L (fun _ _ => True) (fun _ _ => True) τ)
    (hf : ∀ a τ, (f a).obeys L (fun _ _ => True) (fun _ _ => True) τ) :
    (m >>= f).obeys L (fun _ _ => True) (fun _ _ => True) τ :=
  obeys_bind (obeys_regardless hf (fun _ _ => trivial) h)

theorem obeys_map {f : α → β} (h : m.obeys L (fun _ _ => True) (fun _ _ => True) τ) :
    (f <$> m).obeys L (fun _ _ => True) (fun _ _ => True) τ := by
  rw [map_eq_pure_bind]
  exact obeys_seq h fun _ _ => trivial

theorem obeys_tryCatch {handler : ε → Routine σ ω Ans ε α}
    (h : m.obeys L ok (fun e τ => (handler e).obeys L ok err τ) τ) :
    (tryCatch m handler).obeys L ok err τ := by
  unfold Routine.obeys at h ⊢
  refine Prog.obeys_bind.mpr (Prog.obeys_mono ?_ h)
  intro r τ hr
  cases r with
  | ok a => exact hr
  | error e => exact hr

theorem obeys_throwIf {c : Prop} [Decidable c] {e : ε} {ok : Unit → Trace σ ω Ans → Prop}
    (hthrow : c → err e τ) (hok : ¬ c → ok () τ) :
    (throwIf c e : Routine σ ω Ans ε Unit).obeys L ok err τ := by
  unfold throwIf
  by_cases hc : c
  · rw [if_pos hc]
    exact hthrow hc
  · rw [if_neg hc]
    exact hok hc

theorem obeys_orThrow {o : Option α} {e : ε} (hnone : o = none → err e τ)
    (hsome : ∀ a, o = some a → ok a τ) :
    (orThrow o e : Routine σ ω Ans ε α).obeys L ok err τ := by
  cases o with
  | none => exact hnone rfl
  | some a => exact hsome a rfl

theorem obeys_onlyIf {c : Prop} [Decidable c] {m : Routine σ ω Ans ε Unit}
    {ok : Unit → Trace σ ω Ans → Prop} (hpos : c → m.obeys L ok err τ) (hneg : ¬ c → ok () τ) :
    (onlyIf c m).obeys L ok err τ := by
  unfold onlyIf
  by_cases hc : c
  · rw [if_pos hc]
    exact hpos hc
  · rw [if_neg hc]
    exact hneg hc

theorem obeys_ite {c : Prop} [Decidable c] {m n : Routine σ ω Ans ε α}
    (hpos : c → m.obeys L ok err τ) (hneg : ¬ c → n.obeys L ok err τ) :
    (if c then m else n).obeys L ok err τ := by
  by_cases hc : c
  · rw [if_pos hc]
    exact hpos hc
  · rw [if_neg hc]
    exact hneg hc

theorem obeys_mapM {f : β → Routine σ ω Ans ε α} {l : List β} {P : Trace σ ω Ans → Prop}
    {ok : List α → Trace σ ω Ans → Prop} (hτ : P τ)
    (hf : ∀ b ∈ l, ∀ τ, P τ → (f b).obeys L (fun _ => P) err τ)
    (h : ∀ as τ, P τ → ok as τ) : (l.mapM f).obeys L ok err τ := by
  induction l generalizing τ ok with
  | nil => exact h [] τ hτ
  | cons b l ih =>
    rw [List.mapM_cons]
    refine obeys_bind (obeys_mono (fun a τ' hτ' => ?_) (fun _ _ h => h)
      (hf b List.mem_cons_self τ hτ))
    refine obeys_bind (ih hτ' (fun b' hb' => hf b' (List.mem_cons_of_mem b hb')) ?_)
    exact fun as τ'' hτ'' => h _ τ'' hτ''

theorem obeys_ask {c : ι} {ok : Ans c → Trace σ ω Ans → Prop} :
    (ask c : Routine σ ω Ans ε (Ans c)).obeys L ok err τ ↔ ∀ a, ok a (τ.answered c a) := Iff.rfl

/-- A statement: it may fail, throw after reading its view, or write. -/
theorem obeys_exec {fault : ε} {f : σ → Except ε (α × List ω)} (hL : ∀ τ v, L τ v [])
    (hfault : err fault τ) (herr : ∀ v e, f v = .error e → err e (τ.ran v []))
    (h : ∀ v a ws, f v = .ok (a, ws) → L τ v ws ∧ ok a (τ.ran v ws)) :
    (exec fault f).obeys L ok err τ := by
  refine ⟨hfault, fun v => ?_⟩
  cases hf : f v with
  | error e =>
    simp only [hf]
    exact ⟨hL τ v, herr v e hf⟩
  | ok r =>
    obtain ⟨a, ws⟩ := r
    simp only [hf]
    exact h v a ws hf

theorem obeys_query {fault : ε} {q : σ → α} (hL : ∀ τ v, L τ v []) (hfault : err fault τ)
    (h : ∀ v, ok (q v) (τ.ran v [])) : (query fault q).obeys L ok err τ := by
  refine obeys_exec hL hfault (fun _ _ he => nomatch he) fun v a ws hf => ?_
  obtain ⟨rfl, rfl⟩ := Prod.mk.inj (Except.ok.inj hf)
  exact ⟨hL τ v, h v⟩

theorem obeys_transaction {fault : ε} {body : Routine σ ω Ans ε α}
    (h : body.obeys L (fun a τ => err fault τ.closed ∧ ok a τ.closed) (fun e τ => err e τ.closed)
      τ.opened) : (transaction fault body).obeys L ok err τ := by
  refine Prog.obeys_bind.mpr (Prog.obeys_mono ?_ h)
  intro r τ' hr
  cases r with
  | ok a =>
    intro committed
    cases committed with
    | true => exact hr.2
    | false => exact hr.1
  | error e => exact hr

/-- Every statement of the routine obeys `P`, which asks nothing about what has been learned.
    A class, so that it is found by following the program. -/
class Keeps (P : σ → List ω → Prop) (m : Routine σ ω Ans ε α) : Prop where
  obeys : ∀ τ, m.obeys (fun _ => P) (fun _ _ => True) (fun _ _ => True) τ

namespace Keeps

variable {P P' : σ → List ω → Prop} {m n : Routine σ ω Ans ε α}

theorem mono (hP : ∀ v ws, P v ws → P' v ws) (h : Keeps P m) : Keeps P' m :=
  ⟨fun τ => obeys_weaken (fun _ v ws => hP v ws) (fun _ _ h => h) (fun _ _ h => h) (h.obeys τ)⟩

/-- Nothing is asked of what follows. -/
theorem lawful (hL : ∀ τ v ws, P v ws → L τ v ws) (h : Keeps P m) :
    m.obeys L (fun _ _ => True) (fun _ _ => True) τ :=
  obeys_weaken (fun τ v ws => hL τ v ws) (fun _ _ h => h) (fun _ _ h => h) (h.obeys τ)

/-- The same, for a law that what has been learned before makes weaker. -/
theorem lawful_since (hL : ∀ τ' v ws, τ.Within τ' → P v ws → L τ' v ws) (h : Keeps P m) :
    m.obeys L (fun _ _ => True) (fun _ _ => True) τ := by
  refine Prog.obeys_weaken ?_ ?_ (Prog.obeys_since (h.obeys τ) (.refl τ))
  · exact fun τ' v ws hlaw => hL τ' v ws hlaw.1 hlaw.2
  · rintro (e | a) τ' _ <;> trivial

/-- A head that obeys `P`, before something that has to be looked into. -/
theorem followed {f : α → Routine σ ω Ans ε β} (h : Keeps P m) (hL : ∀ τ v ws, P v ws → L τ v ws)
    (hf : ∀ a τ, (f a).obeys L (fun _ _ => True) (fun _ _ => True) τ) :
    (m >>= f).obeys L (fun _ _ => True) (fun _ _ => True) τ := by
  exact obeys_seq (h.lawful hL) hf

/-- The same, for what follows from what has been learned before the head. -/
theorem followed_within {f : α → Routine σ ω Ans ε β} (h : Keeps P m)
    (hL : ∀ τ v ws, P v ws → L τ v ws) (hf : ∀ a τ', τ.Within τ' →
      (f a).obeys L (fun _ _ => True) (fun _ _ => True) τ') :
    (m >>= f).obeys L (fun _ _ => True) (fun _ _ => True) τ := by
  apply obeys_bind
  refine Prog.obeys_mono ?_ (Prog.obeys_within (h.lawful hL))
  intro r τ' hτ'
  cases r with
  | ok a => exact hf a τ' hτ'.2
  | error e => exact trivial

instance pure (a : α) : Keeps P (pure a : Routine σ ω Ans ε α) := ⟨fun _ => trivial⟩

instance throw (e : ε) : Keeps P (throw e : Routine σ ω Ans ε α) := ⟨fun _ => trivial⟩

instance bind {f : α → Routine σ ω Ans ε β} [h : Keeps P m] [hf : ∀ a, Keeps P (f a)] :
    Keeps P (m >>= f) := by
  constructor
  intro τ
  apply obeys_bind
  exact obeys_mono (fun a τ' _ => (hf a).obeys τ') (fun _ _ h => h) (h.obeys τ)

/-- The rule of `bind`, for a continuation that has to be looked into. -/
theorem andThen [Keeps P m] {f : α → Routine σ ω Ans ε β} (hf : ∀ a, Keeps P (f a)) :
    Keeps P (m >>= f) := bind

/-- The same for a head that has to be looked into. -/
theorem before {f : α → Routine σ ω Ans ε β} [∀ a, Keeps P (f a)] (h : Keeps P m) :
    Keeps P (m >>= f) := bind

instance map {f : α → β} [h : Keeps P m] : Keeps P (f <$> m) := by
  rw [map_eq_pure_bind]
  exact bind

instance tryCatch {handler : ε → Routine σ ω Ans ε α} [h : Keeps P m]
    [hh : ∀ e, Keeps P (handler e)] : Keeps P (tryCatch m handler) := by
  constructor
  intro τ
  apply obeys_tryCatch
  exact obeys_mono (fun _ _ h => h) (fun e τ' _ => (hh e).obeys τ') (h.obeys τ)

/-- The rule of `tryCatch`, for a body that has to be looked into. -/
theorem tried {handler : ε → Routine σ ω Ans ε α} [∀ e, Keeps P (handler e)] (h : Keeps P m) :
    Keeps P (MonadExcept.tryCatch m handler) := tryCatch

/-- The rule of `tryCatch`, for a handler that has to be looked into. -/
theorem caught [Keeps P m] {handler : ε → Routine σ ω Ans ε α} (hh : ∀ e, Keeps P (handler e)) :
    Keeps P (MonadExcept.tryCatch m handler) := tryCatch

instance throwIf (c : Prop) [Decidable c] (e : ε) :
    Keeps P (throwIf c e : Routine σ ω Ans ε Unit) :=
  ⟨fun _ => obeys_throwIf (fun _ => trivial) (fun _ => trivial)⟩

instance orThrow (o : Option α) (e : ε) : Keeps P (orThrow o e : Routine σ ω Ans ε α) :=
  ⟨fun _ => obeys_orThrow (fun _ => trivial) (fun _ _ => trivial)⟩

instance onlyIf {c : Prop} [Decidable c] {m : Routine σ ω Ans ε Unit} [h : Keeps P m] :
    Keeps P (onlyIf c m) :=
  ⟨fun τ => obeys_onlyIf (fun _ => h.obeys τ) (fun _ => trivial)⟩

instance ite {c : Prop} [Decidable c] [h : Keeps P m] [h' : Keeps P n] :
    Keeps P (if c then m else n) :=
  ⟨fun τ => obeys_ite (fun _ => h.obeys τ) (fun _ => h'.obeys τ)⟩

/-- A test whose second branch has to be looked into. -/
theorem otherwise {c : Prop} [Decidable c] [Keeps P m] (h : Keeps P n) :
    Keeps P (if c then m else n) := ite

instance mapM {f : β → Routine σ ω Ans ε α} {l : List β} [h : ∀ b, Keeps P (f b)] :
    Keeps P (l.mapM f) := by
  constructor
  intro τ
  exact obeys_mapM (P := fun _ => True) trivial (fun b _ τ' _ => (h b).obeys τ')
    fun _ _ _ => trivial

instance transaction {fault : ε} [h : Keeps P m] : Keeps P (transaction fault m) := by
  constructor
  intro τ
  apply obeys_transaction
  exact obeys_mono (fun _ _ _ => ⟨trivial, trivial⟩) (fun _ _ _ => trivial) (h.obeys τ.opened)

theorem ask (c : ι) : Keeps P (ask c : Routine σ ω Ans ε (Ans c)) := ⟨fun _ _ => trivial⟩

theorem exec {fault : ε} {f : σ → Except ε (α × List ω)} (hP : ∀ v, P v [])
    (h : ∀ v a ws, f v = .ok (a, ws) → P v ws) :
    Keeps P (exec fault f : Routine σ ω Ans ε α) := by
  constructor
  intro τ
  exact obeys_exec (fun _ => hP) trivial (fun _ _ _ => trivial)
    fun v a ws hf => ⟨h v a ws hf, trivial⟩

theorem query {fault : ε} {q : σ → α} (hP : ∀ v, P v []) :
    Keeps P (query fault q : Routine σ ω Ans ε α) := by
  apply exec hP
  intro v a ws hf
  obtain ⟨-, rfl⟩ := Prod.mk.inj (Except.ok.inj hf)
  exact hP v

end Keeps

end Routine

/-! ### From statements to commits -/

/-- The writes of the statements of a transaction, in order. -/
def writesOf (done : List (σ × List ω)) : List ω := done.flatMap (·.2)

@[simp] theorem writesOf_append (a b : List (σ × List ω)) :
    writesOf (a ++ b) = writesOf a ++ writesOf b := List.flatMap_append

@[simp] theorem writesOf_singleton (v : σ) (ws : List ω) : writesOf [(v, ws)] = ws :=
  List.append_nil ws

variable {S : Store σ ω κ} {agree : κ → σ → σ → Prop}

/-- On the committed state `now` the statements `done` do what they did on their views: each
    obeyed the law, and the rows it wrote are those it would find. -/
inductive Replays (S : Store σ ω κ) (agree : κ → σ → σ → Prop)
    (L : Trace σ ω Ans → σ → List ω → Prop) (τ : Trace σ ω Ans) (now : σ) :
    List (σ × List ω) → Prop
  | nil : Replays S agree L τ now []
  | snoc {done : List (σ × List ω)} {v : σ} {ws : List ω} : Replays S agree L τ now done →
      (∃ τ', τ'.Within τ ∧ τ'.done = done ∧ L τ' v ws) →
      (∀ k ∈ S.locksOf ws, agree k v (S.applyAll (writesOf done) now)) →
      Replays S agree L τ now (done ++ [(v, ws)])

namespace Replays

variable {now now' : σ} {done : List (σ × List ω)}

theorem within {τ' : Trace σ ω Ans} (hτ : τ.Within τ') (h : Replays S agree L τ now done) :
    Replays S agree L τ' now done := by
  induction h with
  | nil => exact .nil
  | snoc _ hL hrows ih =>
    obtain ⟨τ₀, hwithin, hdone, hlaw⟩ := hL
    exact .snoc ih ⟨τ₀, hwithin.trans hτ, hdone, hlaw⟩ hrows

/-- Others commit, but nothing that the statements have locked. -/
theorem moved (hF : S.Frame agree)
    (hcongr : ∀ k ws s t, agree k s t → agree k (S.applyAll ws s) (S.applyAll ws t))
    (h : Replays S agree L τ now done)
    (hkept : ∀ k ∈ S.locksOf (writesOf done), agree k now now') :
    Replays S agree L τ now' done := by
  induction h with
  | nil => exact .nil
  | @snoc done v ws _ hL hrows ih =>
    rw [writesOf_append, writesOf_singleton, Store.locksOf_append] at hkept
    refine .snoc (ih fun k hk => hkept k (List.mem_append_left _ hk)) hL fun k hk => ?_
    refine hF.trans k _ _ _ (hrows k hk) (hcongr k _ _ _ (hkept k ?_))
    exact List.mem_append_right _ hk

end Replays

/-- The contract of a program that counts on nothing and obeys a law. -/
def lawful (S : Store σ ω κ) (agree : κ → σ → σ → Prop)
    (L : Trace σ ω Ans → σ → List ω → Prop) : Contract σ ω Ans :=
  .plain (fun _ _ => True) fun x ws => ∃ τ done, τ.log = x.log ∧ (∀ s ∈ τ.read, s ∈ x.seen) ∧
    ws = writesOf done ∧ Replays S agree L τ x.now done

/-- The context of a program that has learned and done `τ`. -/
structure Tracks (S : Store σ ω κ) (agree : κ → σ → σ → Prop)
    (L : Trace σ ω Ans → σ → List ω → Prop) (τ : Trace σ ω Ans) (x : Ctx σ ω Ans) : Prop where
  log : τ.log = x.log
  read : ∀ s ∈ τ.read, s ∈ x.seen
  tx : x.tx = if τ.inside then some (writesOf τ.done) else none
  fresh : τ.inside = false → τ.done = []
  replays : Replays S agree L τ x.now τ.done

namespace Tracks

variable {x y : Ctx σ ω Ans}

theorem pending (h : Tracks S agree L τ x) : x.pending = writesOf τ.done := by
  rw [Ctx.pending, h.tx]
  cases hinside : τ.inside with
  | true => rfl
  | false =>
    rw [h.fresh hinside]
    rfl

theorem mem_seen_see {s : σ} (h : s ∈ x.seen) (ws : List ω) : s ∈ (x.see S ws).seen := by
  cases ws with
  | nil => exact h
  | cons w ws => exact List.mem_cons_of_mem _ h

/-- Outside a transaction there is nothing to replay. -/
theorem outside (hlog : τ.log = x.log) (hread : ∀ s ∈ τ.read, s ∈ x.seen)
    (hinside : τ.inside = false) (hdone : τ.done = []) (htx : x.tx = none) :
    Tracks S agree L τ x := by
  refine ⟨hlog, hread, ?_, fun _ => hdone, ?_⟩
  · rw [hinside, htx]
    rfl
  · rw [hdone]
    exact .nil

theorem see (hF : S.Frame agree)
    (hcongr : ∀ k ws s t, agree k s t → agree k (S.applyAll ws s) (S.applyAll ws t))
    (h : Tracks S agree L τ x) {ws : List ω} (hfree : ∀ k ∈ S.locksOf ws, k ∉ x.locks S) :
    Tracks S agree L τ (x.see S ws) := by
  refine ⟨?_, fun s hs => mem_seen_see (h.read s hs) ws, ?_, h.fresh, ?_⟩
  · rw [Ctx.see_log]
    exact h.log
  · rw [Ctx.see_tx]
    exact h.tx
  · rw [Ctx.see_now]
    refine h.replays.moved hF hcongr fun k hk => hF.applyAll x.now fun hmem => hfree k hmem ?_
    rw [Ctx.locks, h.pending]
    exact hk

theorem drift (hF : S.Frame agree)
    (hcongr : ∀ k ws s t, agree k s t → agree k (S.applyAll ws s) (S.applyAll ws t))
    {R : Ctx σ ω Ans → List ω → Prop} (h : Tracks S agree L τ x) (hd : Drift S R x y) :
    Tracks S agree L τ y := by
  induction hd with
  | refl => exact h
  | step ws _ _ _ hfree ih => exact ih.see hF hcongr hfree

theorem view (h : Tracks S agree L τ x) : x.view S = S.applyAll (writesOf τ.done) x.now := by
  rw [Ctx.view, h.pending]

/-- A statement ran. -/
theorem wrote (hF : S.Frame agree) (h : Tracks S agree L τ x) {ws : List ω}
    (hL : L τ (x.view S) ws) : Tracks S agree L (τ.ran (x.view S) ws) (x.wrote S ws) := by
  cases hinside : τ.inside with
  | false =>
    have htx : x.tx = none := by rw [h.tx, hinside]; rfl
    have hview : x.view S = x.now := by
      rw [h.view, h.fresh hinside]
      rfl
    have hseen : ∀ s ∈ x.seen, s ∈ (x.wrote S ws).seen := by
      intro s hs
      simp only [Ctx.wrote, htx]
      exact mem_seen_see (S := S) (x := { x with tx := none, ran := x.ran + 1 }) hs ws
    rw [Trace.ran_outside hinside]
    refine .outside ?_ ?_ hinside (h.fresh hinside) (by rw [Ctx.wrote_tx, htx]; rfl)
    · rw [Ctx.wrote_log]
      exact h.log
    · intro s hs
      rcases List.mem_cons.mp hs with rfl | hs
      · rw [hview]
        exact hseen _ List.mem_cons_self
      · exact hseen s (h.read s hs)
  | true =>
    have htx : x.tx = some (writesOf τ.done) := by rw [h.tx, hinside]; rfl
    have hwrote : x.wrote S ws =
        { x with tx := some (writesOf τ.done ++ ws), ran := x.ran + 1 } := by
      simp only [Ctx.wrote, htx]
    have hτ := Trace.Within.ran τ (x.view S) ws
    rw [Trace.ran_within hinside] at hτ ⊢
    rw [hwrote]
    refine ⟨h.log, h.read, ?_, fun hout => ?_, .snoc (h.replays.within hτ) ⟨τ, hτ, rfl, hL⟩ ?_⟩
    · simp [hinside]
    · exact absurd (hinside.symm.trans hout) (by decide)
    · rw [h.view]
      exact fun k _ => hF.refl k _

end Tracks

/-- A program whose statements obey a law keeps the contract of the law. -/
theorem Prog.obeys_wp (hF : S.Frame agree)
    (hcongr : ∀ k ws s t, agree k s t → agree k (S.applyAll ws s) (S.applyAll ws t))
    {p : Prog σ ω Ans α} {Q : α → Trace σ ω Ans → Prop} {x : Ctx σ ω Ans}
    (h : p.obeys L Q τ) (hx : Tracks S agree L τ x) :
    p.wp S (lawful S agree L) (fun _ _ => True) x := by
  induction p generalizing τ x with
  | ret a => exact trivial
  | call c k ih =>
    intro y hy
    have hτ := hx.drift hF hcongr hy
    refine ⟨trivial, fun a _ => ih a (h a) ⟨?_, hτ.read, hτ.tx, hτ.fresh, ?_⟩⟩
    · exact congrArg (List.cons _) hτ.log
    · exact hτ.replays.within (.answered τ c a)
  | start k ih =>
    intro y hy
    have hτ := hx.drift hF hcongr hy
    exact ih h ⟨hτ.log, hτ.read, rfl, fun _ => rfl, .nil⟩
  | rollback k ih =>
    intro y hy
    have hτ := hx.drift hF hcongr hy
    exact ih h (.outside hτ.log hτ.read rfl rfl rfl)
  | commit k ih =>
    intro y hy
    have hτ := hx.drift hF hcongr hy
    refine ⟨fun _ => ih false (h false) (.outside hτ.log hτ.read rfl rfl rfl), fun _ _ => ?_,
      fun _ => ih true (h true) (.outside ?_ ?_ rfl rfl ?_)⟩
    · exact ⟨τ, τ.done, hτ.log, hτ.read, hτ.pending, hτ.replays⟩
    · rw [Ctx.see_log]
      exact hτ.log
    · exact fun s hs => Tracks.mem_seen_see (x := y.closed) (hτ.read s hs) _
    · rw [Ctx.see_tx]
      rfl
  | stmt w k ih =>
    intro y hy
    have hτ := hx.drift hF hcongr hy
    obtain ⟨hfault, hok⟩ := h
    obtain ⟨hL, hnext⟩ := hok (y.view S)
    refine ⟨fun _ => ih none hfault ⟨hτ.log, hτ.read, hτ.tx, hτ.fresh, hτ.replays⟩, fun _ _ => ?_,
      fun _ => ih _ hnext (hτ.wrote hF hL)⟩
    cases hinside : τ.inside with
    | false =>
      -- Outside a transaction the statement is the whole commit.
      have htx : y.tx = none := by rw [hτ.tx, hinside]; rfl
      have hview : y.view S = y.now := by
        rw [hτ.view, hτ.fresh hinside]
        rfl
      rw [Ctx.released_outside htx, hview]
      rw [hview] at hL
      refine ⟨τ, [(y.now, w y.now)], hτ.log, hτ.read, (writesOf_singleton _ _).symm, ?_⟩
      have hnone : Replays S agree L τ y.now [] := .nil
      exact hnone.snoc ⟨τ, .refl τ, hτ.fresh hinside, hL⟩ fun k _ => hF.refl k _
    | true =>
      -- Inside one nothing is released.
      have htx : y.tx = some (writesOf τ.done) := by rw [hτ.tx, hinside]; rfl
      have hnothing : ∀ ws, y.released ws = [] := by
        intro ws
        simp only [Ctx.released, htx]
      rw [hnothing]
      exact ⟨τ, [], hτ.log, hτ.read, rfl, .nil⟩

section Interleaved

variable [DecidableEq κ] {program : J → Prog σ ω Ans α} {start : σ → Prop}
  {guard : Sys J σ ω Ans α → Event J Ans → Sys J σ ω Ans α → Prop}

/-- In any interleaving of programs that obey laws, what a step commits are statements that
    replay. -/
theorem Sys.Reach.obeys (hF : S.Frame agree)
    (hcongr : ∀ k ws s t, agree k s t → agree k (S.applyAll ws s) (S.applyAll ws t))
    {L : J → Trace σ ω Ans → σ → List ω → Prop}
    (hjobs : ∀ s j s', guard s (.spawn j) s' → (program j).obeys (L j) (fun _ _ => True) .nil)
    {s s' : Sys J σ ω Ans α} (hs : Reach S program guard start s) {e : Event J Ans}
    (hstep : s.step S program e = some s') (hguard : guard s e s') :
    s'.store = s.store ∨ ∃ pid ch p τ done, e = .move pid ch ∧ s.procs[pid]? = some p ∧
      τ.log = p.ctx.log ∧ (∀ c ∈ τ.read, c ∈ p.ctx.seen) ∧
      Replays S agree (L p.job) τ s.store done ∧
      s'.store = S.applyAll (writesOf done) s.store := by
  have hD : Discipline S program guard (fun j => lawful S agree (L j)) (fun _ _ _ => True)
      (fun _ => True) := by
    constructor
    · intro s s' j hguard _
      refine Prog.obeys_wp hF hcongr (hjobs s j s' hguard) ?_
      exact .outside rfl (fun _ h => nomatch h) rfl rfl rfl
    · exact fun _ _ _ _ _ _ _ _ _ => trivial
    · exact fun _ _ _ _ _ _ _ _ => trivial
    · exact fun _ _ _ _ _ _ _ _ _ _ _ => trivial
    · exact fun _ _ _ _ _ _ _ _ _ _ _ _ _ => trivial
    · exact fun _ _ _ _ _ _ _ _ _ _ _ _ _ _ _ _ _ _ _ => trivial
  rcases (hs.good hD fun _ _ => trivial).committed hD hstep hguard with hsame | hmoved
  · exact Or.inl hsame
  · obtain ⟨pid, ch, p, ws, rfl, hp, -, hnow, ⟨τ, done, hlog, hread, rfl, hreplays⟩, hstore⟩ :=
      hmoved
    rw [hnow] at hreplays
    exact Or.inr ⟨pid, ch, p, τ, done, rfl, hp, hlog, hread, hreplays, hstore⟩

end Interleaved

/-! ### Laws about single rows -/

/-- A table under row locks. -/
structure Rows (S : Store σ ω κ) (agree : κ → σ → σ → Prop) (K ρ : Type) where
  row : K → σ → ρ
  lock : K → κ
  frame : ∀ k w s, lock k ∉ S.locks w → row k (S.apply w s) = row k s
  congr : ∀ k w s t, row k s = row k t → row k (S.apply w s) = row k (S.apply w t)
  locked : ∀ k s t, agree (lock k) s t → row k t = row k s

namespace Rows

variable {K ρ : Type} (C : Rows S agree K ρ)

theorem frameAll {k : K} {ws : List ω} (h : C.lock k ∉ S.locksOf ws) (s : σ) :
    C.row k (S.applyAll ws s) = C.row k s := by
  induction ws generalizing s with
  | nil => rfl
  | cons w ws ih =>
    rw [Store.locksOf_cons, List.mem_append, not_or] at h
    exact (ih h.2 _).trans (C.frame k w s h.1)

theorem congrAll {k : K} (ws : List ω) {s t : σ} (h : C.row k s = C.row k t) :
    C.row k (S.applyAll ws s) = C.row k (S.applyAll ws t) := by
  induction ws generalizing s t with
  | nil => exact h
  | cons w ws ih => exact ih (C.congr k w s t h)

end Rows

/-- If every statement changes a row as `T` says, and `T` composes, so does the commit. What
    a statement did before it in its transaction is a prefix of what the commit replays. -/
theorem Replays.law_within {K ρ : Type} (C : Rows S agree K ρ) {T : ρ → ρ → Prop} {k : K}
    (hrefl : ∀ r, T r r) (htrans : ∀ r r' r'', T r r' → T r' r'' → T r r'') {now : σ}
    {done whole : List (σ × List ω)} (hwhole : done <+: whole)
    (hL : ∀ τ' v ws, τ'.Within τ → τ'.done <+: whole → L τ' v ws →
      T (C.row k v) (C.row k (S.applyAll ws v)))
    (h : Replays S agree L τ now done) :
    T (C.row k now) (C.row k (S.applyAll (writesOf done) now)) := by
  induction h with
  | nil => exact hrefl _
  | @snoc done v ws _ hlaw hrows ih =>
    have hbefore : done <+: whole := (List.prefix_append done _).trans hwhole
    rw [writesOf_append, writesOf_singleton, Store.applyAll_append]
    refine htrans _ _ _ (ih hbefore) ?_
    by_cases hk : C.lock k ∈ S.locksOf ws
    · -- The statement has found the row as it is now.
      have hfound := C.locked k _ _ (hrows _ hk)
      obtain ⟨τ', hwithin, hdone, hlaw⟩ := hlaw
      rw [C.congrAll ws hfound, hfound]
      exact hL τ' v ws hwithin (hdone ▸ hbefore) hlaw
    · rw [C.frameAll hk]
      exact hrefl _

theorem Replays.law {K ρ : Type} (C : Rows S agree K ρ) {T : ρ → ρ → Prop} {k : K}
    (hrefl : ∀ r, T r r) (htrans : ∀ r r' r'', T r r' → T r' r'' → T r r'')
    (hL : ∀ τ' v ws, τ'.Within τ → L τ' v ws → T (C.row k v) (C.row k (S.applyAll ws v)))
    {now : σ} {done : List (σ × List ω)} (h : Replays S agree L τ now done) :
    T (C.row k now) (C.row k (S.applyAll (writesOf done) now)) :=
  h.law_within C hrefl htrans List.prefix_rfl fun τ' v ws hτ _ hlaw => hL τ' v ws hτ hlaw

/-- The first statement of a commit has found the rows that it writes as they are now. -/
theorem Replays.head {now : σ} {done : List (σ × List ω)} (h : Replays S agree L τ now done)
    {v : σ} {ws : List ω} {rest : List (σ × List ω)} (hdone : done = (v, ws) :: rest) :
    ∀ k ∈ S.locksOf ws, agree k v now := by
  induction h generalizing rest with
  | nil => cases hdone
  | @snoc done u us hbefore _ hrows ih =>
    cases done with
    | nil =>
      obtain ⟨hfirst, -⟩ := List.cons.inj hdone
      obtain ⟨rfl, rfl⟩ := Prod.mk.inj hfirst
      exact hrows
    | cons first done =>
      obtain ⟨rfl, -⟩ := List.cons.inj hdone
      exact ih rfl

end Transactions
