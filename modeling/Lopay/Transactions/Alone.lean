import Lopay.Transactions.Local

/-!
# Programs that run by themselves

Rules for a program with nobody beside it, each of whose commits has to keep an invariant.
Outside a transaction it sees the committed state, inside one the state that its own writes
have led to; how it fails does not matter, since what a transaction has written is then
lost. A serial run of such programs keeps the invariant.
-/

namespace Transactions

variable {σ ω κ ι J : Type} {Ans : ι → Type} {α β ε : Type} {S : Store σ ω κ}

/-- The contract of a program that runs by itself and commits only what leads to `I`. -/
def keeping (S : Store σ ω κ) (I : σ → Prop) : Contract σ ω Ans :=
  .plain isolated fun y ws => I (S.applyAll ws y.now)

/-- No transaction is open on the committed state `s`. -/
structure Ctx.Outside (x : Ctx σ ω Ans) (s : σ) : Prop where
  now : x.now = s
  tx : x.tx = none

/-- The open transaction began on `s` and sees `v`. -/
structure Ctx.Inside (S : Store σ ω κ) (x : Ctx σ ω Ans) (s v : σ) : Prop where
  now : x.now = s
  tx : ∃ ws, x.tx = some ws ∧ S.applyAll ws s = v

variable {I : σ → Prop} {s v : σ} {x : Ctx σ ω Ans}

theorem Ctx.Outside.view (h : x.Outside s) : x.view S = s := by
  rw [Ctx.view, Ctx.pending, h.tx, h.now]
  rfl

theorem Ctx.Inside.view (h : x.Inside S s v) : x.view S = v := by
  obtain ⟨ws, htx, rfl⟩ := h.tx
  rw [Ctx.view, Ctx.pending, htx, h.now]
  rfl

theorem Ctx.Inside.wrote (h : x.Inside S s v) (ws : List ω) :
    (x.wrote S ws).Inside S s (S.applyAll ws v) := by
  obtain ⟨pending, htx, rfl⟩ := h.tx
  constructor
  · rw [Ctx.wrote_now, Ctx.released, htx]
    exact h.now
  · refine ⟨pending ++ ws, ?_, ?_⟩
    · rw [Ctx.wrote_tx, htx]
      rfl
    · rw [Store.applyAll_append]

theorem Ctx.Outside.wrote (h : x.Outside s) (ws : List ω) :
    (x.wrote S ws).Outside (S.applyAll ws s) := by
  constructor
  · rw [Ctx.wrote_now, Ctx.released_outside h.tx, h.now]
  · rw [Ctx.wrote_tx, h.tx]
    rfl

/-! ### Rules -/

namespace Routine

variable {m : Routine σ ω Ans ε α} {ok : α → Ctx σ ω Ans → Prop}

/-- The precondition of a routine that may fail at any time. -/
abbrev alone (m : Routine σ ω Ans ε α) (S : Store σ ω κ) (I : σ → Prop)
    (ok : α → Ctx σ ω Ans → Prop) (x : Ctx σ ω Ans) : Prop :=
  m.wp S (keeping S I) ok (fun _ _ => True) x

theorem alone_outside_ask {c : ι} {ok : Ans c → Ctx σ ω Ans → Prop} (h : x.Outside s)
    (hok : ∀ a y, y.Outside s → ok a y) :
    (ask c : Routine σ ω Ans ε (Ans c)).alone S I ok x := by
  apply wp_ask
  intro y hd
  obtain rfl := hd.eq_of_isolated
  exact ⟨trivial, fun a _ => hok a _ ⟨h.now, h.tx⟩⟩

theorem alone_inside_ask {c : ι} {ok : Ans c → Ctx σ ω Ans → Prop} (h : x.Inside S s v)
    (hok : ∀ a y, y.Inside S s v → ok a y) :
    (ask c : Routine σ ω Ans ε (Ans c)).alone S I ok x := by
  apply wp_ask
  intro y hd
  obtain rfl := hd.eq_of_isolated
  exact ⟨trivial, fun a _ => hok a _ ⟨h.now, h.tx⟩⟩

theorem alone_outside_query {fault : ε} {q : σ → α} (h : x.Outside s)
    (hok : ∀ y, y.Outside s → ok (q s) y) :
    (query fault q : Routine σ ω Ans ε α).alone S I ok x := by
  apply wp_query
  intro y hd
  obtain rfl := hd.eq_of_isolated
  rw [h.view]
  exact ⟨fun _ => trivial, hok _ (h.wrote [])⟩

theorem alone_inside_query {fault : ε} {q : σ → α} (h : x.Inside S s v)
    (hok : ∀ y, y.Inside S s v → ok (q v) y) :
    (query fault q : Routine σ ω Ans ε α).alone S I ok x := by
  apply wp_query
  intro y hd
  obtain rfl := hd.eq_of_isolated
  rw [h.view]
  exact ⟨fun _ => trivial, hok _ (h.wrote [])⟩

/-- A statement outside a transaction is a commit. -/
theorem alone_outside_exec {fault : ε} {f : σ → Except ε (α × List ω)} (h : x.Outside s)
    (hok : ∀ a ws, f s = .ok (a, ws) →
      I (S.applyAll ws s) ∧ ∀ y, y.Outside (S.applyAll ws s) → ok a y) :
    (exec fault f).alone S I ok x := by
  apply wp_exec
  intro y hd
  obtain rfl := hd.eq_of_isolated
  rw [h.view]
  refine ⟨fun _ => trivial, fun _ _ => trivial, fun a ws hf => ?_⟩
  obtain ⟨hI, hnext⟩ := hok a ws hf
  rw [Ctx.released_outside h.tx]
  refine ⟨fun _ _ => ?_, fun _ => hnext _ (h.wrote ws)⟩
  rw [← h.now] at hI
  exact hI

theorem alone_inside_exec {fault : ε} {f : σ → Except ε (α × List ω)} (h : x.Inside S s v)
    (hok : ∀ a ws, f v = .ok (a, ws) → ∀ y, y.Inside S s (S.applyAll ws v) → ok a y) :
    (exec fault f).alone S I ok x := by
  apply wp_exec
  intro y hd
  obtain rfl := hd.eq_of_isolated
  rw [h.view]
  obtain ⟨pending, htx, -⟩ := h.tx
  refine ⟨fun _ => trivial, fun _ _ => trivial, fun a ws hf => ⟨fun hne => ?_, fun _ => ?_⟩⟩
  · rw [Ctx.released, htx] at hne
    exact absurd rfl hne
  · exact hok a ws hf _ (h.wrote ws)

/-- What the transaction has come to see is committed at once. -/
theorem alone_transaction {fault : ε} {body : Routine σ ω Ans ε α} (hnow : x.now = s)
    (hbody : ∀ y, y.Inside S s s → body.alone S I
      (fun a z => ∃ v, z.Inside S s v ∧ I v ∧ ∀ u, u.Outside v → ok a u) y) :
    (transaction fault body).alone S I ok x := by
  apply wp_transaction
  intro y hd
  obtain rfl := hd.eq_of_isolated
  refine wp_mono ?_ (fun _ _ _ _ _ => trivial) (hbody _ ⟨hnow, [], rfl, rfl⟩)
  rintro a z ⟨v, hz, hI, hok⟩ u hd
  obtain rfl := hd.eq_of_isolated
  obtain ⟨pending, htx, rfl⟩ := hz.tx
  have hpending : u.pending = pending := by
    rw [Ctx.pending, htx]
    rfl
  rw [hpending]
  refine ⟨fun _ => trivial, fun _ _ => ?_, fun _ => hok _ ⟨?_, ?_⟩⟩
  · rw [← hz.now] at hI
    exact hI
  · rw [Ctx.see_now]
    exact congrArg _ hz.now
  · rw [Ctx.see_tx]
    rfl

theorem alone_orThrow {o : Option α} {e : ε} (hok : ∀ a, o = some a → ok a x) :
    (orThrow o e : Routine σ ω Ans ε α).alone S I ok x :=
  wp_orThrow (fun _ => trivial) hok

theorem alone_throwIf {c : Prop} [Decidable c] {e : ε} {ok : Unit → Ctx σ ω Ans → Prop}
    (hok : ¬ c → ok () x) : (throwIf c e : Routine σ ω Ans ε Unit).alone S I ok x :=
  wp_throwIf (fun _ => trivial) hok

theorem alone_tryCatch {handler : ε → Routine σ ω Ans ε α} (h : m.alone S I ok x)
    (hhandler : ∀ e y, (handler e).alone S I ok y) : (tryCatch m handler).alone S I ok x :=
  wp_tryCatch (wp_mono (fun _ _ h => h) (fun e y _ => hhandler e y) h)

/-- What is thrown on is lost all the same. -/
theorem alone_rethrow {handler : ε → ε} (h : m.alone S I ok x) :
    (tryCatch m fun e => throw (handler e)).alone S I ok x :=
  alone_tryCatch h fun _ _ => trivial

end Routine

/-! ### Programs that keep an invariant statement by statement -/

variable {P : σ → List ω → Prop}

theorem Prog.alone_of_obeys {Q : α → Trace σ ω Ans → Prop} {p : Prog σ ω Ans α}
    {τ : Trace σ ω Ans} (hP : ∀ v ws, P v ws → I v → I (S.applyAll ws v))
    (h : p.obeys (fun _ => P) Q τ) (hnow : I x.now) (hview : I (x.view S)) :
    p.wp S (keeping S I) (fun _ y => I y.now ∧ I (y.view S)) x := by
  induction p generalizing τ x with
  | ret a => exact ⟨hnow, hview⟩
  | call c k ih =>
    intro y hd
    obtain rfl := hd.eq_of_isolated
    exact ⟨trivial, fun a _ => ih a (h a) hnow hview⟩
  | start k ih =>
    intro y hd
    obtain rfl := hd.eq_of_isolated
    exact ih h hnow hnow
  | rollback k ih =>
    intro y hd
    obtain rfl := hd.eq_of_isolated
    exact ih h hnow hnow
  | commit k ih =>
    intro y hd
    obtain rfl := hd.eq_of_isolated
    have hcommitted : I (y.closed.see S y.pending).now := by
      rw [Ctx.see_now]
      exact hview
    refine ⟨fun _ => ih false (h false) hnow hnow, fun _ _ => hview,
      fun _ => ih true (h true) hcommitted ?_⟩
    rw [Ctx.view, Ctx.pending, Ctx.see_tx]
    exact hcommitted
  | stmt w k ih =>
    intro y hd
    obtain rfl := hd.eq_of_isolated
    obtain ⟨hfault, hok⟩ := h
    obtain ⟨hlaw, hnext⟩ := hok (y.view S)
    have hwrites := hP _ _ hlaw hview
    refine ⟨fun _ => ih none hfault hnow hview, fun _ _ => ?_, fun _ => ih _ hnext ?_ ?_⟩
    · cases htx : y.tx with
      | none =>
        have hnowview : y.view S = y.now := Ctx.Outside.view ⟨rfl, htx⟩
        rw [Ctx.released_outside htx]
        rw [hnowview] at hwrites ⊢
        exact hwrites
      | some pending =>
        rw [Ctx.released, htx]
        exact hnow
    · cases htx : y.tx with
      | none =>
        have hnowview : y.view S = y.now := Ctx.Outside.view ⟨rfl, htx⟩
        rw [Ctx.wrote_now, Ctx.released_outside htx]
        rw [hnowview] at hwrites ⊢
        exact hwrites
      | some pending =>
        rw [Ctx.wrote_now, Ctx.released, htx]
        exact hnow
    · cases htx : y.tx with
      | none =>
        have hwrote : (y.wrote S (w (y.view S))).Outside (S.applyAll (w (y.view S)) y.now) :=
          Ctx.Outside.wrote ⟨rfl, htx⟩ _
        have hnowview : y.view S = y.now := Ctx.Outside.view ⟨rfl, htx⟩
        rw [hwrote.view]
        rw [hnowview] at hwrites ⊢
        exact hwrites
      | some pending =>
        have hinside : y.Inside S y.now (y.view S) := by
          refine ⟨rfl, pending, htx, ?_⟩
          rw [Ctx.view, Ctx.pending, htx]
          rfl
        rw [(hinside.wrote _).view]
        exact hwrites

/-- A part of a program that keeps the invariant statement by statement. -/
theorem Routine.Keeps.alone {m : Routine σ ω Ans ε α} (h : Routine.Keeps P m)
    (hP : ∀ v ws, P v ws → I v → I (S.applyAll ws v)) (hnow : I x.now) (hview : I (x.view S)) :
    m.alone S I (fun _ y => I y.now ∧ I (y.view S)) x := by
  refine Prog.wp_mono ?_ (Prog.alone_of_obeys hP (h.obeys .nil) hnow hview)
  intro r y hy
  cases r with
  | ok a => exact hy
  | error e => exact trivial

/-- Such a part keeps any stronger property that its statements keep. -/
theorem Routine.Keeps.alone_carries {m : Routine σ ω Ans ε α} {D : σ → Prop}
    (h : Routine.Keeps P m) (hP : ∀ v ws, P v ws → D v → D (S.applyAll ws v))
    (hI : ∀ v, D v → I v) (hnow : D x.now) (hview : D (x.view S)) :
    m.alone S I (fun _ y => D y.now ∧ D (y.view S)) x := by
  refine Prog.wp_weaken ?_ (fun _ _ hQ => hQ) (h.alone hP hnow hview)
  exact ⟨fun _ _ hR => hR, fun _ _ _ ha => ha, fun _ hf => hf, fun _ _ ha => ha,
    fun _ _ hG => hI _ hG, fun _ _ ha => ha⟩

/-- Such a part, before something that has to be looked into. -/
theorem Routine.Keeps.alone_followed {m : Routine σ ω Ans ε α} {f : α → Routine σ ω Ans ε β}
    {ok : β → Ctx σ ω Ans → Prop} (h : Routine.Keeps P m)
    (hP : ∀ v ws, P v ws → I v → I (S.applyAll ws v)) (hx : I x.now ∧ I (x.view S))
    (hf : ∀ a y, I y.now ∧ I (y.view S) → (f a).alone S I ok y) : (m >>= f).alone S I ok x := by
  apply wp_bind
  exact wp_mono hf (fun _ _ h => h) (h.alone hP hx.1 hx.2)

theorem Routine.Keeps.alone_last {m : Routine σ ω Ans ε α} (h : Routine.Keeps P m)
    (hP : ∀ v ws, P v ws → I v → I (S.applyAll ws v)) (hx : x.Outside s) (hs : I s) :
    m.alone S I (fun _ _ => True) x := by
  refine wp_mono (fun _ _ _ => trivial) (fun _ _ h => h) (h.alone hP ?_ ?_)
  · rw [hx.now]
    exact hs
  · rw [hx.view]
    exact hs

/-- Routines that keep the invariant by themselves keep it when they run one after the
    other. -/
theorem Serial.alone_invariant {routine : J → Routine σ ω Ans ε α}
    {guard : J → σ → List ω → Prop} {start : σ → Prop} (hstart : ∀ s, start s → I s)
    (hjobs : ∀ j s, I s → (routine j).alone S I (fun _ _ => True) (.init s))
    (hs : Serial S (fun j => (routine j).run) guard start s) : I s := by
  refine hs.invariant (K := fun _ => keeping S I) (Q := fun _ _ _ => True)
    (fun _ => Contract.plain_total _ _) hstart ?_ fun _ _ _ _ _ h _ => h
  intro j s hI _
  refine Prog.wp_mono ?_ (hjobs j s hI)
  exact fun _ _ _ => trivial

/-- A routine need keep the invariant only if its guard admits some commit of it on the state
    it starts on. -/
theorem Serial.alone_guarded {routine : J → Routine σ ω Ans ε α}
    {guard : J → σ → List ω → Prop} {start : σ → Prop} (hstart : ∀ s, start s → I s)
    (hjobs : ∀ j s, I s → (routine j).alone S (fun t => (∃ ws ≠ [], guard j s ws) → I t)
      (fun _ _ => True) (.init s))
    (hs : Serial S (fun j => (routine j).run) guard start s) : I s := by
  induction hs with
  | init h => exact hstart _ h
  | @run s j ch _ hguard ih =>
    -- Either nothing has been committed, or the first commit was on `s`.
    have hfinal : ((routine j).run.alone S ch (.init s)).2.now = s ∨
        (∃ ws ≠ [], guard j s ws) ∧ I ((routine j).run.alone S ch (.init s)).2.now := by
      refine (Prog.alone_invariant (I := fun t => t = s ∨ (∃ ws ≠ [], guard j s ws) ∧ I t)
        (Contract.plain_total _ _) (hjobs j s ih) (Or.inl rfl) ?_).1
      intro y ws hmem hne hG hI
      have hadmitted : ∃ ws ≠ [], guard j s ws := by
        rcases hI with hsame | ⟨hadmitted, -⟩
        · have hhere := hguard _ hmem
          rw [hsame] at hhere
          exact ⟨ws, hne, hhere⟩
        · exact hadmitted
      exact Or.inr ⟨hadmitted, hG hadmitted⟩
    rcases hfinal with hsame | ⟨-, hI⟩
    · rw [hsame]
      exact ih
    · exact hI

end Transactions
