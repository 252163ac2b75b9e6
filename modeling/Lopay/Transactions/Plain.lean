import Lopay.Transactions.Local

/-!
# Programs without transactions

Each statement of such a program is a commit of its own, and runs on the committed state.
If every write locks the whole store, what a step commits is what one statement does there.
-/

namespace Transactions

variable {σ ω κ ι J : Type} {Ans : ι → Type} {α β ε : Type} {S : Store σ ω κ}

/-- No transaction is open. -/
structure Trace.Plain (τ : Trace σ ω Ans) : Prop where
  inside : τ.inside = false
  done : τ.done = []

theorem Trace.Plain.ran {τ : Trace σ ω Ans} (h : τ.Plain) (v : σ) (ws : List ω) :
    (τ.ran v ws).Plain := by
  rw [Trace.ran_outside h.inside]
  exact ⟨h.inside, h.done⟩

/-- The routine opens no transaction and its statements obey `P`. A class, so that it is
    found by following the program. -/
class Routine.Plain (P : σ → List ω → Prop) (m : Routine σ ω Ans ε α) : Prop where
  obeys : ∀ τ, τ.Plain → m.obeys (fun τ v ws => τ.Plain ∧ P v ws) (fun _ => Trace.Plain)
    (fun _ => Trace.Plain) τ

namespace Routine.Plain

variable {P : σ → List ω → Prop} {m n : Routine σ ω Ans ε α}

instance pure (a : α) : Routine.Plain P (pure a : Routine σ ω Ans ε α) := ⟨fun _ h => h⟩

instance throw (e : ε) : Routine.Plain P (throw e : Routine σ ω Ans ε α) := ⟨fun _ h => h⟩

instance bind {f : α → Routine σ ω Ans ε β} [h : Routine.Plain P m]
    [hf : ∀ a, Routine.Plain P (f a)] : Routine.Plain P (m >>= f) := by
  constructor
  intro τ hτ
  apply obeys_bind
  exact obeys_mono (fun a τ' hτ' => (hf a).obeys τ' hτ') (fun _ _ h => h) (h.obeys τ hτ)

/-- The rule of `bind`, for a continuation that has to be looked into. -/
theorem andThen [Routine.Plain P m] {f : α → Routine σ ω Ans ε β}
    (hf : ∀ a, Routine.Plain P (f a)) : Routine.Plain P (m >>= f) := bind

instance map {f : α → β} [h : Routine.Plain P m] : Routine.Plain P (f <$> m) := by
  rw [map_eq_pure_bind]
  exact bind

instance tryCatch {handler : ε → Routine σ ω Ans ε α} [h : Routine.Plain P m]
    [hh : ∀ e, Routine.Plain P (handler e)] : Routine.Plain P (tryCatch m handler) := by
  constructor
  intro τ hτ
  apply obeys_tryCatch
  exact obeys_mono (fun _ _ h => h) (fun e τ' hτ' => (hh e).obeys τ' hτ') (h.obeys τ hτ)

instance throwIf (c : Prop) [Decidable c] (e : ε) :
    Routine.Plain P (throwIf c e : Routine σ ω Ans ε Unit) :=
  ⟨fun _ hτ => obeys_throwIf (fun _ => hτ) (fun _ => hτ)⟩

instance orThrow (o : Option α) (e : ε) :
    Routine.Plain P (orThrow o e : Routine σ ω Ans ε α) :=
  ⟨fun _ hτ => obeys_orThrow (fun _ => hτ) (fun _ _ => hτ)⟩

instance ite {c : Prop} [Decidable c] [h : Routine.Plain P m] [h' : Routine.Plain P n] :
    Routine.Plain P (if c then m else n) :=
  ⟨fun τ hτ => obeys_ite (fun _ => h.obeys τ hτ) (fun _ => h'.obeys τ hτ)⟩

instance mapM {f : β → Routine σ ω Ans ε α} {l : List β} [h : ∀ b, Routine.Plain P (f b)] :
    Routine.Plain P (l.mapM f) := by
  constructor
  intro τ hτ
  exact obeys_mapM hτ (fun b _ τ' hτ' => (h b).obeys τ' hτ') fun _ _ hτ' => hτ'

instance ask (c : ι) : Routine.Plain P (ask c : Routine σ ω Ans ε (Ans c)) :=
  ⟨fun _ hτ _ => ⟨hτ.inside, hτ.done⟩⟩

theorem exec {fault : ε} {f : σ → Except ε (α × List ω)}
    (h : ∀ v a ws, f v = .ok (a, ws) → P v ws) (hnil : ∀ v, P v []) :
    Routine.Plain P (exec fault f : Routine σ ω Ans ε α) := by
  constructor
  intro τ hτ
  refine ⟨hτ, fun v => ?_⟩
  cases hf : f v with
  | error e =>
    simp only [hf]
    exact ⟨⟨hτ, hnil v⟩, hτ.ran v []⟩
  | ok r =>
    obtain ⟨a, ws⟩ := r
    simp only [hf]
    exact ⟨⟨hτ, h v a ws hf⟩, hτ.ran v ws⟩

theorem query {fault : ε} {q : σ → α} (hnil : ∀ v, P v []) :
    Routine.Plain P (query fault q : Routine σ ω Ans ε α) := by
  apply exec _ hnil
  intro v a ws hf
  obtain ⟨-, rfl⟩ := Prod.mk.inj (Except.ok.inj hf)
  exact hnil v

end Routine.Plain

/-- Every write locks the whole store. -/
structure Store.Whole (S : Store σ ω κ) (agree : κ → σ → σ → Prop) : Prop where
  frame : S.Frame agree
  congr : ∀ k ws s t, agree k s t → agree k (S.applyAll ws s) (S.applyAll ws t)
  locked : ∀ w, ∃ k ∈ S.locks w, ∀ s t, agree k s t → s = t

variable [DecidableEq κ] {agree : κ → σ → σ → Prop} {routine : J → Routine σ ω Ans ε α}
  {guard : Sys J σ ω Ans (Except ε α) → Event J Ans → Sys J σ ω Ans (Except ε α) → Prop}
  {start : σ → Prop}

/-- A step commits nothing, or what one statement of the mover does on the committed state. -/
theorem Sys.Reach.plain (hS : S.Whole agree) {P : J → σ → List ω → Prop}
    (hjobs : ∀ j, (routine j).Plain (P j)) {s s' : Sys J σ ω Ans (Except ε α)}
    (hs : Sys.Reach S (fun j => (routine j).run) guard start s) {e : Event J Ans}
    (hstep : s.step S (fun j => (routine j).run) e = some s') (hguard : guard s e s') :
    s'.store = s.store ∨ ∃ p ws, s.mover? e = some p ∧ P p.job s.store ws ∧
      s'.store = S.applyAll ws s.store := by
  have hobeys (t : Sys J σ ω Ans (Except ε α)) (j : J) (t' : Sys J σ ω Ans (Except ε α))
      (_ : guard t (.spawn j) t') : (routine j).run.obeys
        (fun τ v ws => τ.Plain ∧ P j v ws) (fun _ _ => True) .nil := by
    refine Prog.obeys_mono ?_ ((hjobs j).obeys .nil ⟨rfl, rfl⟩)
    exact fun _ _ _ => trivial
  rcases hs.obeys hS.frame hS.congr (L := fun j τ v ws => τ.Plain ∧ P j v ws) hobeys hstep hguard
    with hsame | hmoved
  · exact Or.inl hsame
  obtain ⟨pid, ch, p, τ, done, rfl, hp, -, -, hreplays, hstore⟩ := hmoved
  cases hreplays with
  | nil => exact Or.inl hstore
  | @snoc done v ws _ hlaw hrows =>
    -- With no transaction open nothing was done before the statement.
    obtain ⟨τ', -, rfl, hplain, hP⟩ := hlaw
    rw [hplain.done, List.nil_append, writesOf_singleton] at hstore
    rw [hplain.done] at hrows
    cases ws with
    | nil => exact Or.inl hstore
    | cons w ws =>
      obtain ⟨k, hk, hwhole⟩ := hS.locked w
      have hnow : v = s.store := by
        apply hwhole _ _ (hrows k _)
        rw [Store.locksOf_cons]
        exact List.mem_append_left _ hk
      rw [hnow] at hP
      exact Or.inr ⟨p, w :: ws, hp, hP, hstore⟩

/-! ### What such a program leaves open -/

section Rests

variable {K : Contract σ ω Ans}

/-- The contract asks nothing of a program. -/
structure Contract.Free (K : Contract σ ω Ans) : Prop where
  guarantee : ∀ y ws, K.guarantee y ws
  asks : ∀ y c, K.asks y c

omit [DecidableEq κ] in
/-- A program ends in what it obeys its law to, and has a transaction open where that says so. -/
theorem Prog.obeys_rests (hK : K.Free) {L : Trace σ ω Ans → σ → List ω → Prop}
    {Q : α → Trace σ ω Ans → Prop} {p : Prog σ ω Ans α} {τ : Trace σ ω Ans} {x : Ctx σ ω Ans}
    (h : p.obeys L Q τ) (hx : x.tx.isSome = τ.inside) :
    p.wp S K (fun a y => ∃ τ', Q a τ' ∧ y.tx.isSome = τ'.inside) x := by
  induction p generalizing τ x with
  | ret a => exact ⟨τ, h, hx⟩
  | call c k ih =>
    intro y hy
    exact ⟨hK.asks y c, fun a _ => ih a (h a) (hy.tx_eq ▸ hx)⟩
  | start k ih => exact fun y _ => ih h rfl
  | rollback k ih => exact fun y _ => ih h rfl
  | commit k ih =>
    intro y _
    refine ⟨fun _ => ih false (h false) rfl, fun _ _ => hK.guarantee y _, fun _ => ih true (h true) ?_⟩
    rw [Ctx.see_tx]
    rfl
  | stmt w k ih =>
    intro y hy
    have hopen : y.tx.isSome = τ.inside := hy.tx_eq ▸ hx
    refine ⟨fun _ => ih none h.1 hopen, fun _ _ => hK.guarantee y _,
      fun _ => ih _ (h.2 (y.view S)).2 ?_⟩
    rw [Ctx.wrote_tx, Option.isSome_map, Trace.ran_inside]
    exact hopen

omit [DecidableEq κ] in
/-- A routine without transactions leaves none open. -/
theorem Routine.Plain.rests {P : σ → List ω → Prop} {m : Routine σ ω Ans ε α} (h : m.Plain P)
    (hK : K.Free) {x : Ctx σ ω Ans} (hx : x.tx = none) :
    m.wp S K (fun _ y => y.tx = none) (fun _ y => y.tx = none) x := by
  have hplain := h.obeys .nil ⟨rfl, rfl⟩
  refine Prog.wp_mono ?_ (Prog.obeys_rests hK hplain (x := x) (by rw [hx]; rfl))
  rintro r y ⟨τ, hτ, hy⟩
  have hnone : y.tx.isSome = false := by
    cases r with
    | ok a => exact hy.trans hτ.inside
    | error e => exact hy.trans hτ.inside
  have hclosed : y.tx = none := by simpa using hnone
  cases r with
  | ok a => exact hclosed
  | error e => exact hclosed

omit [DecidableEq κ] in
/-- A head without transactions, before what has to be looked into. -/
theorem Routine.Plain.heads {P : σ → List ω → Prop} {m : Routine σ ω Ans ε α} (h : m.Plain P)
    (hK : K.Free) {x : Ctx σ ω Ans} (hx : x.tx = none) {f : α → Routine σ ω Ans ε β}
    {ok : β → Ctx σ ω Ans → Prop} (hf : ∀ a y, y.tx = none → (f a).wp S K ok (fun _ _ => True) y) :
    (m >>= f).wp S K ok (fun _ _ => True) x := by
  apply wp_bind
  exact wp_mono hf (fun _ _ _ => trivial) (h.rests hK hx)

end Rests

end Transactions
