import Lopay.Transactions.Counting

/-!
# What row locks let a program know

Between two statements of a transaction the others may commit anything that needs none of
its locks. `Holding` says what the program knows all the same: a steady property of all that
it has seen, one state that it remembers, and a property of the committed state that its locks
protect. The rules carry this through the steps of a program up to its commit.
-/

namespace Transactions

variable {σ ω κ ι : Type} {Ans : ι → Type} {α β ε : Type}

/-- The program has the open transaction `tx` and has seen `c`; it knows `J` of what it has seen,
    and `P` of what is committed for as long as it holds its locks. -/
structure Holding (S : Store σ ω κ) (agree : κ → σ → σ → Prop) (J : Ctx σ ω Ans → Prop) (c : σ)
    (tx : Option (List ω)) (P : σ → Prop) (x : Ctx σ ω Ans) : Prop where
  begun : x.tx = tx
  knows : J x
  remembers : c ∈ x.seen
  holds : P x.now
  keeps : ∀ s t, (∀ k ∈ S.locksOf (tx.getD []), agree k s t) → P s → P t

variable {S : Store σ ω κ} {agree : κ → σ → σ → Prop} {J : Ctx σ ω Ans → Prop} {c : σ}
  {tx : Option (List ω)} {ws : List ω} {P Q : σ → Prop} {x y : Ctx σ ω Ans}
  {R G G' : Ctx σ ω Ans → List ω → Prop}

namespace Holding

theorem pending (h : Holding S agree J c tx P x) : x.pending = tx.getD [] := by
  rw [Ctx.pending, h.begun]

theorem view (h : Holding S agree J c tx P x) : x.view S = S.applyAll (tx.getD []) x.now := by
  rw [Ctx.view, h.pending]

theorem drift (hF : S.Frame agree) (hJ : Steady S R J) (h : Holding S agree J c tx P x)
    (hd : Drift S R x y) : Holding S agree J c tx P y where
  begun := hd.tx_eq.trans h.begun
  knows := hJ.drift h.knows hd
  remembers := hd.seen_subset c h.remembers
  holds := by
    refine h.keeps _ _ (fun k hk => hF.locked hd ?_) h.holds
    rw [Ctx.locks, h.pending]
    exact hk
  keeps := h.keeps

/-- A step that commits nothing and leaves the transaction as it is. -/
theorem moved (hJ : Steady S R J) (h : Holding S agree J c tx P x) (htx : y.tx = x.tx)
    (hnow : y.now = x.now) (hpast : y.past = x.past) : Holding S agree J c tx P y where
  begun := htx.trans h.begun
  knows := hJ.moved h.knows hnow hpast
  remembers := by
    rw [Ctx.seen, hnow, hpast]
    exact h.remembers
  holds := by rw [hnow]; exact h.holds
  keeps := h.keeps

/-- Remember what is committed now instead. -/
theorem fresh (h : Holding S agree J c tx P x) : Holding S agree J x.now tx P x :=
  { h with remembers := List.mem_cons_self }

/-- Writes inside a transaction, and what their locks protect. -/
theorem wrote (hJ : Steady S R J) (h : Holding S agree J c (some ws) P x) {v : List ω}
    (hQ : Q x.now) (hkeep : ∀ s t, (∀ k ∈ S.locksOf (ws ++ v), agree k s t) → Q s → Q t) :
    Holding S agree J c (some (ws ++ v)) (fun s => P s ∧ Q s) (x.wrote S v) := by
  have hw : x.wrote S v = { x with tx := some (ws ++ v), ran := x.ran + 1 } := by
    unfold Ctx.wrote
    rw [h.begun]
  rw [hw]
  refine ⟨rfl, hJ.moved h.knows rfl rfl, h.remembers, ⟨h.holds, hQ⟩, ?_⟩
  rintro s t hlocks ⟨hp, hq⟩
  refine ⟨h.keeps s t (fun k hk => hlocks k ?_) hp, hkeep s t hlocks hq⟩
  rw [Option.getD_some, Store.locksOf_append]
  exact List.mem_append_left _ hk

/-- Writes whose locks are not needed. -/
theorem wrote_beside (hJ : Steady S R J) (h : Holding S agree J c (some ws) P x) (v : List ω) :
    Holding S agree J c (some (ws ++ v)) P (x.wrote S v) := by
  have hw := h.wrote hJ (v := v) (Q := fun _ => True) trivial fun _ _ _ h => h
  exact { hw with holds := hw.holds.1, keeps := fun s t hl hp => (hw.keeps s t hl ⟨hp, trivial⟩).1 }

theorem wrote_nil (hJ : Steady S R J) (h : Holding S agree J c tx P x) :
    Holding S agree J c tx P (x.wrote S []) := by
  refine h.moved hJ ?_ ?_ ?_
  · rw [Ctx.wrote_tx]
    cases x.tx with
    | none => rfl
    | some ws => rw [Option.map_some, List.append_nil]
  · rw [Ctx.wrote_now, Ctx.released_nil, Store.applyAll_nil]
  · unfold Ctx.wrote
    cases x.tx <;> rfl

/-! ### Rules -/

section Rules

variable (hF : S.Frame agree) (hJ : Steady S R J)
  {ok : α → Ctx σ ω Ans → Prop} {err : ε → Ctx σ ω Ans → Prop}

include hF hJ

theorem ask (hx : Holding S agree J c tx P x) {call : ι} {ok : Ans call → Ctx σ ω Ans → Prop}
    (h : ∀ a y, Holding S agree J c tx P y → ok a y) :
    (Routine.ask call : Routine σ ω Ans ε (Ans call)).wp S (counting R G G') ok err x :=
  Routine.wp_ask fun _ hd => ⟨trivial, fun a _ => h a _ ((hx.drift hF hJ hd).moved hJ rfl rfl rfl)⟩

/-- A read; the state that it reads is remembered instead. -/
theorem read (hx : Holding S agree J c tx P x) {fault : ε} {q : σ → α}
    (herr : ∀ e y, Holding S agree J c tx P y → err e y)
    (h : ∀ s y, P s → Holding S agree J s tx P y → ok (q (S.applyAll (tx.getD []) s)) y) :
    (Routine.query fault q : Routine σ ω Ans ε α).wp S (counting R G G') ok err x := by
  apply Routine.wp_query
  intro y hd
  have hy := hx.drift hF hJ hd
  refine ⟨fun _ => herr _ _ (hy.moved hJ rfl rfl rfl), ?_⟩
  rw [hy.view]
  exact h y.now _ hy.holds (hy.fresh.wrote_nil hJ)

/-- A read of something that does not matter. -/
theorem look (hx : Holding S agree J c tx P x) {fault : ε} {q : σ → α}
    (herr : ∀ e y, Holding S agree J c tx P y → err e y)
    (h : ∀ a y, Holding S agree J c tx P y → ok a y) :
    (Routine.query fault q : Routine σ ω Ans ε α).wp S (counting R G G') ok err x := by
  apply Routine.wp_query
  intro y hd
  have hy := hx.drift hF hJ hd
  exact ⟨fun _ => herr _ _ (hy.moved hJ rfl rfl rfl), h _ _ (hy.wrote_nil hJ)⟩

/-- A statement inside a transaction. -/
theorem inside (hx : Holding S agree J c (some ws) P x) {fault : ε}
    {f : σ → Except ε (α × List ω)}
    (herr : ∀ e y, Holding S agree J c (some ws) P y → err e y)
    (h : ∀ a v y, Holding S agree J c (some ws) P y → f (S.applyAll ws y.now) = .ok (a, v) →
      ok a (y.wrote S v)) :
    (Routine.exec fault f : Routine σ ω Ans ε α).wp S (counting R G G') ok err x := by
  apply Routine.wp_exec
  intro y hd
  have hy := hx.drift hF hJ hd
  rw [hy.view]
  refine ⟨fun _ => herr _ _ (hy.moved hJ rfl rfl rfl), fun _ _ => herr _ _ (hy.wrote_nil hJ),
    fun a v hf => ⟨fun hne => ?_, fun _ => h a v y hy hf⟩⟩
  rw [Ctx.released, hy.begun] at hne
  exact absurd rfl hne

/-- A statement that is committed at once. -/
theorem outside (hx : Holding S agree J c none (fun _ => True) x) {fault : ε}
    {f : σ → Except ε (α × List ω)}
    (herr : ∀ e y, Holding S agree J c none (fun _ => True) y → err e y)
    (h : ∀ a v y, J y → c ∈ y.seen → f y.now = .ok (a, v) →
      (v ≠ [] → G y v → G' y v ∧ J (y.see S v)) ∧
      ∀ z, Holding S agree J c none (fun _ => True) z → ok a z) :
    (Routine.exec fault f : Routine σ ω Ans ε α).wp S (counting R G G') ok err x := by
  apply Routine.wp_exec
  intro y hd
  have hy := hx.drift hF hJ hd
  have hview : y.view S = y.now := hy.view
  rw [hview]
  refine ⟨fun _ => herr _ _ (hy.moved hJ rfl rfl rfl), fun _ _ => herr _ _ (hy.wrote_nil hJ),
    fun a v hf => ?_⟩
  obtain ⟨hcommit, hok⟩ := h a v y hy.knows hy.remembers hf
  rw [Ctx.released_outside hy.begun]
  refine ⟨fun hne hG => (hcommit hne hG).1, fun hG => hok _ ⟨?_, ?_, ?_, trivial, fun _ _ _ h => h⟩⟩
  · rw [Ctx.wrote_tx, hy.begun]
    rfl
  · apply hJ.wrote hy.knows
    rw [Ctx.released_outside hy.begun]
    exact fun hne => (hcommit hne (hG hne)).2
  · unfold Ctx.wrote
    rw [hy.begun]
    exact Tracks.mem_seen_see (x := { y with tx := none, ran := y.ran + 1 }) hy.remembers v

/-- A transaction all of whose commits satisfy the guarantee. -/
theorem transaction (hx : Holding S agree J c none P x) {fault : ε} {body : Routine σ ω Ans ε α}
    (herr : ∀ e y, J y → y.tx = none → err e y)
    (hok : ∀ a y, J y → y.tx = none → ok a y)
    (hbody : ∀ y, Holding S agree J c (some []) P y → body.wp S (counting R G G')
      (fun _ z => ∃ c ws Q, Holding S agree J c (some ws) Q z ∧
        ∀ u, J u → c ∈ u.seen → Q u.now → G u ws → G' u ws ∧ J (u.see S ws))
      (fun _ z => J z) y) :
    (Routine.transaction fault body).wp S (counting R G G') ok err x := by
  apply Routine.wp_transaction
  intro y hd
  have hopened : Holding S agree J c (some []) P y.opened := by
    obtain ⟨-, hknows, hremembers, hholds, hkeeps⟩ := hx.drift hF hJ hd
    exact ⟨rfl, hJ.moved hknows rfl rfl, hremembers, hholds, hkeeps⟩
  refine Routine.wp_mono ?_ ?_ (hbody y.opened hopened)
  · rintro a z ⟨c', ws, Q, hz, hcommit⟩ u hu
    have hknown := hz.drift hF hJ hu
    have hmine := hcommit u hknown.knows hknown.remembers hknown.holds
    have hpending : u.pending = ws := hknown.pending
    rw [hpending]
    refine ⟨fun _ => herr _ _ (hJ.moved hknown.knows rfl rfl) rfl, fun _ hG => (hmine hG).1,
      fun hG => hok _ _ (hJ.committed hknown.knows fun hne => (hmine (hG hne)).2) ?_⟩
    rw [Ctx.see_tx]
    rfl
  · intro e z hz u hu
    exact herr e _ (hJ.moved (hJ.drift hz hu) rfl rfl) rfl

end Rules

end Holding

end Transactions
