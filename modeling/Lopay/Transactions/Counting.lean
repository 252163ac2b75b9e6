import Lopay.Transactions.Local
import Lopay.Transactions.Runs

/-!
# Contracts on top of each other

A program that is known to keep one contract can be shown to keep a second one counting on
the first: every commit of its own is then known to satisfy the first guarantee. A part of
such a program of which only the statements matter, and not what it learns, is taken in one
piece by `Prog.obeys_counting`.
-/

namespace Transactions

variable {σ ω κ ι : Type} {Ans : ι → Type} {α ε : Type} {S : Store σ ω κ}
variable {R G G' : Ctx σ ω Ans → List ω → Prop} {x y : Ctx σ ω Ans}

/-- The contract of a program whose commits are known to satisfy `G`. -/
def counting (R G G' : Ctx σ ω Ans → List ω → Prop) : Contract σ ω Ans where
  rely := R
  answers := fun _ _ _ => True
  faults := fun _ => True
  admits := G
  guarantee := G'
  asks := fun _ _ => True

/-- Both contracts are kept. -/
theorem Prog.wp_both {Q Q' : α → Ctx σ ω Ans → Prop} {p : Prog σ ω Ans α}
    (h : p.wp S (.plain R G) Q x) (h' : p.wp S (counting R G G') Q' x) :
    p.wp S (.plain R fun y ws => G y ws ∧ G' y ws) (fun a y => Q a y ∧ Q' a y) x := by
  induction p generalizing x with
  | ret a => exact ⟨h, h'⟩
  | call c k ih =>
    intro y hy
    exact ⟨trivial, fun a ha => ih a ((h y hy).2 a ha) ((h' y hy).2 a ha)⟩
  | start k ih => exact fun y hy => ih (h y hy) (h' y hy)
  | rollback k ih => exact fun y hy => ih (h y hy) (h' y hy)
  | commit k ih =>
    intro y hy
    obtain ⟨hfail, hG, hok⟩ := h y hy
    obtain ⟨hfail', hG', hok'⟩ := h' y hy
    have hmine : y.pending ≠ [] → G y y.pending := fun hne => hG hne trivial
    refine ⟨fun hf => ih false (hfail hf) (hfail' hf), fun hne _ => ⟨hmine hne, ?_⟩,
      fun _ => ih true (hok fun _ => trivial) (hok' hmine)⟩
    exact hG' hne (hmine hne)
  | stmt w k ih =>
    intro y hy
    obtain ⟨hfail, hG, hok⟩ := h y hy
    obtain ⟨hfail', hG', hok'⟩ := h' y hy
    have hmine : y.released (w (y.view S)) ≠ [] → G y (y.released (w (y.view S))) :=
      fun hne => hG hne trivial
    refine ⟨fun hf => ih none (hfail hf) (hfail' hf), fun hne _ => ⟨hmine hne, ?_⟩,
      fun _ => ih _ (hok fun _ => trivial) (hok' hmine)⟩
    exact hG' hne (hmine hne)

/-- How the program ends is known from both. -/
theorem Routine.wp_with {m : Routine σ ω Ans ε α} {ok ok' : α → Ctx σ ω Ans → Prop}
    {err err' : ε → Ctx σ ω Ans → Prop} (h : m.wp S (.plain R G) ok err x)
    (h' : m.wp S (counting R G G') ok' err' x) :
    m.wp S (counting R G G') (fun a y => ok a y ∧ ok' a y) (fun _ _ => True) x := by
  refine Prog.wp_weaken ?_ ?_ (Prog.wp_both h h')
  · exact ⟨fun _ _ h => h, fun _ _ _ h => h, fun _ h => h, fun _ _ _ => trivial,
      fun _ _ h => h.2, fun _ _ h => h⟩
  · intro r y hr
    cases r with
    | ok a => exact hr
    | error e => exact trivial

/-! ### What has been seen -/

/-- A property of what has been seen that the others keep. -/
structure Steady (S : Store σ ω κ) (R : Ctx σ ω Ans → List ω → Prop) (J : Ctx σ ω Ans → Prop) :
    Prop where
  moved : ∀ {x y : Ctx σ ω Ans}, J x → y.now = x.now → y.past = x.past → J y
  see : ∀ {y : Ctx σ ω Ans} {ws : List ω}, R y ws → J y → J (y.see S ws)

namespace Steady

variable {J : Ctx σ ω Ans → Prop} (hJ : Steady S R J)

include hJ

theorem drift (h : J x) (hd : Drift S R x y) : J y := by
  induction hd with
  | refl => exact h
  | step ws _ _ hR _ ih => exact hJ.see hR ih

/-- Writes that are committed at once if no transaction is open. -/
theorem wrote (h : J x) {ws : List ω} (hown : x.released ws ≠ [] → J (x.see S (x.released ws))) :
    J (x.wrote S ws) := by
  unfold Ctx.wrote
  cases htx : x.tx with
  | some pending => exact hJ.moved h rfl rfl
  | none =>
    rw [Ctx.released_outside htx] at hown
    cases ws with
    | nil => exact hJ.moved h rfl rfl
    | cons w ws => exact hJ.moved (hown (List.cons_ne_nil w ws)) rfl rfl

theorem committed (h : J x) {ws : List ω} (hown : ws ≠ [] → J (x.see S ws)) :
    J (x.closed.see S ws) := by
  cases ws with
  | nil => exact hJ.moved h rfl rfl
  | cons w ws => exact hJ.moved (hown (List.cons_ne_nil w ws)) rfl rfl

end Steady

/-- A commit that keeps `B` adds a state that satisfies it. -/
theorem Ctx.all_seen_see {B : σ → Prop} (h : ∀ s ∈ x.seen, B s) {ws : List ω}
    (hkeep : B x.now → B (S.applyAll ws x.now)) : ∀ s ∈ (x.see S ws).seen, B s := by
  intro s hs
  rcases Ctx.seen_see hs with rfl | hs
  · exact hkeep (h x.now List.mem_cons_self)
  · exact h s hs

theorem Steady.always {B : σ → Prop}
    (hrely : ∀ y ws, R y ws → B y.now → B (S.applyAll ws y.now)) :
    Steady S R fun y => ∀ s ∈ y.seen, B s where
  moved := by
    intro x y h hnow hpast
    rw [Ctx.seen, hnow, hpast]
    exact h
  see := fun hR h => Ctx.all_seen_see h (hrely _ _ hR)

/-- All that the program has seen satisfies `B` and has led to what is committed now. -/
structure Ctx.Seeing (B : σ → Prop) (P : σ → σ → Prop) (x : Ctx σ ω Ans) : Prop where
  seen : ∀ s ∈ x.seen, B s ∧ P s x.now

/-- What `P` is like: it leads from states that satisfy `B` to states that do. -/
structure Leading (B : σ → Prop) (P : σ → σ → Prop) : Prop where
  trans : ∀ s t u, P s t → P t u → P s u
  leads : ∀ s t, B s → P s t → B t

/-- A step that `P` allows. -/
def Leap (P : σ → σ → Prop) (s t : σ) : Prop := P s t ∧ P t t

variable {B : σ → Prop} {P : σ → σ → Prop}

namespace Ctx.Seeing

theorem now (h : x.Seeing B P) : B x.now := (h.seen x.now List.mem_cons_self).1

theorem since (h : x.Seeing B P) {s : σ} (hs : s ∈ x.seen) : P s x.now := (h.seen s hs).2

/-- The same states have been seen. -/
theorem moved (h : x.Seeing B P) (hnow : y.now = x.now) (hpast : y.past = x.past) :
    y.Seeing B P := by
  constructor
  intro s hs
  rw [hnow]
  refine h.seen s ?_
  rw [Ctx.seen, hnow, hpast] at hs
  exact hs

theorem see (hP : Leading B P) (h : x.Seeing B P) {ws : List ω}
    (hleap : ws ≠ [] → Leap P x.now (S.applyAll ws x.now)) : (x.see S ws).Seeing B P := by
  cases ws with
  | nil => exact h
  | cons w ws =>
    obtain ⟨hstep, hafter⟩ := hleap (List.cons_ne_nil w ws)
    constructor
    intro s hs
    rcases List.mem_cons.mp hs with rfl | hs
    · exact ⟨hP.leads _ _ h.now hstep, hafter⟩
    · exact ⟨(h.seen s hs).1, hP.trans _ _ _ (h.since hs) hstep⟩

theorem steady (hP : Leading B P)
    (hrely : ∀ y ws, R y ws → y.Seeing B P → Leap P y.now (S.applyAll ws y.now)) :
    Steady S R (Ctx.Seeing B P) where
  moved := moved
  see := fun hR h => h.see hP fun _ => hrely _ _ hR h

end Ctx.Seeing

/-! ### Parts of which only the statements matter -/

variable {J : Ctx σ ω Ans → Prop} {agree : κ → σ → σ → Prop}
  {L : Trace σ ω Ans → σ → List ω → Prop} {τ : Trace σ ω Ans}

/-- A program whose statements obey a law keeps a guarantee that the law implies for what it
    commits. -/
theorem Prog.obeys_counting (hF : S.Frame agree)
    (hcongr : ∀ k ws s t, agree k s t → agree k (S.applyAll ws s) (S.applyAll ws t))
    (hJ : Steady S R J)
    (hcommit : ∀ τ y done, Replays S agree L τ y.now done → (∀ c ∈ τ.read, c ∈ y.seen) → J y →
      G y (writesOf done) → G' y (writesOf done) ∧ J (y.see S (writesOf done)))
    {p : Prog σ ω Ans α} {Q : α → Trace σ ω Ans → Prop} (h : p.obeys L Q τ)
    (hτ : Tracks S agree L τ x) (hx : J x) :
    p.wp S (counting R G G') (fun _ => J) x := by
  induction p generalizing τ x with
  | ret a => exact hx
  | call c k ih =>
    intro y hy
    have hτ' := hτ.drift hF hcongr hy
    have hx' := hJ.drift hx hy
    refine ⟨trivial, fun a _ => ih a (h a) ⟨?_, hτ'.read, hτ'.tx, hτ'.fresh, ?_⟩
      (hJ.moved hx' rfl rfl)⟩
    · exact congrArg (List.cons _) hτ'.log
    · exact hτ'.replays.within (.answered τ c a)
  | start k ih =>
    intro y hy
    have hτ' := hτ.drift hF hcongr hy
    exact ih h ⟨hτ'.log, hτ'.read, rfl, fun _ => rfl, .nil⟩
      (hJ.moved (hJ.drift hx hy) rfl rfl)
  | rollback k ih =>
    intro y hy
    have hτ' := hτ.drift hF hcongr hy
    exact ih h (.outside hτ'.log hτ'.read rfl rfl rfl) (hJ.moved (hJ.drift hx hy) rfl rfl)
  | commit k ih =>
    intro y hy
    have hτ' := hτ.drift hF hcongr hy
    have hx' := hJ.drift hx hy
    have hmine := hcommit τ y τ.done hτ'.replays hτ'.read hx'
    rw [← hτ'.pending] at hmine
    refine ⟨fun _ => ih false (h false) (.outside hτ'.log hτ'.read rfl rfl rfl)
      (hJ.moved hx' rfl rfl), fun _ hG => (hmine hG).1,
      fun hG => ih true (h true) (.outside ?_ ?_ rfl rfl ?_) ?_⟩
    · rw [Ctx.see_log]
      exact hτ'.log
    · exact fun s hs => Tracks.mem_seen_see (x := y.closed) (hτ'.read s hs) _
    · rw [Ctx.see_tx]
      rfl
    · exact hJ.committed hx' fun hne => (hmine (hG hne)).2
  | stmt w k ih =>
    intro y hy
    have hτ' := hτ.drift hF hcongr hy
    have hx' := hJ.drift hx hy
    obtain ⟨hfault, hok⟩ := h
    obtain ⟨hL, hnext⟩ := hok (y.view S)
    have hmine : y.released (w (y.view S)) ≠ [] → G y (y.released (w (y.view S))) →
        G' y (y.released (w (y.view S))) ∧ J (y.see S (y.released (w (y.view S)))) := by
      intro hne hG
      cases hinside : τ.inside with
      | true =>
        have htx : y.tx = some (writesOf τ.done) := by rw [hτ'.tx, hinside]; rfl
        rw [Ctx.released, htx] at hne
        exact absurd rfl hne
      | false =>
        -- Outside a transaction the statement is the whole commit.
        have htx : y.tx = none := by rw [hτ'.tx, hinside]; rfl
        have hview : y.view S = y.now := by
          rw [hτ'.view, hτ'.fresh hinside]
          rfl
        rw [Ctx.released_outside htx, hview] at hG ⊢
        rw [hview] at hL
        have hnone : Replays S agree L τ y.now [] := .nil
        have hwhole := hcommit τ y [(y.now, w y.now)]
          (hnone.snoc ⟨τ, .refl τ, hτ'.fresh hinside, hL⟩ fun k _ => hF.refl k _) hτ'.read hx'
        rw [writesOf_singleton] at hwhole
        exact hwhole hG
    refine ⟨fun _ => ih none hfault ⟨hτ'.log, hτ'.read, hτ'.tx, hτ'.fresh, hτ'.replays⟩
      (hJ.moved hx' rfl rfl), fun hne hG => (hmine hne hG).1,
      fun hG => ih _ hnext (hτ'.wrote hF hL) ?_⟩
    exact hJ.wrote hx' fun hne => (hmine hne (hG hne)).2

/-- What every commit keeps is known all along. -/
theorem Prog.wp_steady {Q : α → Ctx σ ω Ans → Prop} {p : Prog σ ω Ans α} (hJ : Steady S R J)
    (hguarantee : ∀ y ws, G y ws → J y → J (y.see S ws)) (h : p.wp S (.plain R G) Q x)
    (hx : J x) : p.wp S (.plain R G) (fun a y => Q a y ∧ J y) x := by
  induction p generalizing x with
  | ret a => exact ⟨h, hx⟩
  | call c k ih =>
    intro y hy
    obtain ⟨hask, hans⟩ := h y hy
    exact ⟨hask, fun a ha => ih a (hans a ha) (hJ.moved (hJ.drift hx hy) rfl rfl)⟩
  | start k ih => exact fun y hy => ih (h y hy) (hJ.moved (hJ.drift hx hy) rfl rfl)
  | rollback k ih => exact fun y hy => ih (h y hy) (hJ.moved (hJ.drift hx hy) rfl rfl)
  | commit k ih =>
    intro y hy
    obtain ⟨hfail, hG, hok⟩ := h y hy
    have hx' := hJ.drift hx hy
    refine ⟨fun hf => ih false (hfail hf) (hJ.moved hx' rfl rfl), hG, fun ha => ih true (hok ha) ?_⟩
    exact hJ.committed hx' fun hne => hguarantee y _ (hG hne (ha hne)) hx'
  | stmt w k ih =>
    intro y hy
    obtain ⟨hfail, hG, hok⟩ := h y hy
    have hx' := hJ.drift hx hy
    refine ⟨fun hf => ih none (hfail hf) (hJ.moved hx' rfl rfl), hG, fun ha => ih _ (hok ha) ?_⟩
    exact hJ.wrote hx' fun hne => hguarantee y _ (hG hne (ha hne)) hx'

/-- The same under any contract. -/
theorem Prog.wp_throughout {K : Contract σ ω Ans} {Q : α → Ctx σ ω Ans → Prop}
    {p : Prog σ ω Ans α} (hJ : Steady S K.rely J)
    (hown : ∀ y ws, K.admits y ws → K.guarantee y ws → J y → J (y.see S ws))
    (h : p.wp S K Q x) (hx : J x) : p.wp S K (fun a y => Q a y ∧ J y) x := by
  induction p generalizing x with
  | ret a => exact ⟨h, hx⟩
  | call c k ih =>
    intro y hy
    rcases h y hy with ⟨hask, hans⟩
    exact ⟨hask, fun a ha => ih a (hans a ha) (hJ.moved (hJ.drift hx hy) rfl rfl)⟩
  | start k ih => exact fun y hy => ih (h y hy) (hJ.moved (hJ.drift hx hy) rfl rfl)
  | rollback k ih => exact fun y hy => ih (h y hy) (hJ.moved (hJ.drift hx hy) rfl rfl)
  | commit k ih =>
    intro y hy
    rcases h y hy with ⟨hfail, hG, hok⟩
    have hx' := hJ.drift hx hy
    refine ⟨fun hf => ih false (hfail hf) (hJ.moved hx' rfl rfl), hG, fun ha => ih true (hok ha) ?_⟩
    exact hJ.committed hx' fun hne => hown y _ (ha hne) (hG hne (ha hne)) hx'
  | stmt w k ih =>
    intro y hy
    rcases h y hy with ⟨hfail, hG, hok⟩
    have hx' := hJ.drift hx hy
    refine ⟨fun hf => ih none (hfail hf) (hJ.moved hx' rfl rfl), hG, fun ha => ih _ (hok ha) ?_⟩
    exact hJ.wrote hx' fun hne => hown y _ (ha hne) (hG hne (ha hne)) hx'

theorem Routine.wp_throughout {K : Contract σ ω Ans} {m : Routine σ ω Ans ε α}
    {ok : α → Ctx σ ω Ans → Prop} {err : ε → Ctx σ ω Ans → Prop} (hJ : Steady S K.rely J)
    (hown : ∀ y ws, K.admits y ws → K.guarantee y ws → J y → J (y.see S ws))
    (h : m.wp S K ok err x) (hx : J x) :
    m.wp S K (fun a y => ok a y ∧ J y) (fun e y => err e y ∧ J y) x := by
  refine Prog.wp_mono ?_ (Prog.wp_throughout hJ hown h hx)
  intro r y hr
  cases r with
  | ok a => exact hr
  | error e => exact hr

end Transactions
