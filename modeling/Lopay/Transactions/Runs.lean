import Lopay.Transactions.Soundness

/-!
# Runs from one system to another

`Sys.Leads` is the part of a run between two systems. What a process has been answered is
never forgotten on the way, and what it has seen is what has been committed.
-/

namespace Transactions

variable {σ ω κ ι J : Type} {Ans : ι → Type} {α : Type} {S : Store σ ω κ}

/-- A step forgets no answer. -/
theorem Prog.step_log {free : List κ → Bool} {ch : Choice Ans} {p : Prog σ ω Ans α}
    {x : Ctx σ ω Ans} {out : Stepped σ ω Ans α} (h : p.step S free ch x = some out) :
    ∀ a ∈ x.log, a ∈ out.ctx.log := by
  intro a ha
  cases p with
  | ret _ => cases h
  | call c k =>
    obtain rfl := Option.some.inj h
    exact List.mem_cons_of_mem _ ha
  | start k =>
    obtain rfl := Option.some.inj h
    exact ha
  | rollback k =>
    obtain rfl := Option.some.inj h
    exact ha
  | commit k =>
    simp only [Prog.step] at h
    split at h
    · obtain rfl := Option.some.inj h
      exact ha
    · obtain rfl := Option.some.inj h
      simp only [Ctx.see_log]
      exact ha
  | stmt w k =>
    simp only [Prog.step] at h
    split at h
    · obtain rfl := Option.some.inj h
      exact ha
    · split at h
      · obtain rfl := Option.some.inj h
        simp only [Ctx.wrote_log]
        exact ha
      · cases h

theorem Ctx.seen_see {x : Ctx σ ω Ans} {ws : List ω} {c : σ} (hc : c ∈ (x.see S ws).seen) :
    c = S.applyAll ws x.now ∨ c ∈ x.seen := by
  cases ws with
  | nil => exact Or.inr hc
  | cons w ws =>
    rcases List.mem_cons.mp hc with rfl | hc
    · exact Or.inl rfl
    · exact Or.inr hc

/-- A step sees what it commits and nothing else that is new. -/
theorem Prog.step_seen {free : List κ → Bool} {ch : Choice Ans} {p : Prog σ ω Ans α}
    {x : Ctx σ ω Ans} {out : Stepped σ ω Ans α} (h : p.step S free ch x = some out) :
    out.ctx.now = S.applyAll out.released x.now ∧
      ∀ c ∈ out.ctx.seen, c = S.applyAll out.released x.now ∨ c ∈ x.seen := by
  cases p with
  | ret _ => cases h
  | call c k | start k | rollback k =>
    obtain rfl := Option.some.inj h
    exact ⟨rfl, fun _ hc => Or.inr hc⟩
  | commit k =>
    simp only [Prog.step] at h
    split at h
    · obtain rfl := Option.some.inj h
      exact ⟨rfl, fun _ hc => Or.inr hc⟩
    · obtain rfl := Option.some.inj h
      exact ⟨Ctx.see_now S _ _, fun _ hc => Ctx.seen_see (x := x.closed) hc⟩
  | stmt w k =>
    simp only [Prog.step] at h
    split at h
    · obtain rfl := Option.some.inj h
      exact ⟨rfl, fun _ hc => Or.inr hc⟩
    · split at h
      · obtain rfl := Option.some.inj h
        refine ⟨Ctx.wrote_now S x _, fun c hc => ?_⟩
        simp only [Ctx.wrote, Ctx.released] at hc ⊢
        cases htx : x.tx with
        | none =>
          rw [htx] at hc
          exact Ctx.seen_see (x := { x with tx := none, ran := x.ran + 1 }) hc
        | some pending =>
          rw [htx] at hc
          exact Or.inr hc
      · cases h

/-- A process has seen only states of which `P` is true, the last of them the one committed
    now unless it is finished. -/
structure Proc.Observes (P : σ → Prop) (store : σ) (p : Proc J σ ω Ans α) : Prop where
  now : p.prog.finished = false → p.ctx.now = store
  seen : ∀ c ∈ p.ctx.seen, P c

theorem Proc.Observes.watch {P P' : σ → Prop} {store : σ} {p : Proc J σ ω Ans α}
    (h : p.Observes P store) {ws : List ω} (hseen : ∀ c ∈ p.ctx.seen, P' c)
    (hP : P' (S.applyAll ws store)) : (p.watch S ws).Observes P' (S.applyAll ws store) := by
  unfold Proc.watch
  cases hfin : p.prog.finished with
  | true =>
    rw [if_pos rfl]
    exact ⟨fun hrun => absurd (hfin.symm.trans hrun) (by decide), hseen⟩
  | false =>
    rw [if_neg (by decide)]
    refine ⟨fun _ => by rw [Ctx.see_now, h.now hfin], fun c hc => ?_⟩
    rcases Ctx.seen_see hc with rfl | hold
    · rw [h.now hfin]
      exact hP
    · exact hseen c hold

namespace Sys

variable [DecidableEq κ] {program : J → Prog σ ω Ans α}
  {guard : Sys J σ ω Ans α → Event J Ans → Sys J σ ω Ans α → Prop} {start : σ → Prop}
  {s t u : Sys J σ ω Ans α}

omit [DecidableEq κ] in
theorem advance_self {pid : Nat} {p : Proc J σ ω Ans α} {out : Stepped σ ω Ans α}
    (hp : s.procs[pid]? = some p) :
    (advance S s pid p out).procs[pid]? = some { p with prog := out.prog, ctx := out.ctx } := by
  simp only [advance]
  rw [List.getElem?_set_self]
  rw [List.length_map]
  exact (List.getElem?_eq_some_iff.mp hp).1

omit [DecidableEq κ] in
theorem advance_other {pid mover : Nat} {p m : Proc J σ ω Ans α} {out : Stepped σ ω Ans α}
    (hother : pid ≠ mover) (hp : s.procs[pid]? = some p) :
    (advance S s mover m out).procs[pid]? = some (p.watch S out.released) := by
  simp only [advance]
  rw [List.getElem?_set_ne (Ne.symm hother), List.getElem?_map, hp]
  rfl

/-- Some process has been given this answer. -/
def Heard (s : Sys J σ ω Ans α) (a : Sigma Ans) : Prop := ∃ p ∈ s.procs, a ∈ p.ctx.log

theorem Heard.step {a : Sigma Ans} (h : s.Heard a) {e : Event J Ans}
    (hstep : s.step S program e = some t) : t.Heard a := by
  obtain ⟨p, hp, ha⟩ := h
  cases e with
  | spawn j =>
    obtain rfl := Option.some.inj hstep
    exact ⟨p, List.mem_append_left _ hp, ha⟩
  | move pid ch =>
    obtain ⟨q, out, hq, -, hout, rfl⟩ := step_move hstep
    obtain ⟨i, hi⟩ := List.getElem?_of_mem hp
    by_cases hmover : i = pid
    · subst hmover
      obtain rfl := Option.some.inj (hi.symm.trans hq)
      exact ⟨_, List.mem_of_getElem? (advance_self hi), Prog.step_log hout a ha⟩
    · refine ⟨p.watch S out.released, List.mem_of_getElem? (advance_other hmover hi), ?_⟩
      rw [Proc.watch_log]
      exact ha

/-- Everything that has been started goes on with the same job. -/
theorem step_jobs {e : Event J Ans} (hstep : s.step S program e = some t)
    {p : Proc J σ ω Ans α} (hp : p ∈ s.procs) : ∃ q ∈ t.procs, q.job = p.job := by
  cases e with
  | spawn j =>
    obtain rfl := Option.some.inj hstep
    exact ⟨p, List.mem_append_left _ hp, rfl⟩
  | move pid ch =>
    obtain ⟨m, out, hm, -, -, rfl⟩ := step_move hstep
    obtain ⟨i, hi⟩ := List.getElem?_of_mem hp
    by_cases hmover : i = pid
    · subst hmover
      obtain rfl := Option.some.inj (hi.symm.trans hm)
      exact ⟨_, List.mem_of_getElem? (advance_self hi), rfl⟩
    · exact ⟨p.watch S out.released, List.mem_of_getElem? (advance_other hmover hi),
        Proc.watch_job _ _⟩

theorem Reach.mono {guard' : Sys J σ ω Ans α → Event J Ans → Sys J σ ω Ans α → Prop}
    (hguard : ∀ t e t', guard t e t' → guard' t e t') (hs : Reach S program guard start s) :
    Reach S program guard' start s := by
  induction hs with
  | init h => exact .init h
  | step e _ hstep hg ih => exact .step e ih hstep (hguard _ _ _ hg)

/-- The systems that events which all satisfy `guard` lead to. -/
inductive Leads (S : Store σ ω κ) (program : J → Prog σ ω Ans α)
    (guard : Sys J σ ω Ans α → Event J Ans → Sys J σ ω Ans α → Prop) (s : Sys J σ ω Ans α) :
    Sys J σ ω Ans α → Prop where
  | refl : Leads S program guard s s
  | step {t t' : Sys J σ ω Ans α} (e : Event J Ans) : Leads S program guard s t →
      t.step S program e = some t' → guard t e t' → Leads S program guard s t'

/-- What such events lead to is reachable. -/
theorem Leads.reach {guard' : Sys J σ ω Ans α → Event J Ans → Sys J σ ω Ans α → Prop}
    (hguard : ∀ t e t', guard' t e t' → guard t e t') (h : Leads S program guard' s t)
    (hs : Reach S program guard start s) : Reach S program guard start t := by
  induction h with
  | refl => exact hs
  | step e _ hstep hg ih => exact .step e ih hstep (hguard _ _ _ hg)

theorem Leads.trans (h : Leads S program guard s t) (h' : Leads S program guard t u) :
    Leads S program guard s u := by
  induction h' with
  | refl => exact h
  | step e _ hstep hg ih => exact .step e ih hstep hg

/-- What becomes true on the way becomes true in one step of it. -/
theorem Leads.crossing {P : Sys J σ ω Ans α → Prop} (h : Leads S program guard s t) (hs : ¬ P s)
    (ht : P t) : ∃ u u' e, Leads S program guard s u ∧ u.step S program e = some u' ∧
      guard u e u' ∧ Leads S program guard u' t ∧ ¬ P u ∧ P u' := by
  induction h with
  | refl => exact absurd ht hs
  | @step v v' e hlead hstep hg ih =>
    by_cases hv : P v
    · obtain ⟨u, u', e', hu, hstep', hg', hu', hP⟩ := ih hv
      exact ⟨u, u', e', hu, hstep', hg', .step e hu' hstep hg, hP⟩
    · exact ⟨v, v', e, hlead, hstep, hg, .refl, hv, ht⟩

theorem Leads.of_exec {check : Sys J σ ω Ans α → Event J Ans → Sys J σ ω Ans α → Bool}
    (hcheck : ∀ s e s', check s e s' = true → guard s e s') {es : List (Event J Ans)}
    (h : Leads S program guard u s) (hexec : exec S program check es s = some t) :
    Leads S program guard u t := by
  induction es generalizing s with
  | nil =>
    obtain rfl := Option.some.inj hexec
    exact h
  | cons e es ih =>
    unfold exec at hexec
    split at hexec
    · cases hexec
    · next s' hs' =>
      split at hexec
      · next hc => exact ih (.step e h hs' (hcheck s e s' hc)) hexec
      · cases hexec

/-! ### What has been seen -/

/-- What a process has seen stays in the relation `R` to what is committed, if every move keeps
    it so. -/
theorem Reach.observes {R : σ → σ → Prop}
    (hrefl : ∀ t : Sys J σ ω Ans α, Reach S program guard start t → R t.store t.store)
    (hmove : ∀ (t t' : Sys J σ ω Ans α) pid ch, Reach S program guard start t →
      t.step S program (.move pid ch) = some t' → guard t (.move pid ch) t' →
      ∀ p ∈ t.procs, ∀ c ∈ p.ctx.seen, R c t.store → R c t'.store)
    (hs : Reach S program guard start s) : ∀ p ∈ s.procs, p.Observes (R · s.store) s.store := by
  induction hs with
  | init _ => exact fun _ h => nomatch h
  | @step s s' e hs hstep hguard ih =>
    have hafter := hrefl s' (.step e hs hstep hguard)
    intro p hp
    cases e with
    | spawn j =>
      obtain rfl := Option.some.inj hstep
      rcases List.mem_append.mp hp with hp | hp
      · exact ih p hp
      · obtain rfl := List.mem_singleton.mp hp
        refine ⟨fun _ => rfl, fun c hc => ?_⟩
        obtain rfl := List.mem_singleton.mp hc
        exact hrefl s hs
    | move pid ch =>
      have hkept := hmove s s' pid ch hs hstep hguard
      obtain ⟨q, out, hq, hrun, hout, rfl⟩ := step_move hstep
      have hmem := List.mem_of_getElem? hq
      have hmover := ih q hmem
      obtain ⟨hout_now, hout_seen⟩ := Prog.step_seen hout
      rw [hmover.now hrun] at hout_now hout_seen
      obtain ⟨i, hi⟩ := List.getElem?_of_mem hp
      rcases advance_procs hq hi with ⟨-, rfl⟩ | ⟨-, r, hr, rfl⟩
      · refine ⟨fun _ => hout_now, fun c hc => ?_⟩
        rcases hout_seen c hc with rfl | hold
        · exact hafter
        · exact hkept q hmem c hold (hmover.seen c hold)
      · have hother := ih r (List.mem_of_getElem? hr)
        exact hother.watch (fun c hc => hkept r (List.mem_of_getElem? hr) c hc (hother.seen c hc)) hafter

/-- What is true of every state that is ever committed is true of all that has been seen. -/
theorem Reach.seen {P : σ → Prop}
    (hP : ∀ t : Sys J σ ω Ans α, Reach S program guard start t → P t.store)
    (hs : Reach S program guard start s) {p : Proc J σ ω Ans α} (hp : p ∈ s.procs) :
    ∀ c ∈ p.ctx.seen, P c :=
  (hs.observes (R := fun c _ => P c) hP (fun _ _ _ _ _ _ _ _ _ _ _ h => h) p hp).seen

omit [DecidableEq κ] in
/-- A request that a good process makes next is one its contract lets it make. -/
theorem Good.asks {K : J → Contract σ ω Ans} {Q : J → α → Ctx σ ω Ans → Prop} {Inv : σ → Prop}
    (hs : s.Good S K Q Inv) {pid : Nat} {p : Proc J σ ω Ans α} (hp : s.procs[pid]? = some p) {c : ι}
    (hc : p.prog.request? = some c) : (K p.job).asks p.ctx c := by
  have hwp := (hs.procs p (List.mem_of_getElem? hp)).wp
  cases hprog : p.prog with
  | call c' k =>
    rw [hprog] at hwp hc
    rw [← Option.some.inj hc]
    exact (hwp p.ctx (.refl _)).1
  | _ =>
    rw [hprog] at hc
    cases hc

/-- A process that is started on the way has seen only what was committed from there on. -/
theorem Leads.since {P : σ → Prop} (hP : ∀ u, Leads S program guard s u → P u.store)
    (h : Leads S program guard s t) {pid : Nat} {p : Proc J σ ω Ans α}
    (hpid : s.procs.length ≤ pid) (hp : t.procs[pid]? = some p) : p.Observes P t.store := by
  induction h generalizing p with
  | refl =>
    rw [List.getElem?_eq_none hpid] at hp
    cases hp
  | @step u v e hlead hstep hguard ih =>
    have hafter := hP v (.step e hlead hstep hguard)
    cases e with
    | spawn j =>
      obtain rfl := Option.some.inj hstep
      rw [List.getElem?_append] at hp
      split at hp
      · exact ih hp
      · obtain rfl := List.mem_singleton.mp (List.mem_of_getElem? hp)
        refine ⟨fun _ => rfl, fun c hc => ?_⟩
        rw [List.mem_singleton.mp hc]
        exact hP u hlead
    | move mover ch =>
      obtain ⟨m, out, hm, hrun, hout, rfl⟩ := step_move hstep
      rcases advance_procs hm hp with ⟨rfl, rfl⟩ | ⟨-, q, hq, rfl⟩
      · have hmover := ih hm
        obtain ⟨hnow, hseen⟩ := Prog.step_seen hout
        rw [hmover.now hrun] at hnow hseen
        refine ⟨fun _ => hnow, fun c hc => ?_⟩
        rcases hseen c hc with rfl | hold
        · exact hafter
        · exact hmover.seen c hold
      · have hother := ih hq
        exact hother.watch hother.seen hafter

end Sys

end Transactions
