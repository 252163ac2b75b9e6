import Lopay.Transactions.Runs

/-!
# What can no longer go wrong

A program is certain of `G` if it ends in `G` whatever fails and whatever it is answered. It binds
itself to `G` if it is certain of `G` from the first writes on that it has released. A process that
has changed the committed state is then bound to its end, whatever runs beside it.
-/

namespace Transactions

variable {σ ω κ ι J : Type} {Ans : ι → Type} {α β ε : Type} {S : Store σ ω κ}

namespace Prog

def Certain (G : α → Prop) : Prog σ ω Ans α → Prop
  | .ret a => G a
  | .call _ k => ∀ a, (k a).Certain G
  | .start k => k.Certain G
  | .rollback k => k.Certain G
  | .commit k => ∀ b, (k b).Certain G
  | .stmt _ k => ∀ v, (k v).Certain G

def Binding (G : α → Prop) : Prog σ ω Ans α → Prop
  | .ret _ => True
  | .call _ k => ∀ a, (k a).Binding G
  | .start k => k.Binding G
  | .rollback k => k.Binding G
  | .commit k => (k false).Binding G ∧ (k true).Certain G
  | .stmt w k => (k none).Binding G ∧
      ∀ v, (w v = [] ∧ (k (some v)).Binding G) ∨ (k (some v)).Certain G

variable {G H : α → Prop} {p : Prog σ ω Ans α}

theorem Certain.trivial : p.Certain fun _ => True := by
  induction p with
  | ret a => exact True.intro
  | call c k ih => exact fun a => ih a
  | start k ih => exact ih
  | rollback k ih => exact ih
  | commit k ih => exact fun b => ih b
  | stmt w k ih => exact fun v => ih v

theorem Certain.binding (h : p.Certain G) : p.Binding G := by
  induction p with
  | ret a => exact True.intro
  | call c k ih => exact fun a => ih a (h a)
  | start k ih => exact ih h
  | rollback k ih => exact ih h
  | commit k ih => exact ⟨ih false (h false), h true⟩
  | stmt w k ih => exact ⟨ih none (h none), fun v => .inr (h (some v))⟩

theorem certain_bind {G : β → Prop} {f : α → Prog σ ω Ans β} (h : p.Certain H)
    (hf : ∀ a, H a → (f a).Certain G) : (p.bind f).Certain G := by
  induction p with
  | ret a => exact hf a h
  | call c k ih => exact fun a => ih a (h a)
  | start k ih => exact ih h
  | rollback k ih => exact ih h
  | commit k ih => exact fun b => ih b (h b)
  | stmt w k ih => exact fun v => ih v (h v)

/-- What follows has to be certain only after what the first part binds itself to. -/
theorem binding_bind {G : β → Prop} {f : α → Prog σ ω Ans β} (h : p.Binding H)
    (hf : ∀ a, H a → (f a).Certain G) (hf' : ∀ a, (f a).Binding G) : (p.bind f).Binding G := by
  induction p with
  | ret a => exact hf' a
  | call c k ih => exact fun a => ih a (h a)
  | start k ih => exact ih h
  | rollback k ih => exact ih h
  | commit k ih => exact ⟨ih false h.1, certain_bind h.2 hf⟩
  | stmt w k ih =>
    refine ⟨ih none h.1, fun v => ?_⟩
    rcases h.2 v with ⟨hsilent, hnext⟩ | hcertain
    · exact .inl ⟨hsilent, ih (some v) hnext⟩
    · exact .inr (certain_bind hcertain hf)

/-! ### Steps -/

variable {free : List κ → Bool} {ch : Choice Ans} {x : Ctx σ ω Ans} {out : Stepped σ ω Ans α}

theorem Certain.step (h : p.Certain G) (hstep : p.step S free ch x = some out) :
    out.prog.Certain G := by
  cases p with
  | ret a => cases hstep
  | call c k =>
    obtain rfl := Option.some.inj hstep
    exact h _
  | start k =>
    obtain rfl := Option.some.inj hstep
    exact h
  | rollback k =>
    obtain rfl := Option.some.inj hstep
    exact h
  | commit k =>
    simp only [Prog.step] at hstep
    split at hstep
    · obtain rfl := Option.some.inj hstep
      exact h false
    · obtain rfl := Option.some.inj hstep
      exact h true
  | stmt w k =>
    simp only [Prog.step] at hstep
    split at hstep
    · obtain rfl := Option.some.inj hstep
      exact h none
    · split at hstep
      · obtain rfl := Option.some.inj hstep
        exact h _
      · cases hstep

theorem Binding.step (h : p.Binding G) (hstep : p.step S free ch x = some out) :
    out.prog.Binding G ∧ (out.released ≠ [] → out.prog.Certain G) := by
  cases p with
  | ret a => cases hstep
  | call c k =>
    obtain rfl := Option.some.inj hstep
    exact ⟨h _, fun hreleased => absurd rfl hreleased⟩
  | start k =>
    obtain rfl := Option.some.inj hstep
    exact ⟨h, fun hreleased => absurd rfl hreleased⟩
  | rollback k =>
    obtain rfl := Option.some.inj hstep
    exact ⟨h, fun hreleased => absurd rfl hreleased⟩
  | commit k =>
    simp only [Prog.step] at hstep
    split at hstep
    · obtain rfl := Option.some.inj hstep
      exact ⟨h.1, fun hreleased => absurd rfl hreleased⟩
    · obtain rfl := Option.some.inj hstep
      exact ⟨h.2.binding, fun _ => h.2⟩
  | stmt w k =>
    simp only [Prog.step] at hstep
    split at hstep
    · obtain rfl := Option.some.inj hstep
      exact ⟨h.1, fun hreleased => absurd rfl hreleased⟩
    · split at hstep
      · obtain rfl := Option.some.inj hstep
        rcases h.2 (x.view S) with ⟨hsilent, hnext⟩ | hcertain
        · refine ⟨hnext, fun hreleased => absurd ?_ hreleased⟩
          simp only [hsilent, Ctx.released_nil]
        · exact ⟨hcertain.binding, fun _ => hcertain⟩
      · cases hstep

end Prog

/-! ### Routines -/

namespace Routine

/-- The routine is certain to return something that `P` is true of. -/
def Certain (P : α → Prop) (m : Routine σ ω Ans ε α) : Prop :=
  Prog.Certain (fun r => ∃ a, r = .ok a ∧ P a) m.run

/-- It is from its first released writes on. -/
def Binding (P : α → Prop) (m : Routine σ ω Ans ε α) : Prop :=
  Prog.Binding (fun r => ∃ a, r = .ok a ∧ P a) m.run

variable {P : α → Prop} {Q : β → Prop} {m : Routine σ ω Ans ε α}

theorem Certain.binding (h : m.Certain P) : m.Binding P := Prog.Certain.binding h

theorem certain_pure {a : α} (h : P a) : (pure a : Routine σ ω Ans ε α).Certain P := ⟨a, rfl, h⟩

theorem binding_pure {a : α} : (pure a : Routine σ ω Ans ε α).Binding P := trivial

theorem binding_throw {e : ε} : (throw e : Routine σ ω Ans ε α).Binding P := trivial

theorem certain_bind {f : α → Routine σ ω Ans ε β} (h : m.Certain P)
    (hf : ∀ a, P a → (f a).Certain Q) : (m >>= f).Certain Q := by
  unfold Certain
  rw [ExceptT.run_bind]
  refine Prog.certain_bind h ?_
  rintro r ⟨a, rfl, ha⟩
  exact hf a ha

theorem binding_bind {f : α → Routine σ ω Ans ε β} (h : m.Binding P)
    (hf : ∀ a, P a → (f a).Certain Q) (hf' : ∀ a, (f a).Binding Q) : (m >>= f).Binding Q := by
  unfold Binding
  rw [ExceptT.run_bind]
  refine Prog.binding_bind h ?_ ?_
  · rintro r ⟨a, rfl, ha⟩
    exact hf a ha
  · intro r
    cases r with
    | ok a => exact hf' a
    | error e => exact trivial

/-- The first part writes nothing. -/
theorem binding_after {f : α → Routine σ ω Ans ε β} (h : m.Binding fun _ => False)
    (hf : ∀ a, (f a).Binding Q) : (m >>= f).Binding Q :=
  binding_bind h (fun _ hfalse => hfalse.elim) hf

theorem certain_ask (c : ι) : (ask c : Routine σ ω Ans ε (Ans c)).Certain fun _ => True :=
  fun a => ⟨a, rfl, trivial⟩

theorem silent_ask (c : ι) : (ask c : Routine σ ω Ans ε (Ans c)).Binding fun _ => False :=
  fun _ => trivial

theorem silent_query {fault : ε} {q : σ → α} :
    (query fault q : Routine σ ω Ans ε α).Binding fun _ => False :=
  ⟨trivial, fun _ => .inl ⟨rfl, trivial⟩⟩

theorem binding_exec {fault : ε} {f : σ → Except ε (α × List ω)} :
    (exec fault f : Routine σ ω Ans ε α).Binding fun _ => True := by
  refine ⟨trivial, fun v => ?_⟩
  cases hf : f v with
  | error e =>
    refine .inl ⟨?_, ?_⟩
    · simp only [hf]
    · exact trivial
  | ok r =>
    refine .inr ?_
    simp only [hf]
    exact ⟨r.1, rfl, trivial⟩

theorem silent_mapM {f : β → Routine σ ω Ans ε α} {l : List β}
    (hf : ∀ b, (f b).Binding fun _ => False) : (l.mapM f).Binding fun _ => False := by
  induction l with
  | nil => exact trivial
  | cons b l ih =>
    rw [List.mapM_cons]
    exact binding_after (hf b) fun _ => binding_after ih fun _ => trivial

theorem certain_mapM {f : β → Routine σ ω Ans ε α} {l : List β}
    (hf : ∀ b, (f b).Certain fun _ => True) : (l.mapM f).Certain fun _ => True := by
  induction l with
  | nil => exact ⟨[], rfl, trivial⟩
  | cons b l ih =>
    rw [List.mapM_cons]
    exact certain_bind (hf b) fun _ _ => certain_bind ih fun _ _ => certain_pure trivial

theorem certain_onlyIf {c : Prop} [Decidable c] {m : Routine σ ω Ans ε Unit}
    (h : m.Certain fun _ => True) : (onlyIf c m).Certain fun _ => True := by
  unfold onlyIf
  split
  · exact h
  · exact certain_pure trivial

/-- Whatever is thrown is caught. -/
theorem certain_tryCatch {handler : ε → Routine σ ω Ans ε α}
    (h : ∀ e, (handler e).Certain fun _ => True) :
    (tryCatch m handler).Certain fun _ => True := by
  refine Prog.certain_bind (p := m.run) Prog.Certain.trivial ?_
  intro r _
  cases r with
  | ok a => exact ⟨a, rfl, trivial⟩
  | error e => exact h e

theorem binding_map {f : α → β} (h : m.Binding fun _ => True) :
    (f <$> m).Binding fun _ => True := by
  rw [map_eq_pure_bind]
  exact binding_bind h (fun _ _ => certain_pure trivial) fun _ => binding_pure

end Routine

/-! ### Runs -/

namespace Sys

variable [DecidableEq κ] {program : J → Prog σ ω Ans α}
  {guard : Sys J σ ω Ans α → Event J Ans → Sys J σ ω Ans α → Prop} {start : σ → Prop}
  {s t u : Sys J σ ω Ans α} {G : J → α → Prop} {pid : Nat} {p : Proc J σ ω Ans α}

theorem Reach.binding (hprogram : ∀ j, (program j).Binding (G j))
    (hs : Reach S program guard start s) : ∀ p ∈ s.procs, p.prog.Binding (G p.job) := by
  induction hs with
  | init _ => exact fun _ h => nomatch h
  | @step s s' e _ hstep _ ih =>
    intro p hp
    cases e with
    | spawn j =>
      obtain rfl := Option.some.inj hstep
      rcases List.mem_append.mp hp with hp | hp
      · exact ih p hp
      · obtain rfl := List.mem_singleton.mp hp
        exact hprogram j
    | move mover ch =>
      obtain ⟨m, out, hm, -, hout, rfl⟩ := step_move hstep
      obtain ⟨i, hi⟩ := List.getElem?_of_mem hp
      rcases advance_procs hm hi with ⟨-, rfl⟩ | ⟨-, q, hq, rfl⟩
      · exact ((ih m (List.mem_of_getElem? hm)).step hout).1
      · rw [Proc.watch_prog, Proc.watch_job]
        exact ih q (List.mem_of_getElem? hq)

/-- A process stays certain of what it is certain of. -/
theorem Leads.certain (h : Leads S program guard s t) (hp : s.procs[pid]? = some p)
    {G : α → Prop} (hcertain : p.prog.Certain G) :
    ∃ q, t.procs[pid]? = some q ∧ q.job = p.job ∧ q.prog.Certain G := by
  induction h with
  | refl => exact ⟨p, hp, rfl, hcertain⟩
  | @step t t' e _ hstep _ ih =>
    obtain ⟨q, hq, hjob, hcertain⟩ := ih
    cases e with
    | spawn j =>
      obtain rfl := Option.some.inj hstep
      exact ⟨q, (List.getElem?_append_left (List.getElem?_eq_some_iff.mp hq).1).trans hq, hjob,
        hcertain⟩
    | move mover ch =>
      obtain ⟨m, out, hm, -, hout, rfl⟩ := step_move hstep
      by_cases hmine : pid = mover
      · subst hmine
        obtain rfl := Option.some.inj (hm.symm.trans hq)
        exact ⟨_, advance_self hq, hjob, hcertain.step hout⟩
      · refine ⟨_, advance_other hmine hq, (Proc.watch_job _ _).trans hjob, ?_⟩
        rw [Proc.watch_prog]
        exact hcertain

/-- Once a process has changed what is committed it can only end as it has bound itself to. -/
theorem Leads.bound (hprogram : ∀ j, (program j).Binding (G j))
    (hs : Reach S program guard start s) {ch : Choice Ans}
    (hstep : s.step S program (.move pid ch) = some t) (hchanged : t.store ≠ s.store)
    (h : Leads S program guard t u) (hp : u.procs[pid]? = some p) :
    p.prog.Certain (G p.job) := by
  obtain ⟨m, out, hm, -, hout, rfl⟩ := step_move hstep
  have hreleased : out.released ≠ [] := by
    intro hnone
    apply hchanged
    simp only [advance, hnone, Store.applyAll_nil]
  have hbinding := hs.binding hprogram m (List.mem_of_getElem? hm)
  obtain ⟨q, hq, hjob, hcertain⟩ := h.certain (advance_self hm) ((hbinding.step hout).2 hreleased)
  obtain rfl := Option.some.inj (hp.symm.trans hq)
  rw [hjob]
  exact hcertain

end Sys

end Transactions
