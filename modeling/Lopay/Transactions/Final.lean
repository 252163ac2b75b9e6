import Lopay.Transactions.Follow

/-!
# Programs that fail only before they commit

A program writes in transactions only, and how it may end depends on whether one of them has
been committed. That can be read off the program: no matter what it sees and is answered,
`Prog.Ends` follows all its branches with two flags, one for a commit that went through and
one for an open transaction. In a run, a process that has changed the database has the first.
-/

namespace Transactions

variable {σ ω κ ι J : Type} {Ans : ι → Type} {α β ε : Type} {S : Store σ ω κ}

/-- On every branch the program writes inside transactions only, and ends in `P`, which is told
    whether a transaction was committed and whether one is open. -/
def Prog.Ends (P : Bool → Bool → α → Prop) : (committed inside : Bool) → Prog σ ω Ans α → Prop
  | committed, inside, .ret a => P committed inside a
  | committed, inside, .call _ k => ∀ a, (k a).Ends P committed inside
  | committed, inside, .stmt w k =>
    (inside = false → ∀ v, w v = []) ∧ ∀ v, (k v).Ends P committed inside
  | committed, _, .start k => k.Ends P committed true
  | committed, _, .rollback k => k.Ends P committed false
  | committed, _, .commit k => (k true).Ends P true false ∧ (k false).Ends P committed false

variable {P P' : Bool → Bool → α → Prop} {c i : Bool}

namespace Prog

theorem Ends.mono {p : Prog σ ω Ans α} (hP : ∀ c i a, P c i a → P' c i a) (h : p.Ends P c i) :
    p.Ends P' c i := by
  induction p generalizing c i with
  | ret a => exact hP c i a h
  | call _ k ih => exact fun a => ih a (h a)
  | stmt w k ih => exact ⟨h.1, fun v => ih v (h.2 v)⟩
  | start k ih => exact ih h
  | rollback k ih => exact ih h
  | commit k ih => exact ⟨ih true h.1, ih false h.2⟩

theorem Ends.bind {p : Prog σ ω Ans α} {f : α → Prog σ ω Ans β} {P : Bool → Bool → β → Prop}
    (h : p.Ends (fun c i a => (f a).Ends P c i) c i) : (p.bind f).Ends P c i := by
  induction p generalizing c i with
  | ret a => exact h
  | call _ k ih => exact fun a => ih a (h a)
  | stmt w k ih => exact ⟨h.1, fun v => ih v (h.2 v)⟩
  | start k ih => exact ih h
  | rollback k ih => exact ih h
  | commit k ih => exact ⟨ih true h.1, ih false h.2⟩

/-- A step that commits something raises the first flag. -/
theorem step_ends {p : Prog σ ω Ans α} {x : Ctx σ ω Ans} {free : List κ → Bool} {ch : Choice Ans}
    {out : Stepped σ ω Ans α} (h : p.Ends P c x.tx.isSome)
    (hstep : p.step S free ch x = some out) :
    ∃ c', out.prog.Ends P c' out.ctx.tx.isSome ∧ (c = true → c' = true) ∧
      (out.released ≠ [] → c' = true) := by
  cases p with
  | ret a => cases hstep
  | call r k =>
    obtain rfl := Option.some.inj hstep
    exact ⟨c, h _, id, fun hne => absurd rfl hne⟩
  | start k =>
    obtain rfl := Option.some.inj hstep
    exact ⟨c, h, id, fun hne => absurd rfl hne⟩
  | rollback k =>
    obtain rfl := Option.some.inj hstep
    exact ⟨c, h, id, fun hne => absurd rfl hne⟩
  | commit k =>
    rw [Prog.step] at hstep
    split at hstep
    · obtain rfl := Option.some.inj hstep
      exact ⟨c, h.2, id, fun hne => absurd rfl hne⟩
    · obtain rfl := Option.some.inj hstep
      refine ⟨true, ?_, fun _ => rfl, fun _ => rfl⟩
      rw [Ctx.see_tx]
      exact h.1
  | stmt w k =>
    obtain ⟨hsilent, hnext⟩ := h
    rw [Prog.step] at hstep
    split at hstep
    · obtain rfl := Option.some.inj hstep
      exact ⟨c, hnext none, id, fun hne => absurd rfl hne⟩
    · split at hstep
      · obtain rfl := Option.some.inj hstep
        refine ⟨c, ?_, id, fun hne => absurd ?_ hne⟩
        · rw [Ctx.wrote_tx, Option.isSome_map]
          exact hnext _
        · cases htx : x.tx with
          | some pending => rw [Ctx.released, htx]
          | none =>
            rw [hsilent (by rw [htx]; rfl)]
            exact Ctx.released_nil x
      · cases hstep

end Prog

/-! ### Rules for routines -/

namespace Routine

variable {m : Routine σ ω Ans ε α} {ok : Bool → Bool → α → Prop} {err : Bool → Bool → ε → Prop}

/-- The routine ends in `ok` or in `err`. -/
def Ends (ok : Bool → Bool → α → Prop) (err : Bool → Bool → ε → Prop) (c i : Bool)
    (m : Routine σ ω Ans ε α) : Prop :=
  m.run.Ends (fun c i r => match r with
    | .ok a => ok c i a
    | .error e => err c i e) c i

theorem ends_bind {f : α → Routine σ ω Ans ε β} {ok : Bool → Bool → β → Prop}
    (h : m.Ends (fun c i a => (f a).Ends ok err c i) err c i) : (m >>= f).Ends ok err c i := by
  unfold Routine.Ends at h ⊢
  rw [ExceptT.run_bind]
  refine Prog.Ends.bind (h.mono ?_)
  intro c i r hr
  cases r with
  | ok a => exact hr
  | error e => exact hr

theorem ends_map {f : α → β} {ok : Bool → Bool → β → Prop}
    (h : m.Ends (fun c i a => ok c i (f a)) err c i) : (f <$> m).Ends ok err c i := by
  rw [map_eq_pure_bind]
  exact ends_bind h

theorem ends_tryCatch {handler : ε → Routine σ ω Ans ε α}
    (h : m.Ends ok (fun c i e => (handler e).Ends ok err c i) c i) :
    (tryCatch m handler).Ends ok err c i := by
  unfold Routine.Ends at h ⊢
  refine Prog.Ends.bind (h.mono ?_)
  intro c i r hr
  cases r with
  | ok a => exact hr
  | error e => exact hr

theorem ends_throwIf {q : Prop} [Decidable q] {e : ε} {ok : Bool → Bool → Unit → Prop}
    (hthrow : err c i e) (hok : ok c i ()) :
    (throwIf q e : Routine σ ω Ans ε Unit).Ends ok err c i := by
  unfold throwIf
  split
  · exact hthrow
  · exact hok

theorem ends_orThrow {o : Option α} {e : ε} (hthrow : err c i e) (hok : ∀ a, ok c i a) :
    (orThrow o e : Routine σ ω Ans ε α).Ends ok err c i := by
  cases o with
  | none => exact hthrow
  | some a => exact hok a

theorem ends_exec {fault : ε} {f : σ → Except ε (α × List ω)} (herr : ∀ e, err c true e)
    (hok : ∀ a, ok c true a) : (exec fault f : Routine σ ω Ans ε α).Ends ok err c true := by
  refine ⟨nofun, fun v => ?_⟩
  cases v with
  | none => exact herr fault
  | some v =>
    cases hf : f v with
    | error e =>
      simp only [hf]
      exact herr e
    | ok r =>
      simp only [hf]
      exact hok r.1

theorem ends_query {fault : ε} {q : σ → α} (herr : err c i fault) (hok : ∀ a, ok c i a) :
    (query fault q : Routine σ ω Ans ε α).Ends ok err c i := by
  refine ⟨fun _ _ => rfl, fun v => ?_⟩
  cases v with
  | none => exact herr
  | some v => exact hok (q v)

theorem ends_transaction {fault : ε} {body : Routine σ ω Ans ε α}
    (h : body.Ends (fun c _ a => ok true false a ∧ err c false fault) (fun c _ e => err c false e)
      c true) : (transaction fault body).Ends ok err c i := by
  refine Prog.Ends.bind (h.mono ?_)
  intro c i r hr
  cases r with
  | ok a => exact hr
  | error e => exact hr

end Routine

/-! ### Runs -/

theorem Proc.watch_tx (p : Proc J σ ω Ans α) (ws : List ω) : (p.watch S ws).ctx.tx = p.ctx.tx := by
  unfold Proc.watch
  split
  · rfl
  · exact Ctx.see_tx S p.ctx ws

namespace Sys

variable [DecidableEq κ] {program : J → Prog σ ω Ans α}
  {guard : Sys J σ ω Ans α → Event J Ans → Sys J σ ω Ans α → Prop}
  {s t t' u u' : Sys J σ ω Ans α} {pid : Nat} {p : Proc J σ ω Ans α}

/-- The process ends in `P`, and the first flag is raised if `committed`. -/
def Ending (P : Bool → Bool → α → Prop) (pid : Nat) (committed : Bool) (s : Sys J σ ω Ans α) :
    Prop :=
  ∃ p c, s.procs[pid]? = some p ∧ p.prog.Ends P c p.ctx.tx.isSome ∧ (committed = true → c = true)

theorem Ending.step {b : Bool} (h : s.Ending P pid b) {e : Event J Ans}
    (hstep : s.step S program e = some t) :
    t.Ending P pid b ∧ ((∃ ch, e = .move pid ch) → t.store ≠ s.store → t.Ending P pid true) := by
  obtain ⟨p, c, hp, hends, hc⟩ := h
  have hlen := (List.getElem?_eq_some_iff.mp hp).1
  cases e with
  | spawn j =>
    obtain rfl := Option.some.inj hstep
    refine ⟨⟨p, c, ?_, hends, hc⟩, nofun⟩
    exact List.getElem?_append_left hlen ▸ hp
  | move mover ch =>
    obtain ⟨m, out, hm, -, hout, rfl⟩ := step_move hstep
    by_cases hmine : pid = mover
    · subst hmine
      obtain rfl := Option.some.inj (hm.symm.trans hp)
      obtain ⟨c', hends', hkeep, hraise⟩ := Prog.step_ends hends hout
      have hp' : (advance S s pid m out).procs[pid]? = _ := advance_self hm
      refine ⟨⟨_, c', hp', hends', fun hb => hkeep (hc hb)⟩, fun _ hchanged => ?_⟩
      refine ⟨_, c', hp', hends', fun _ => hraise fun hrel => hchanged ?_⟩
      simp only [advance, hrel, Store.applyAll_nil]
    · refine ⟨⟨p.watch S out.released, c, advance_other hmine hp, ?_, hc⟩, ?_⟩
      · rw [Proc.watch_prog, Proc.watch_tx]
        exact hends
      · rintro ⟨_, hmove⟩
        exact absurd (Event.move.inj hmove).1.symm hmine

theorem Ending.leads {b : Bool} (h : s.Ending P pid b) (hlead : Leads S program guard s t) :
    t.Ending P pid b := by
  induction hlead with
  | refl => exact h
  | step e _ hstep _ ih => exact (ih.step hstep).1

/-- The process `pid` has changed the store on the way from `s` to `t`. -/
def Commits (S : Store σ ω κ) (program : J → Prog σ ω Ans α)
    (guard : Sys J σ ω Ans α → Event J Ans → Sys J σ ω Ans α → Prop) (pid : Nat)
    (s t : Sys J σ ω Ans α) : Prop :=
  ∃ u u' ch, Leads S program guard s u ∧ u.step S program (.move pid ch) = some u' ∧
    guard u (.move pid ch) u' ∧ u'.store ≠ u.store ∧ Leads S program guard u' t

/-- A process whose first statement is a read has not moved yet, has ended with a failure of
    that read, or has begun. -/
theorem Leads.begun {start : σ → Prop} {next : Option σ → Prog σ ω Ans α}
    (hs : Reach S program guard start s) (hp : s.procs[pid]? = some p)
    (hunmoved : p.Unmoved program) (hprog : program p.job = .stmt (fun _ => []) next)
    (hnone : (next none).finished = true) (h : Leads S program guard s t) :
    (∃ q, t.procs[pid]? = some q ∧ q.Unmoved program ∧ q.job = p.job) ∨
      (∃ q, t.procs[pid]? = some q ∧ q.prog.finished = true) ∨
      ∃ t₀, Leads S program guard s t₀ ∧ Begun S program guard start pid p.job t₀ t := by
  induction h with
  | refl => exact Or.inl ⟨p, hp, hunmoved, rfl⟩
  | @step v v' e hlead hstep hguard ih =>
    rcases ih with ⟨q, hq, hfresh, hjob⟩ | ⟨q, hq, hfin⟩ | ⟨t₀, ht₀, hbegun⟩
    · have hlen := (List.getElem?_eq_some_iff.mp hq).1
      cases e with
      | spawn j =>
        obtain rfl := Option.some.inj hstep
        exact Or.inl ⟨q, List.getElem?_append_left hlen ▸ hq, hfresh, hjob⟩
      | move mover ch =>
        by_cases hmine : pid = mover
        · subst hmine
          refine Or.inr ?_
          cases hfault : ch.fault with
          | false =>
            exact Or.inr ⟨v, hlead, hlead.reach (fun _ _ _ h => h) hs, q, ch, v', hq, hjob, hfresh,
              hfault, hstep, hguard, .refl⟩
          | true =>
            obtain ⟨m, out, hm, -, hout, rfl⟩ := step_move hstep
            obtain rfl := Option.some.inj (hm.symm.trans hq)
            rw [hfresh.prog, hjob, hprog, Prog.step, if_pos hfault] at hout
            obtain rfl := Option.some.inj hout
            exact Or.inl ⟨_, advance_self hm, hnone⟩
        · obtain ⟨m, out, hm, -, hout, rfl⟩ := step_move hstep
          refine Or.inl ⟨q.watch S out.released, advance_other hmine hq, ⟨?_, ?_⟩, ?_⟩
          · rw [Proc.watch_prog, Proc.watch_job]
            exact hfresh.prog
          · rw [Proc.watch_tx]
            exact hfresh.tx
          · rw [Proc.watch_job]
            exact hjob
    · refine Or.inr (Or.inl ?_)
      have hlen := (List.getElem?_eq_some_iff.mp hq).1
      cases e with
      | spawn j =>
        obtain rfl := Option.some.inj hstep
        exact ⟨q, List.getElem?_append_left hlen ▸ hq, hfin⟩
      | move mover ch =>
        obtain ⟨m, out, hm, -, hout, rfl⟩ := step_move hstep
        have hmine : pid ≠ mover := by
          rintro rfl
          obtain rfl := Option.some.inj (hm.symm.trans hq)
          obtain ⟨a, ha⟩ := Prog.eq_ret_of_finished hfin
          rw [ha] at hout
          cases hout
        exact ⟨q.watch S out.released, advance_other hmine hq, by rw [Proc.watch_prog]; exact hfin⟩
    · exact Or.inr (Or.inr ⟨t₀, ht₀, hbegun.leads (.step e .refl hstep hguard)⟩)

/-- A process whose first statement is a read has made it before it changes the database. -/
theorem Commits.passage {start : σ → Prop} {next : Option σ → Prog σ ω Ans α}
    (h : Commits S program guard pid s t) (hs : Reach S program guard start s)
    (hp : s.procs[pid]? = some p) (hunmoved : p.Unmoved program)
    (hprog : program p.job = .stmt (fun _ => []) next) (hnone : (next none).finished = true) :
    ∃ t₀ u u', Leads S program guard s t₀ ∧ Passage S program guard start pid p.job t₀ u u' ∧
      Leads S program guard u' t := by
  obtain ⟨u, u', ch, hu, hstep, hguard, hchanged, hu'⟩ := h
  rcases hu.begun hs hp hunmoved hprog hnone with ⟨q, hq, hfresh, hjob⟩ | ⟨q, hq, hfin⟩ |
    ⟨t₀, ht₀, hbegun⟩
  · refine absurd ?_ hchanged
    obtain ⟨m, out, hm, -, hout, rfl⟩ := step_move hstep
    obtain rfl := Option.some.inj (hm.symm.trans hq)
    rw [hfresh.prog, hjob, hprog] at hout
    have hreleased : out.released = [] := by
      rw [Prog.step] at hout
      split at hout
      · obtain rfl := Option.some.inj hout
        rfl
      · split at hout
        · obtain rfl := Option.some.inj hout
          exact Ctx.released_nil _
        · cases hout
    simp only [advance, hreleased, Store.applyAll_nil]
  · obtain ⟨m, out, hm, -, hout, -⟩ := step_move hstep
    obtain rfl := Option.some.inj (hm.symm.trans hq)
    obtain ⟨a, ha⟩ := Prog.eq_ret_of_finished hfin
    rw [ha] at hout
    cases hout
  · exact ⟨t₀, u, u', ht₀, ⟨hbegun, ch, hstep, hguard, hchanged⟩, hu'⟩

/-- A process that has changed the database ends as one that has committed. -/
theorem Commits.ending (h : Commits S program guard pid s t) (hs : s.Ending P pid false) :
    t.Ending P pid true := by
  obtain ⟨u, u', ch, hu, hstep, -, hchanged, hu'⟩ := h
  exact ((hs.leads hu).step hstep |>.2 ⟨ch, rfl⟩ hchanged).leads hu'

/-- On the way from `s` to `t` the process `pid` commits what it has written in its
    transaction. -/
def CommitsTransaction (S : Store σ ω κ) (program : J → Prog σ ω Ans α)
    (guard : Sys J σ ω Ans α → Event J Ans → Sys J σ ω Ans α → Prop) (pid : Nat)
    (s t : Sys J σ ω Ans α) : Prop :=
  ∃ u u' ch p k, Leads S program guard s u ∧ u.procs[pid]? = some p ∧ p.prog = .commit k ∧
    ch.fault = false ∧ p.ctx.pending ≠ [] ∧ u.step S program (.move pid ch) = some u' ∧
    guard u (.move pid ch) u' ∧ Leads S program guard u' t

/-- What is released from an open transaction is released by its commit. -/
theorem Releases.commit {ch : Choice Ans} {ws : List ω} (h : s.Releases S pid p ch ws)
    (htx : p.ctx.tx ≠ none) :
    (∃ k, p.prog = .commit k) ∧ ch.fault = false ∧ p.ctx.pending ≠ [] := by
  obtain ⟨hne, out, hout, rfl⟩ := h
  cases hp : p.prog with
  | ret a =>
    rw [hp] at hout
    cases hout
  | call c k | start k | rollback k =>
    rw [hp] at hout
    obtain rfl := Option.some.inj hout
    exact absurd rfl hne
  | commit k =>
    rw [hp, Prog.step] at hout
    split at hout
    · obtain rfl := Option.some.inj hout
      exact absurd rfl hne
    · rename_i hfault
      obtain rfl := Option.some.inj hout
      exact ⟨⟨k, rfl⟩, Bool.not_eq_true _ ▸ hfault, hne⟩
  | stmt w k =>
    rw [hp, Prog.step] at hout
    obtain ⟨pending, hpending⟩ := Option.ne_none_iff_exists'.mp htx
    split at hout
    · obtain rfl := Option.some.inj hout
      exact absurd rfl hne
    · split at hout
      · obtain rfl := Option.some.inj hout
        rw [Ctx.released, hpending] at hne
        exact absurd rfl hne
      · cases hout

/-- A process that has committed its transaction ends as one that has committed. -/
theorem CommitsTransaction.ending (h : CommitsTransaction S program guard pid s t)
    (hs : s.Ending P pid false) : t.Ending P pid true := by
  obtain ⟨u, u', ch, p, k, hu, hp, hcommit, hfault, hpending, hstep, hguard, hu'⟩ := h
  obtain ⟨q, c, hq, hends, -⟩ := hs.leads hu
  obtain rfl := Option.some.inj (hp.symm.trans hq)
  obtain ⟨m, out, hm, -, hout, rfl⟩ := step_move hstep
  obtain rfl := Option.some.inj (hp.symm.trans hm)
  obtain ⟨c', hends', -, hraise⟩ := Prog.step_ends hends hout
  have hreleased : out.released ≠ [] := by
    rw [hcommit, Prog.step, if_neg (by simp [hfault])] at hout
    obtain rfl := Option.some.inj hout
    exact hpending
  have hcommitted : (u.advance S pid p out).Ending P pid true :=
    ⟨_, c', advance_self hp, hends', fun _ => hraise hreleased⟩
  exact hcommitted.leads hu'

end Sys

end Transactions
