import Lopay.Transactions.Runs

/-!
# Following one process

A contract that holds of a whole program cannot mention what the program reads on its way.
`Leads.follow` is for that: from any point of a run on, one process may be given a contract of
its own, made for what it has read by then, and keeps it as long as the others keep theirs.
-/

namespace Transactions

variable {σ ω κ ι J : Type} {Ans : ι → Type} {α β γ ε : Type} {S : Store σ ω κ}

/-- A process that has been started and has not moved. -/
structure Proc.Unmoved (program : J → Prog σ ω Ans α) (p : Proc J σ ω Ans α) : Prop where
  prog : p.prog = program p.job
  tx : p.ctx.tx = none

/-- A routine that begins with a read goes on with what it has read. -/
theorem Routine.map_query_run {fault : ε} {q : σ → γ} {f : γ → Routine σ ω Ans ε α} (g : α → β) :
    (g <$> (query fault q >>= f)).run = .stmt (fun _ => [])
      (fun
        | none => .ret (.error fault)
        | some v => (g <$> f (q v)).run) :=
  congrArg (Prog.stmt _) (funext fun
    | none => rfl
    | some _ => rfl)

/-- A program keeps a contract that asks for nothing. -/
theorem Prog.wp_plain {R : Ctx σ ω Ans → List ω → Prop} {p : Prog σ ω Ans α} {x : Ctx σ ω Ans} :
    p.wp S (.plain R fun _ _ => True) (fun _ _ => True) x := by
  induction p generalizing x with
  | ret a => exact trivial
  | call c k ih => exact fun y _ => ⟨trivial, fun a _ => ih a⟩
  | start k ih => exact fun y _ => ih
  | rollback k ih => exact fun y _ => ih
  | commit k ih => exact fun y _ => ⟨fun _ => ih false, fun _ _ => trivial, fun _ => ih true⟩
  | stmt w k ih => exact fun y _ => ⟨fun _ => ih none, fun _ _ => trivial, fun _ => ih _⟩

/-- The discipline that every program keeps. -/
theorem Discipline.plain [DecidableEq κ] {program : J → Prog σ ω Ans α}
    {guard : Sys J σ ω Ans α → Event J Ans → Sys J σ ω Ans α → Prop} :
    Discipline S program guard (fun _ => .plain (fun _ _ => True) fun _ _ => True)
      (fun _ _ _ => True) (fun _ => True) where
  spawn := fun _ _ _ _ _ => Prog.wp_plain
  answers := fun _ _ _ _ _ _ _ _ _ => trivial
  faults := fun _ _ _ _ _ _ _ _ => trivial
  admits := fun _ _ _ _ _ _ _ _ _ _ _ => trivial
  inv := fun _ _ _ _ _ _ _ _ _ _ _ _ _ => trivial
  rely := fun _ _ _ _ _ _ _ _ _ _ _ _ _ _ _ _ _ _ _ => trivial

namespace Sys

variable [DecidableEq κ] {program : J → Prog σ ω Ans α} {K : J → Contract σ ω Ans}
  {Q : J → α → Ctx σ ω Ans → Prop} {Inv : σ → Prop}
  {guard : Sys J σ ω Ans α → Event J Ans → Sys J σ ω Ans α → Prop} {start : σ → Prop}
  {s t t' : Sys J σ ω Ans α} {pid : Nat} {p : Proc J σ ω Ans α} {L : Contract σ ω Ans}
  {R : α → Ctx σ ω Ans → Prop}

theorem Leads.good (hD : Discipline S program guard K Q Inv) (hs : s.Good S K Q Inv)
    (h : Leads S program guard s t) : t.Good S K Q Inv := by
  induction h with
  | refl => exact hs
  | step e _ hstep hguard ih => exact ih.step hD hstep hguard

/-- What happens to a process is among the things that `L` lets happen. -/
structure Bears (L : Contract σ ω Ans) (p : Proc J σ ω Ans α) (ch : Choice Ans) : Prop where
  answers : ∀ c, p.prog.request? = some c → L.answers p.ctx c (ch.answer c)
  faults : ch.fault = true → L.faults p.ctx

theorem Bears.of_total (hL : L.Total) (p : Proc J σ ω Ans α) (ch : Choice Ans) : Bears L p ch :=
  ⟨fun c _ => hL.answers _ c _, fun _ => hL.faults _⟩

/-- The next step of the process `p` commits `ws`. -/
def Releases (S : Store σ ω κ) (s : Sys J σ ω Ans α) (pid : Nat) (p : Proc J σ ω Ans α)
    (ch : Choice Ans) (ws : List ω) : Prop :=
  ws ≠ [] ∧ ∃ out, p.prog.step S (s.free S pid) ch p.ctx = some out ∧ out.released = ws

/-- One event on the way, unless the process commits what `L` does not admit. -/
theorem Good.follow (hD : Discipline S program guard K Q Inv) (hs : s.Good S K Q Inv)
    {e : Event J Ans} (hstep : s.step S program e = some t) (hguard : guard s e t)
    (hp : s.procs[pid]? = some p) (hbears : ∀ ch, e = .move pid ch → Bears L p ch)
    (hrely : ∀ y ws, (K p.job).rely y ws → L.rely y ws) (hwp : p.prog.wp S L R p.ctx) :
    (∃ q, t.procs[pid]? = some q ∧ q.job = p.job ∧ q.prog.wp S L R q.ctx) ∨
      ∃ ch ws, e = .move pid ch ∧ p.ctx.now = s.store ∧ t.store = S.applyAll ws s.store ∧
        (K p.job).guarantee p.ctx ws ∧ ¬ L.admits p.ctx ws ∧ s.Releases S pid p ch ws := by
  cases e with
  | spawn j =>
    obtain rfl := Option.some.inj hstep
    exact Or.inl ⟨p, List.getElem?_append_left (List.getElem?_eq_some_iff.mp hp).1 ▸ hp, rfl, hwp⟩
  | move mover ch =>
    obtain ⟨m, out, hm, -, hout, rfl, hnow, hgood⟩ := hs.move hD hstep hguard
    have hlen := (List.getElem?_eq_some_iff.mp hp).1
    by_cases hmine : pid = mover
    · subst hmine
      obtain rfl := Option.some.inj (hm.symm.trans hp)
      obtain ⟨hanswers, hfaults⟩ := hbears ch rfl
      by_cases hadmits : out.released ≠ [] → L.admits m.ctx out.released
      · have hstepped := Prog.step_good hwp hanswers hfaults hadmits hout
        exact Or.inl ⟨_, advance_self hp, rfl, hstepped.wp⟩
      · rw [Classical.not_imp] at hadmits
        exact Or.inr ⟨ch, out.released, rfl, hnow, rfl, hgood.guarantee hadmits.1, hadmits.2,
          hadmits.1, out, hout, rfl⟩
    · refine Or.inl ⟨p.watch S out.released, advance_other hmine hp, Proc.watch_job _ _, ?_⟩
      -- The others commit what its own rely allows.
      rw [Proc.watch_prog]
      unfold Proc.watch
      cases hfin : p.prog.finished with
      | true => exact hwp
      | false =>
        by_cases hrel : out.released = []
        · rw [hrel]
          exact hwp
        · refine Prog.wp_drift hfin (.step _ (.refl _) hrel (hrely _ _ ?_) fun k hk hlock => ?_) hwp
          · exact hD.rely _ _ mover ch m pid p _ hguard hm hp hmine hfin hrel hnow
              ((hs.procs p (List.mem_of_getElem? hp)).now hfin) rfl (hgood.guarantee hrel) hs.inv
          · rcases hgood.released_locks k hk with hheld | ⟨ks, hfree, hks⟩
            · exact hs.exclusive mover pid m p hm hp (Ne.symm hmine) k hheld hlock
            · exact not_mem_of_free hfree hp hmine hks hlock

/-- A process keeps a precondition of its own along a run, up to a commit of its own that its
    contract does not admit. -/
theorem Leads.follow_until (hD : Discipline S program guard K Q Inv) (hs : s.Good S K Q Inv)
    (h : Leads S program guard s t) (hp : s.procs[pid]? = some p)
    (hbears : ∀ u u' q ch, guard u (.move pid ch) u' → u.procs[pid]? = some q →
      q.job = p.job → Bears L q ch)
    (hrely : ∀ y ws, (K p.job).rely y ws → L.rely y ws) (hwp : p.prog.wp S L R p.ctx) :
    (∃ q, t.procs[pid]? = some q ∧ q.job = p.job ∧ q.prog.wp S L R q.ctx) ∨
      ∃ u u' ch q ws, Leads S program guard s u ∧ Leads S program guard u' t ∧
        u.step S program (.move pid ch) = some u' ∧ guard u (.move pid ch) u' ∧
        u.procs[pid]? = some q ∧ q.job = p.job ∧ q.ctx.now = u.store ∧
        u'.store = S.applyAll ws u.store ∧ (K p.job).guarantee q.ctx ws ∧
        ¬ L.admits q.ctx ws ∧ u.Releases S pid q ch ws := by
  induction h with
  | refl => exact Or.inl ⟨p, hp, rfl, hwp⟩
  | @step v v' e hlead hstep hguard ih =>
    rcases ih with ⟨q, hq, hjob, hq'⟩ | ⟨u, u', ch, q, ws, hu, hu', hrest⟩
    · have hfollow := (hlead.good hD hs).follow hD hstep hguard hq
        (fun ch he => hbears v v' q ch (he ▸ hguard) hq hjob) (fun y ws h => hrely y ws (hjob ▸ h)) hq'
      rcases hfollow with ⟨r, hr, hsame, hr'⟩ | ⟨ch, ws, rfl, hnow, hstore, hG, hrefused⟩
      · exact Or.inl ⟨r, hr, hsame.trans hjob, hr'⟩
      · exact Or.inr ⟨v, v', ch, q, ws, hlead, .refl, hstep, hguard, hq, hjob, hnow, hstore,
          hjob ▸ hG, hrefused⟩
    · exact Or.inr ⟨u, u', ch, q, ws, hu, .step e hu' hstep hguard, hrest⟩

/-- A process keeps a precondition of its own along a run. -/
theorem Leads.follow (hD : Discipline S program guard K Q Inv) (hs : s.Good S K Q Inv)
    (hL : L.Total) (h : Leads S program guard s t) (hp : s.procs[pid]? = some p)
    (hrely : ∀ y ws, (K p.job).rely y ws → L.rely y ws) (hwp : p.prog.wp S L R p.ctx) :
    ∃ q, t.procs[pid]? = some q ∧ q.job = p.job ∧ q.prog.wp S L R q.ctx := by
  have hfollow := h.follow_until hD hs hp (fun _ _ q ch _ _ _ => .of_total hL q ch) hrely hwp
  refine hfollow.resolve_right ?_
  rintro ⟨-, -, -, q, ws, -, -, -, -, -, -, -, -, -, hadmits, -⟩
  exact hadmits (hL.admits _ _)

/-- What a process then commits, and may commit, satisfies its own guarantee. -/
theorem Good.releases (hD : Discipline S program guard K Q Inv) (ht : t.Good S K Q Inv)
    (hp : t.procs[pid]? = some p) (hwp : p.prog.wp S L R p.ctx) {ch : Choice Ans}
    (hbears : Bears L p ch) (hstep : t.step S program (.move pid ch) = some t')
    (hguard : guard t (.move pid ch) t') (hchanged : t'.store ≠ t.store) :
    ∃ ws, p.ctx.now = t.store ∧ t'.store = S.applyAll ws t.store ∧ t.Releases S pid p ch ws ∧
      (L.admits p.ctx ws → L.guarantee p.ctx ws) := by
  obtain ⟨m, out, hm, -, hout, rfl, hnow, -⟩ := ht.move hD hstep hguard
  obtain rfl := Option.some.inj (hm.symm.trans hp)
  have hne : out.released ≠ [] := by
    intro hrel
    apply hchanged
    simp only [advance, hrel, Store.applyAll_nil]
  refine ⟨out.released, hnow, rfl, ⟨hne, out, hout, rfl⟩, fun hadmits => ?_⟩
  have hstepped := Prog.step_good hwp hbears.answers hbears.faults (fun _ => hadmits) hout
  exact hstepped.guarantee hne

/-- What a process then commits satisfies its own guarantee. -/
theorem Good.commits (hD : Discipline S program guard K Q Inv) (ht : t.Good S K Q Inv)
    (hK : L.Total) (hp : t.procs[pid]? = some p) (hwp : p.prog.wp S L R p.ctx) {ch : Choice Ans}
    (hstep : t.step S program (.move pid ch) = some t') (hguard : guard t (.move pid ch) t')
    (hchanged : t'.store ≠ t.store) :
    ∃ ws, p.ctx.now = t.store ∧ t'.store = S.applyAll ws t.store ∧ L.guarantee p.ctx ws := by
  obtain ⟨ws, hnow, hstore, -, hguarantee⟩ :=
    ht.releases hD hp hwp (.of_total hK p ch) hstep hguard hchanged
  exact ⟨ws, hnow, hstore, hguarantee (hK.admits _ _)⟩

/-- The first statement of a process reads what is committed. -/
theorem Good.reads (hD : Discipline S program guard K Q Inv) (ht : t.Good S K Q Inv)
    (hp : t.procs[pid]? = some p) (htx : p.ctx.tx = none) {next : Option σ → Prog σ ω Ans α}
    (hprog : p.prog = .stmt (fun _ => []) next) {ch : Choice Ans} (hfault : ch.fault = false)
    (hstep : t.step S program (.move pid ch) = some t') (hguard : guard t (.move pid ch) t') :
    t'.store = t.store ∧ ∃ q, t'.procs[pid]? = some q ∧ q.job = p.job ∧
      q.prog = next (some t.store) ∧ q.ctx.tx = none ∧ q.ctx.now = t.store ∧
      q.ctx.log = p.ctx.log := by
  obtain ⟨m, out, hm, -, hout, rfl, hnow, -⟩ := ht.move hD hstep hguard
  obtain rfl := Option.some.inj (hm.symm.trans hp)
  have hview : m.ctx.view S = t.store := by
    rw [Ctx.view, Ctx.pending, htx, hnow]
    rfl
  have hfree : t.free S pid [] = true := by simp [free]
  rw [hprog, Prog.step, if_neg (by simp [hfault]), Store.locksOf_nil, if_pos hfree, hview] at hout
  obtain rfl := Option.some.inj hout
  refine ⟨?_, _, advance_self hp, rfl, rfl, ?_, ?_, ?_⟩
  · simp only [advance, Ctx.released_nil, Store.applyAll_nil]
  · rw [Ctx.wrote_tx, htx]
    rfl
  · rw [Ctx.wrote_now, Ctx.released_nil, Store.applyAll_nil, hnow]
  · rw [Ctx.wrote_log]

/-- In a run that has come to `t`, the process `pid`, started for `j`, has made its first step
    on `s`, a statement that did not fail. -/
structure Begun (S : Store σ ω κ) (program : J → Prog σ ω Ans α)
    (guard : Sys J σ ω Ans α → Event J Ans → Sys J σ ω Ans α → Prop) (start : σ → Prop)
    (pid : Nat) (j : J) (s t : Sys J σ ω Ans α) : Prop where
  reach : Reach S program guard start s
  begins : ∃ p ch s', s.procs[pid]? = some p ∧ p.job = j ∧ p.Unmoved program ∧
    ch.fault = false ∧ s.step S program (.move pid ch) = some s' ∧ guard s (.move pid ch) s' ∧
    Leads S program guard s' t

/-- Such a process commits something between `t` and `t'`. -/
structure Passage (S : Store σ ω κ) (program : J → Prog σ ω Ans α)
    (guard : Sys J σ ω Ans α → Event J Ans → Sys J σ ω Ans α → Prop) (start : σ → Prop)
    (pid : Nat) (j : J) (s t t' : Sys J σ ω Ans α) : Prop
    extends Begun S program guard start pid j s t where
  commits : ∃ ch, t.step S program (.move pid ch) = some t' ∧ guard t (.move pid ch) t' ∧
    t'.store ≠ t.store

theorem Begun.leads {j : J} (h : Begun S program guard start pid j s t)
    (hlead : Leads S program guard t t') : Begun S program guard start pid j s t' := by
  obtain ⟨p, ch, s', hp, hj, hunmoved, hfault, hstep, hguard, hs'⟩ := h.begins
  exact ⟨h.reach, p, ch, s', hp, hj, hunmoved, hfault, hstep, hguard, hs'.trans hlead⟩

theorem Begun.leads_begun {j : J} (h : Begun S program guard start pid j s t) :
    Leads S program guard s t := by
  obtain ⟨p, ch, s', -, -, -, -, hstep, hguard, hlead⟩ := h.begins
  exact (Leads.step _ .refl hstep hguard).trans hlead

theorem Begun.reached {j : J} (h : Begun S program guard start pid j s t) :
    Reach S program guard start t := by
  obtain ⟨p, ch, s', -, -, -, -, hstep, hguard, hlead⟩ := h.begins
  exact hlead.reach (fun _ _ _ h => h) (.step _ h.reach hstep hguard)

theorem Passage.leads {j : J} (h : Passage S program guard start pid j s t t') :
    Leads S program guard t t' := by
  obtain ⟨ch, hstep, hguard, -⟩ := h.commits
  exact .step _ .refl hstep hguard

theorem Passage.good {j : J} (h : Passage S program guard start pid j s t t')
    (hD : Discipline S program guard K Q Inv) (hstart : ∀ st, start st → Inv st) :
    t.Good S K Q Inv := by
  obtain ⟨p, ch, s', -, -, -, -, hstep, hguard, hlead⟩ := h.begins
  exact hlead.good hD ((h.reach.good hD hstart).step hD hstep hguard)

/-- A process that reads first commits what it owes for what it has read. -/
theorem Passage.commits_read {j : J} (h : Passage S program guard start pid j s t t')
    (hD : Discipline S program guard K Q Inv) (hstart : ∀ st, start st → Inv st) (hK : L.Total)
    (hrely : ∀ y ws, (K j).rely y ws → L.rely y ws) {next : Option σ → Prog σ ω Ans α}
    (hprog : program j = .stmt (fun _ => []) next)
    (hwp : ∀ x : Ctx σ ω Ans, Inv s.store → x.now = s.store → x.tx = none →
      (next (some s.store)).wp S L R x) :
    ∃ q ws, t.procs[pid]? = some q ∧ q.job = j ∧ q.ctx.now = t.store ∧
      t'.store = S.applyAll ws t.store ∧ L.guarantee q.ctx ws := by
  obtain ⟨p, ch, s', hp, rfl, hunmoved, hfault, hstep, hguard, hlead⟩ := h.begins
  obtain ⟨ch', hcommit, hguard', hchanged⟩ := h.commits
  have hs := h.reach.good hD hstart
  obtain ⟨hsame, q, hq, hjob, hqprog, htx, hnow, -⟩ := hs.reads hD hp hunmoved.tx
    (hunmoved.prog.trans hprog) hfault hstep hguard
  have hs' := hs.step hD hstep hguard
  have hq' := hwp q.ctx hs.inv hnow htx
  rw [← hqprog] at hq'
  rw [← hjob] at hrely
  obtain ⟨r, hr, hrjob, hr'⟩ := hlead.follow hD hs' hK hq hrely hq'
  obtain ⟨ws, hrnow, hstore, hguarantee⟩ :=
    (hlead.good hD hs').commits hD hK hr hr' hcommit hguard' hchanged
  exact ⟨r, ws, hr, hrjob.trans hjob, hrnow, hstore, hguarantee⟩

/-! ### Executing a passage -/

variable {check : Sys J σ ω Ans α → Event J Ans → Sys J σ ω Ans α → Bool}

theorem exec_append {es es' : List (Event J Ans)} (h : exec S program check (es ++ es') s = some t') :
    ∃ t, exec S program check es s = some t ∧ exec S program check es' t = some t' := by
  induction es generalizing s with
  | nil => exact ⟨s, rfl, h⟩
  | cons e es ih =>
    rw [List.cons_append, exec] at h
    rw [exec]
    split at h
    · cases h
    · split at h
      · rename_i hcheck
        rw [if_pos hcheck]
        exact ih h
      · cases h

theorem exec_trans {es es' : List (Event J Ans)} (h : exec S program check es s = some t)
    (h' : exec S program check es' t = some t') : exec S program check (es ++ es') s = some t' := by
  induction es generalizing s with
  | nil =>
    obtain rfl := Option.some.inj h
    exact h'
  | cons e es ih =>
    rw [exec] at h
    rw [List.cons_append, exec]
    split at h
    · cases h
    · split at h
      · rename_i hcheck
        rw [if_pos hcheck]
        exact ih h
      · cases h

theorem exec_cons {e : Event J Ans} {es : List (Event J Ans)}
    (h : exec S program check (e :: es) s = some t') :
    ∃ t, s.step S program e = some t ∧ check s e t = true ∧
      exec S program check es t = some t' := by
  rw [exec] at h
  split at h
  · cases h
  · rename_i t ht
    split at h
    · rename_i hcheck
      exact ⟨t, ht, hcheck, h⟩
    · cases h

/-- The events `es` end with the start of the process. -/
theorem Begun.of_exec {j : J} {st : σ} {es es' : List (Event J Ans)} {ch : Choice Ans}
    (hcheck : ∀ s e s', check s e s' = true → guard s e s') (hstart : start st)
    (hs : exec S program check (es ++ [.spawn j]) (.init st) = some s)
    (hpid : s.procs.length = pid + 1) (hfault : ch.fault = false)
    (ht : exec S program check (.move pid ch :: es') s = some t) :
    Begun S program guard start pid j s t := by
  obtain ⟨s', hstep, hfirst, hrest⟩ := exec_cons ht
  refine ⟨reach_of_exec hcheck (.init hstart) hs, ?_⟩
  obtain ⟨s₀, -, hspawn⟩ := exec_append hs
  obtain ⟨u, hspawned, -, hu⟩ := exec_cons hspawn
  obtain rfl := Option.some.inj hu
  obtain rfl := Option.some.inj hspawned
  obtain rfl : s₀.procs.length = pid := by simpa using hpid
  exact ⟨_, ch, s', List.getElem?_concat_length .., rfl, ⟨rfl, rfl⟩, hfault, hstep,
    hcheck _ _ _ hfirst, Leads.of_exec hcheck .refl hrest⟩

theorem Passage.of_exec {j : J} {st : σ} {es es' : List (Event J Ans)} {ch ch' : Choice Ans}
    (hcheck : ∀ s e s', check s e s' = true → guard s e s') (hstart : start st)
    (hs : exec S program check (es ++ [.spawn j]) (.init st) = some s)
    (hpid : s.procs.length = pid + 1) (hfault : ch.fault = false)
    (ht : exec S program check (.move pid ch :: es') s = some t)
    (ht' : exec S program check [.move pid ch'] t = some t') (hchanged : t'.store ≠ t.store) :
    Passage S program guard start pid j s t t' := by
  obtain ⟨u, hcommit, hlast, hu⟩ := exec_cons ht'
  obtain rfl := Option.some.inj hu
  exact ⟨.of_exec hcheck hstart hs hpid hfault ht, ch', hcommit, hcheck _ _ _ hlast, hchanged⟩

end Sys

end Transactions
