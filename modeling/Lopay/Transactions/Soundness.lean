import Lopay.Transactions.Logic

/-!
# Soundness of the program logic

Weakest preconditions turn into statements about executions in two ways. Alone,
a program only performs commits that satisfy its guarantee; a *serial* run starts
each program when the one before has ended. Interleaved, the guarantee of whoever
commits has to imply the rely of everybody who watches; then every process of
every reachable system keeps its weakest precondition, however the scheduler mixes
them.
-/

namespace Transactions

variable {σ ω κ ι J : Type} {Ans : ι → Type} {α : Type}
variable {S : Store σ ω κ}

/-- The rely of a program that runs with nobody beside it. -/
def isolated : Ctx σ ω Ans → List ω → Prop := fun _ _ => False

/-- The contract counts on its rely only. -/
structure Contract.Total (K : Contract σ ω Ans) : Prop where
  answers : ∀ y c a, K.answers y c a
  faults : ∀ y, K.faults y
  admits : ∀ y ws, K.admits y ws

theorem Contract.plain_total (R G : Ctx σ ω Ans → List ω → Prop) : (plain R G).Total :=
  ⟨fun _ _ _ => trivial, fun _ => trivial, fun _ _ => trivial⟩

/-! ### One program alone -/

section Alone

variable {K : Contract σ ω Ans} {Q : α → Ctx σ ω Ans → Prop}

/-- A property of the committed state that holds at the start and survives every
    commit the program performs holds at its end, together with the
    postcondition. A commit may be assumed to satisfy the guarantee. -/
theorem Prog.alone_invariant {I : σ → Prop} {p : Prog σ ω Ans α} {x : Ctx σ ω Ans}
    {ch : Nat → Choice Ans} (hK : K.Total) (hwp : p.wp S K Q x) (hI : I x.now)
    (hstep : ∀ y ws, (y.now, ws) ∈ p.commits S ch x → ws ≠ [] → K.guarantee y ws →
      I y.now → I (S.applyAll ws y.now)) :
    I (p.alone S ch x).2.now ∧ Q (p.alone S ch x).1 (p.alone S ch x).2 := by
  -- Writing nothing keeps `I`; writing something is the business of `hstep`.
  have hcommit : ∀ (y : Ctx σ ω Ans) (ws : List ω), I y.now → (ws ≠ [] → K.guarantee y ws) →
      (ws ≠ [] → K.guarantee y ws → I y.now → I (S.applyAll ws y.now)) →
      I (S.applyAll ws y.now) := by
    intro y ws hy hG h
    by_cases hws : ws = []
    · rw [hws]
      exact hy
    · exact h hws (hG hws) hy
  induction p generalizing x ch with
  | ret a => exact ⟨hI, hwp⟩
  | call c k ih =>
    obtain ⟨-, hans⟩ := hwp x (.refl x)
    exact ih _ (hans _ (hK.answers x c _)) hI hstep
  | start k ih => exact ih (hwp x (.refl x)) hI hstep
  | rollback k ih => exact ih (hwp x (.refl x)) hI hstep
  | commit k ih =>
    obtain ⟨hfail, hG, hok⟩ := hwp x (.refl x)
    unfold Prog.alone
    by_cases hf : (ch 0).fault
    · simp only [Prog.commits, hf, if_true] at hstep ⊢
      exact ih false (hfail (hK.faults x)) hI hstep
    · simp only [Prog.commits, hf] at hstep ⊢
      refine ih true (hok fun _ => hK.admits x _) ?_
        fun y ws hmem => hstep y ws (List.mem_cons_of_mem _ hmem)
      rw [Ctx.see_now]
      exact hcommit x x.pending hI (fun hne => hG hne (hK.admits x _)) fun hne hg hi =>
        hstep x x.pending List.mem_cons_self hne hg hi
  | stmt w k ih =>
    obtain ⟨hfail, hG, hok⟩ := hwp x (.refl x)
    unfold Prog.alone
    by_cases hf : (ch 0).fault
    · simp only [Prog.commits, hf, if_true] at hstep ⊢
      exact ih none (hfail (hK.faults x)) hI hstep
    · simp only [Prog.commits, hf] at hstep ⊢
      refine ih _ (hok fun _ => hK.admits x _) ?_
        fun y ws hmem => hstep y ws (List.mem_cons_of_mem _ hmem)
      rw [Ctx.wrote_now]
      exact hcommit x _ hI (fun hne => hG hne (hK.admits x _)) fun hne hg hi =>
        hstep x _ List.mem_cons_self hne hg hi

/-- A program that runs alone ends in its postcondition. -/
theorem Prog.alone_post {p : Prog σ ω Ans α} {x : Ctx σ ω Ans} (ch : Nat → Choice Ans)
    (hK : K.Total) (hwp : p.wp S K Q x) : Q (p.alone S ch x).1 (p.alone S ch x).2 :=
  (Prog.alone_invariant (I := fun _ => True) hK hwp trivial fun _ _ _ _ _ _ => trivial).2

/-- Every commit of a program that runs alone satisfies its guarantee. -/
theorem Prog.alone_guarantees {p : Prog σ ω Ans α} {x : Ctx σ ω Ans} {ch : Nat → Choice Ans}
    (hK : K.Total) (hwp : p.wp S K Q x) :
    ∀ c ∈ p.commits S ch x, c.2 ≠ [] → ∃ y, y.now = c.1 ∧ K.guarantee y c.2 := by
  induction p generalizing x ch with
  | ret a => exact fun _ h => nomatch h
  | call c k ih =>
    obtain ⟨-, hans⟩ := hwp x (.refl x)
    exact ih _ (hans _ (hK.answers x c _))
  | start k ih => exact ih (hwp x (.refl x))
  | rollback k ih => exact ih (hwp x (.refl x))
  | commit k ih =>
    obtain ⟨hfail, hG, hok⟩ := hwp x (.refl x)
    by_cases hf : (ch 0).fault
    · simp only [Prog.commits, hf, if_true]
      exact ih false (hfail (hK.faults x))
    · simp only [Prog.commits, hf]
      intro c hc hne
      rcases List.mem_cons.mp hc with rfl | hc
      · exact ⟨x, rfl, hG hne (hK.admits x _)⟩
      · exact ih true (hok fun _ => hK.admits x _) c hc hne
  | stmt w k ih =>
    obtain ⟨hfail, hG, hok⟩ := hwp x (.refl x)
    by_cases hf : (ch 0).fault
    · simp only [Prog.commits, hf, if_true]
      exact ih none (hfail (hK.faults x))
    · simp only [Prog.commits, hf]
      intro c hc hne
      rcases List.mem_cons.mp hc with rfl | hc
      · exact ⟨x, rfl, hG hne (hK.admits x _)⟩
      · exact ih _ (hok fun _ => hK.admits x _) c hc hne

/-- A reflexive and transitive relation that every commit respects relates the two ends. -/
theorem Prog.commits_relate {P : σ → σ → Prop} (hrefl : ∀ s, P s s)
    (htrans : ∀ s t u, P s t → P t u → P s u) {p : Prog σ ω Ans α} {x : Ctx σ ω Ans}
    {ch : Nat → Choice Ans} (h : ∀ c ∈ p.commits S ch x, P c.1 (S.applyAll c.2 c.1)) :
    P x.now (p.alone S ch x).2.now := by
  induction p generalizing x ch with
  | ret a => exact hrefl _
  | call c k ih => exact ih (x := x.answered c _) _ h
  | start k ih => exact ih (x := x.opened) h
  | rollback k ih => exact ih (x := x.closed) h
  | commit k ih =>
    unfold Prog.alone
    by_cases hf : (ch 0).fault
    · simp only [Prog.commits, hf, if_true] at h ⊢
      exact ih (x := x.closed) false h
    · simp only [Prog.commits, hf] at h ⊢
      have hrest := ih (x := x.closed.see S x.pending) true
        fun c hc => h c (List.mem_cons_of_mem _ hc)
      rw [Ctx.see_now] at hrest
      exact htrans _ _ _ (h _ List.mem_cons_self) hrest
  | stmt w k ih =>
    unfold Prog.alone
    by_cases hf : (ch 0).fault
    · simp only [Prog.commits, hf, if_true] at h ⊢
      exact ih (x := x.failed) none h
    · simp only [Prog.commits, hf] at h ⊢
      have hrest := ih (x := x.wrote S (w (x.view S))) (some (x.view S))
        fun c hc => h c (List.mem_cons_of_mem _ hc)
      rw [Ctx.wrote_now] at hrest
      exact htrans _ _ _ (h _ List.mem_cons_self) hrest

/-- The states reached by running programs one after the other, where every
    commit satisfies `guard`. -/
inductive Serial (S : Store σ ω κ) (program : J → Prog σ ω Ans α)
    (guard : J → σ → List ω → Prop) (start : σ → Prop) : σ → Prop where
  | init {s : σ} : start s → Serial S program guard start s
  | run {s : σ} (j : J) (ch : Nat → Choice Ans) : Serial S program guard start s →
      (∀ c ∈ (program j).commits S ch (.init s), guard j c.1 c.2) →
      Serial S program guard start ((program j).alone S ch (.init s)).2.now

/-- An invariant of every commit is an invariant of serial runs. -/
theorem Serial.invariant {program : J → Prog σ ω Ans α} {guard : J → σ → List ω → Prop}
    {start : σ → Prop} {I : σ → Prop} {K : J → Contract σ ω Ans}
    {Q : J → α → Ctx σ ω Ans → Prop} (hK : ∀ j, (K j).Total)
    (hstart : ∀ s, start s → I s)
    (hwp : ∀ j s, I s → (∃ ch, ∀ c ∈ (program j).commits S ch (.init s), guard j c.1 c.2) →
      (program j).wp S (K j) (Q j) (.init s))
    (hstep : ∀ j y ws, guard j y.now ws → ws ≠ [] → (K j).guarantee y ws → I y.now →
      I (S.applyAll ws y.now))
    {s : σ} (hs : Serial S program guard start s) : I s := by
  induction hs with
  | init hst => exact hstart _ hst
  | @run s j ch _ hguard ih =>
    exact (Prog.alone_invariant (hK j) (hwp j s ih ⟨ch, hguard⟩) ih
      fun y ws hmem hne hG hI => hstep j y ws (hguard _ hmem) hne hG hI).1

/-- Run programs one after the other, as long as every commit passes `check`. -/
def execSerial (S : Store σ ω κ) (program : J → Prog σ ω Ans α) (check : J → σ → List ω → Bool) :
    List (J × (Nat → Choice Ans)) → σ → Option σ
  | [], s => some s
  | (j, ch) :: runs, s =>
    if ((program j).commits S ch (.init s)).all fun c => check j c.1 c.2 then
      execSerial S program check runs ((program j).alone S ch (.init s)).2.now
    else none

theorem Serial.of_exec {program : J → Prog σ ω Ans α} {guard : J → σ → List ω → Prop}
    {check : J → σ → List ω → Bool} (hcheck : ∀ j s ws, check j s ws = true → guard j s ws)
    {start : σ → Prop} {runs : List (J × (Nat → Choice Ans))} {s s' : σ}
    (hs : Serial S program guard start s) (hexec : execSerial S program check runs s = some s') :
    Serial S program guard start s' := by
  induction runs generalizing s with
  | nil =>
    obtain rfl := Option.some.inj hexec
    exact hs
  | cons r runs ih =>
    obtain ⟨j, ch⟩ := r
    unfold execSerial at hexec
    split at hexec
    · next hall =>
      refine ih (.run j ch hs fun c hc => hcheck j c.1 c.2 ?_) hexec
      exact List.all_eq_true.mp hall c hc
    · cases hexec

end Alone

/-! ### Many programs interleaved -/

/-- The request a program is about to make. -/
def Prog.request? : Prog σ ω Ans α → Option ι
  | .call c _ => some c
  | _ => none

section Interleaved

/-- What one step of a program with a weakest precondition leaves behind. -/
structure Stepped.Good (S : Store σ ω κ) (K : Contract σ ω Ans)
    (Q : α → Ctx σ ω Ans → Prop) (free : List κ → Bool) (x : Ctx σ ω Ans)
    (out : Stepped σ ω Ans α) : Prop where
  wp : out.prog.wp S K Q out.ctx
  guarantee : out.released ≠ [] → K.guarantee x out.released
  now : out.ctx.now = S.applyAll out.released x.now
  released_locks : ∀ k ∈ S.locksOf out.released,
    k ∈ x.locks S ∨ ∃ ks, free ks = true ∧ k ∈ ks
  held_locks : ∀ k ∈ out.ctx.locks S, k ∈ x.locks S ∨ ∃ ks, free ks = true ∧ k ∈ ks

theorem Prog.step_good {K : Contract σ ω Ans} {Q : α → Ctx σ ω Ans → Prop}
    {p : Prog σ ω Ans α} {x : Ctx σ ω Ans} {free : List κ → Bool} {ch : Choice Ans}
    {out : Stepped σ ω Ans α} (hwp : p.wp S K Q x)
    (hans : ∀ c, p.request? = some c → K.answers x c (ch.answer c))
    (hfault : ch.fault = true → K.faults x)
    (hadmits : out.released ≠ [] → K.admits x out.released)
    (hstep : p.step S free ch x = some out) : out.Good S K Q free x := by
  cases p with
  | ret a => cases hstep
  | call c k =>
    obtain rfl := Option.some.inj hstep
    obtain ⟨-, hk⟩ := hwp x (.refl x)
    exact ⟨hk _ (hans c rfl), fun h => absurd rfl h, rfl, (fun k hk => nomatch hk),
      fun k hk => Or.inl hk⟩
  | start k =>
    obtain rfl := Option.some.inj hstep
    exact ⟨hwp x (.refl x), fun h => absurd rfl h, rfl, (fun k hk => nomatch hk),
      (fun k hk => nomatch hk)⟩
  | rollback k =>
    obtain rfl := Option.some.inj hstep
    exact ⟨hwp x (.refl x), fun h => absurd rfl h, rfl, (fun k hk => nomatch hk),
      (fun k hk => nomatch hk)⟩
  | commit k =>
    obtain ⟨hfail, hG, hok⟩ := hwp x (.refl x)
    rw [Prog.step] at hstep
    split at hstep
    · next hf =>
      obtain rfl := Option.some.inj hstep
      exact ⟨hfail (hfault hf), fun h => absurd rfl h, rfl, (fun k hk => nomatch hk),
        (fun k hk => nomatch hk)⟩
    · obtain rfl := Option.some.inj hstep
      refine ⟨hok hadmits, fun hne => hG hne (hadmits hne), Ctx.see_now S _ _, fun k hk => Or.inl hk, fun k hk => ?_⟩
      rw [Ctx.see_locks] at hk
      exact nomatch hk
  | stmt w k =>
    obtain ⟨hfail, hG, hok⟩ := hwp x (.refl x)
    rw [Prog.step] at hstep
    split at hstep
    · next hf =>
      obtain rfl := Option.some.inj hstep
      exact ⟨hfail (hfault hf), fun h => absurd rfl h, rfl, (fun k hk => nomatch hk),
        fun k hk => Or.inl hk⟩
    · split at hstep
      · next hfree =>
        obtain rfl := Option.some.inj hstep
        refine ⟨hok hadmits, fun hne => hG hne (hadmits hne), Ctx.wrote_now S x _, fun k hk => ?_, fun k hk => ?_⟩
        · refine Or.inr ⟨_, hfree, ?_⟩
          unfold Ctx.released at hk
          split at hk
          · exact hk
          · exact nomatch hk
        · unfold Ctx.wrote at hk
          split at hk
          · next htx =>
            rw [Ctx.see_locks] at hk
            exact Or.inl hk
          · next pending htx =>
            have hk' : k ∈ S.locksOf (pending ++ w (x.view S)) := hk
            rw [Store.locksOf_append, List.mem_append] at hk'
            rcases hk' with hk' | hk'
            · refine Or.inl ?_
              rw [Ctx.locks, Ctx.pending, htx]
              exact hk'
            · exact Or.inr ⟨_, hfree, hk'⟩
      · cases hstep

variable {K : J → Contract σ ω Ans} {Q : J → α → Ctx σ ω Ans → Prop} {Inv : σ → Prop}

/-- A process keeps its weakest precondition, and watches the store until it is
    finished. -/
structure Proc.Good (S : Store σ ω κ) (K : J → Contract σ ω Ans)
    (Q : J → α → Ctx σ ω Ans → Prop) (store : σ) (p : Proc J σ ω Ans α) : Prop where
  wp : p.prog.wp S (K p.job) (Q p.job) p.ctx
  now : p.prog.finished = false → p.ctx.now = store

/-- The invariant of every reachable system. -/
structure Sys.Good (S : Store σ ω κ) (K : J → Contract σ ω Ans)
    (Q : J → α → Ctx σ ω Ans → Prop) (Inv : σ → Prop) (s : Sys J σ ω Ans α) : Prop where
  inv : Inv s.store
  procs : ∀ p ∈ s.procs, p.Good S K Q s.store
  exclusive : ∀ (i j : Nat) (p q : Proc J σ ω Ans α),
    s.procs[i]? = some p → s.procs[j]? = some q → i ≠ j →
    ∀ k ∈ p.ctx.locks S, k ∉ q.ctx.locks S

theorem Proc.watch_job (p : Proc J σ ω Ans α) (ws : List ω) : (p.watch S ws).job = p.job := by
  unfold Proc.watch
  split <;> rfl

theorem Proc.watch_prog (p : Proc J σ ω Ans α) (ws : List ω) :
    (p.watch S ws).prog = p.prog := by
  unfold Proc.watch
  split <;> rfl

theorem Proc.watch_log (p : Proc J σ ω Ans α) (ws : List ω) :
    (p.watch S ws).ctx.log = p.ctx.log := by
  unfold Proc.watch
  split
  · rfl
  · exact Ctx.see_log S p.ctx ws

theorem Proc.watch_locks (p : Proc J σ ω Ans α) (ws : List ω) :
    (p.watch S ws).ctx.locks S = p.ctx.locks S := by
  unfold Proc.watch
  split
  · rfl
  · exact Ctx.see_locks S p.ctx ws

/-- A watching process stays good when somebody else commits rows that its rely
    allows and that it has not locked. -/
theorem Proc.Good.watch {store : σ} {p : Proc J σ ω Ans α} (hp : p.Good S K Q store)
    {ws : List ω}
    (hR : ws ≠ [] → p.prog.finished = false → (K p.job).rely p.ctx ws)
    (hfree : ∀ k ∈ S.locksOf ws, k ∉ p.ctx.locks S) :
    (p.watch S ws).Good S K Q (S.applyAll ws store) := by
  cases hfin : p.prog.finished with
  | true =>
    have hw : p.watch S ws = p := by simp only [Proc.watch, hfin, if_true]
    rw [hw]
    exact ⟨hp.wp, fun h => by rw [hfin] at h; cases h⟩
  | false =>
    have hw : p.watch S ws = { p with ctx := p.ctx.see S ws } := by
      simp only [Proc.watch, hfin]
      rfl
    rw [hw]
    refine ⟨?_, fun _ => ?_⟩
    · by_cases hws : ws = []
      · rw [hws]
        exact hp.wp
      · exact Prog.wp_drift hfin (.step ws (.refl p.ctx) hws (hR hws hfin) hfree) hp.wp
    · rw [Ctx.see_now, hp.now hfin]

/-- The system after process `pid` has moved: itself, and everybody else watching. -/
theorem Sys.advance_procs {s : Sys J σ ω Ans α} {pid : Nat} {p : Proc J σ ω Ans α}
    {out : Stepped σ ω Ans α} (hp : s.procs[pid]? = some p) {i : Nat}
    {q' : Proc J σ ω Ans α} (hq' : (s.advance S pid p out).procs[i]? = some q') :
    (i = pid ∧ q' = { p with prog := out.prog, ctx := out.ctx }) ∨
    (i ≠ pid ∧ ∃ q, s.procs[i]? = some q ∧ q' = q.watch S out.released) := by
  have hlen : pid < s.procs.length := (List.getElem?_eq_some_iff.mp hp).1
  simp only [Sys.advance] at hq'
  rw [List.getElem?_set] at hq'
  split at hq'
  · next heq =>
    subst heq
    rw [if_pos (by rw [List.length_map]; exact hlen)] at hq'
    exact Or.inl ⟨rfl, (Option.some.inj hq').symm⟩
  · next hne =>
    rw [List.getElem?_map] at hq'
    obtain ⟨q, hq, rfl⟩ := Option.map_eq_some_iff.mp hq'
    exact Or.inr ⟨fun h => hne h.symm, q, hq, rfl⟩

variable [DecidableEq κ]

theorem Sys.not_mem_of_free {s : Sys J σ ω Ans α} {pid j : Nat} {q : Proc J σ ω Ans α}
    {ks : List κ} {k : κ} (hfree : s.free S pid ks = true) (hq : s.procs[j]? = some q)
    (hne : j ≠ pid) (hk : k ∈ ks) : k ∉ q.ctx.locks S := by
  have hmem : q ∈ s.procs.eraseIdx pid := List.mem_eraseIdx_iff_getElem?.mpr ⟨j, hne, hq⟩
  have hall := List.all_eq_true.mp hfree q hmem
  exact of_decide_eq_true (List.all_eq_true.mp hall k hk)

variable {program : J → Prog σ ω Ans α}
  {guard : Sys J σ ω Ans α → Event J Ans → Sys J σ ω Ans α → Prop}

/-- A move spelled out: who moved, and to what. -/
theorem Sys.step_move {s s' : Sys J σ ω Ans α} {pid : Nat} {ch : Choice Ans}
    (hstep : s.step S program (.move pid ch) = some s') :
    ∃ p out, s.procs[pid]? = some p ∧ p.prog.finished = false ∧
      p.prog.step S (s.free S pid) ch p.ctx = some out ∧ s' = s.advance S pid p out := by
  unfold Sys.step at hstep
  simp only at hstep
  split at hstep
  · cases hstep
  · next p hp =>
    obtain ⟨out, hout, rfl⟩ := Option.map_eq_some_iff.mp hstep
    have hrun : p.prog.finished = false := by
      cases hfin : p.prog.finished with
      | false => rfl
      | true =>
        obtain ⟨a, ha⟩ := Prog.eq_ret_of_finished hfin
        rw [ha] at hout
        cases hout
    exact ⟨p, out, hp, hrun, hout, rfl⟩

/-- How the contracts of the processes and the guard of the events fit together:
    every started program meets its contract; what the guard admits is what the
    contracts count on; commits keep the invariant; and what one process
    guarantees, every other running one can rely on. -/
structure Discipline (S : Store σ ω κ) (program : J → Prog σ ω Ans α)
    (guard : Sys J σ ω Ans α → Event J Ans → Sys J σ ω Ans α → Prop)
    (K : J → Contract σ ω Ans) (Q : J → α → Ctx σ ω Ans → Prop) (Inv : σ → Prop) :
    Prop where
  spawn : ∀ s s' j, guard s (.spawn j) s' → Inv s.store →
    (program j).wp S (K j) (Q j) (.init s.store)
  answers : ∀ s s' pid ch p c, guard s (.move pid ch) s' → s.procs[pid]? = some p →
    p.prog.request? = some c → (K p.job).answers p.ctx c (ch.answer c)
  faults : ∀ s s' pid ch p, guard s (.move pid ch) s' → s.procs[pid]? = some p →
    ch.fault = true → (K p.job).faults p.ctx
  admits : ∀ s s' pid ch p ws, guard s (.move pid ch) s' → s.procs[pid]? = some p →
    ws ≠ [] → p.ctx.now = s.store → s'.store = S.applyAll ws s.store →
    (K p.job).admits p.ctx ws
  inv : ∀ s s' pid ch p ws, guard s (.move pid ch) s' → s.procs[pid]? = some p →
    ws ≠ [] → p.ctx.now = s.store → s'.store = S.applyAll ws s.store →
    (K p.job).guarantee p.ctx ws → Inv s.store → Inv s'.store
  rely : ∀ s s' pid ch p i q ws, guard s (.move pid ch) s' → s.procs[pid]? = some p →
    s.procs[i]? = some q → i ≠ pid → q.prog.finished = false → ws ≠ [] →
    p.ctx.now = s.store → q.ctx.now = s.store → s'.store = S.applyAll ws s.store →
    (K p.job).guarantee p.ctx ws → Inv s.store → (K q.job).rely q.ctx ws

namespace Sys

/-- What a move of a good system commits satisfies the guarantee of its process. -/
theorem Good.move {s s' : Sys J σ ω Ans α} {pid : Nat} {ch : Choice Ans}
    (hD : Discipline S program guard K Q Inv) (hs : s.Good S K Q Inv)
    (hstep : s.step S program (.move pid ch) = some s') (hguard : guard s (.move pid ch) s') :
    ∃ p out, s.procs[pid]? = some p ∧ p.prog.finished = false ∧
      p.prog.step S (s.free S pid) ch p.ctx = some out ∧
      s' = s.advance S pid p out ∧ p.ctx.now = s.store ∧
      out.Good S (K p.job) (Q p.job) (s.free S pid) p.ctx := by
  obtain ⟨p, out, hp, hrun, hout, rfl⟩ := step_move hstep
  have hgood := hs.procs p (List.mem_of_getElem? hp)
  refine ⟨p, out, hp, hrun, hout, rfl, hgood.now hrun, Prog.step_good hgood.wp ?_ ?_ ?_ hout⟩
  · intro c hc
    exact hD.answers _ _ pid ch p c hguard hp hc
  · exact hD.faults _ _ pid ch p hguard hp
  · intro hne
    exact hD.admits _ _ pid ch p _ hguard hp hne (hgood.now hrun) rfl

/-- Every event either leaves the committed state alone or commits rows that
    satisfy the guarantee of the process that moved. -/
theorem Good.committed {s s' : Sys J σ ω Ans α} {e : Event J Ans}
    (hD : Discipline S program guard K Q Inv) (hs : s.Good S K Q Inv)
    (hstep : s.step S program e = some s') (hguard : guard s e s') :
    s'.store = s.store ∨ ∃ pid ch p ws, e = .move pid ch ∧ s.procs[pid]? = some p ∧
      ws ≠ [] ∧ p.ctx.now = s.store ∧ (K p.job).guarantee p.ctx ws ∧
      s'.store = S.applyAll ws s.store := by
  cases e with
  | spawn j =>
    obtain rfl := Option.some.inj hstep
    exact Or.inl rfl
  | move pid ch =>
    obtain ⟨p, out, hp, -, -, rfl, hnow, hout⟩ := hs.move hD hstep hguard
    by_cases hrel : out.released = []
    · refine Or.inl ?_
      simp only [advance, hrel, Store.applyAll_nil]
    · exact Or.inr ⟨pid, ch, p, out.released, rfl, hp, hrel, hnow, hout.guarantee hrel, rfl⟩

/-- One event keeps a system good. -/
theorem Good.step {s s' : Sys J σ ω Ans α} {e : Event J Ans}
    (hD : Discipline S program guard K Q Inv) (hs : s.Good S K Q Inv)
    (hstep : s.step S program e = some s') (hguard : guard s e s') : s'.Good S K Q Inv := by
  cases e with
  | spawn j =>
    obtain rfl := Option.some.inj hstep
    have hnew : ∀ k, k ∉ Ctx.locks S (Ctx.init s.store : Ctx σ ω Ans) := fun k hk => nomatch hk
    refine ⟨hs.inv, ?_, ?_⟩
    · intro p hp
      rcases List.mem_append.mp hp with hp | hp
      · exact hs.procs p hp
      · obtain rfl := List.mem_singleton.mp hp
        exact ⟨hD.spawn s _ j hguard hs.inv, fun _ => rfl⟩
    · intro i i' p q hp hq hne k hkp hkq
      rw [List.getElem?_append] at hp hq
      split at hp
      · split at hq
        · exact hs.exclusive i i' p q hp hq hne k hkp hkq
        · obtain rfl := List.mem_singleton.mp (List.mem_of_getElem? hq)
          exact hnew k hkq
      · obtain rfl := List.mem_singleton.mp (List.mem_of_getElem? hp)
        exact hnew k hkp
  | move pid ch =>
    obtain ⟨p, out, hp, -, -, rfl, hnow, hout⟩ := hs.move hD hstep hguard
    -- Nobody else holds a lock that the released rows need.
    have hother : ∀ j q, s.procs[j]? = some q → j ≠ pid →
        ∀ k ∈ S.locksOf out.released, k ∉ q.ctx.locks S := by
      intro j q hq hne k hk
      rcases hout.released_locks k hk with hmine | ⟨ks, hfree, hks⟩
      · exact hs.exclusive pid j p q hp hq (Ne.symm hne) k hmine
      · exact not_mem_of_free hfree hq hne hks
    refine ⟨?_, ?_, ?_⟩
    · by_cases hrel : out.released = []
      · simp only [advance, hrel, Store.applyAll_nil]
        exact hs.inv
      · exact hD.inv _ _ pid ch p _ hguard hp hrel hnow rfl (hout.guarantee hrel) hs.inv
    · intro q' hq'
      obtain ⟨i, hi⟩ := List.getElem?_of_mem hq'
      rcases advance_procs hp hi with ⟨-, rfl⟩ | ⟨hne, q, hq, rfl⟩
      · refine ⟨hout.wp, fun _ => ?_⟩
        rw [hout.now, hnow]
        rfl
      · have hgood := hs.procs q (List.mem_of_getElem? hq)
        refine hgood.watch (fun hrel hfin => ?_) (hother i q hq hne)
        exact hD.rely _ _ pid ch p i q _ hguard hp hq hne hfin hrel hnow (hgood.now hfin) rfl
          (hout.guarantee hrel) hs.inv
    · intro i i' q₁ q₂ h₁ h₂ hne k hk₁ hk₂
      rcases advance_procs hp h₁ with ⟨hi, rfl⟩ | ⟨hi, r₁, hr₁, rfl⟩
      · rcases advance_procs hp h₂ with ⟨hi', rfl⟩ | ⟨hi', r₂, hr₂, rfl⟩
        · exact hne (hi.trans hi'.symm)
        · rw [Proc.watch_locks] at hk₂
          rcases hout.held_locks k hk₁ with hmine | ⟨ks, hfree, hks⟩
          · exact hs.exclusive pid i' p r₂ hp hr₂ (Ne.symm hi') k hmine hk₂
          · exact not_mem_of_free hfree hr₂ hi' hks hk₂
      · rw [Proc.watch_locks] at hk₁
        rcases advance_procs hp h₂ with ⟨hi', rfl⟩ | ⟨hi', r₂, hr₂, rfl⟩
        · rcases hout.held_locks k hk₂ with hmine | ⟨ks, hfree, hks⟩
          · exact hs.exclusive pid i p r₁ hp hr₁ (Ne.symm hi) k hmine hk₁
          · exact not_mem_of_free hfree hr₁ hi hks hk₁
        · rw [Proc.watch_locks] at hk₂
          exact hs.exclusive i i' r₁ r₂ hr₁ hr₂ hne k hk₁ hk₂

/-- Every reachable system is good. -/
theorem Reach.good {start : σ → Prop} {s : Sys J σ ω Ans α}
    (hD : Discipline S program guard K Q Inv) (hstart : ∀ st, start st → Inv st)
    (hreach : Reach S program guard start s) : s.Good S K Q Inv := by
  induction hreach with
  | init hst =>
    exact ⟨hstart _ hst, (fun p hp => nomatch hp), (fun i j p q hp => nomatch hp)⟩
  | step e _ hstep hguard ih => exact ih.step hD hstep hguard

/-- A schedule whose events all pass the check reaches its end. -/
theorem reach_of_exec {check : Sys J σ ω Ans α → Event J Ans → Sys J σ ω Ans α → Bool}
    (hcheck : ∀ s e s', check s e s' = true → guard s e s') {start : σ → Prop}
    {es : List (Event J Ans)} {s s' : Sys J σ ω Ans α}
    (hs : Reach S program guard start s)
    (hexec : exec S program check es s = some s') :
    Reach S program guard start s' := by
  induction es generalizing s with
  | nil =>
    obtain rfl := Option.some.inj hexec
    exact hs
  | cons e es ih =>
    unfold exec at hexec
    split at hexec
    · cases hexec
    · next t ht =>
      split at hexec
      · next hc => exact ih (.step e hs ht (hcheck s e t hc)) hexec
      · cases hexec

end Sys

end Interleaved

end Transactions
