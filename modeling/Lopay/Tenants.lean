import Lopay.AuditTrail

/-!
# Schools apart

A school acts on payments and plans by their keys, which anyone may name. Each of these operations
finds its row inside the acting school first and writes by bare keys later; that the two agree
rests on rows that never change schools and on payments that are of the school of their plan.
-/

namespace Lopay

open Transactions

/-- The school that a job acts for. -/
def Job.actsFor? : Job → Option Id
  | confirmPayment _ schoolId _ | rejectPayment _ schoolId _ | reversePayment _ schoolId _ _
  | confirmFirstPayment _ schoolId _ | amendMigratedPayment _ _ schoolId _ _
  | markEnrollmentAsDefaulted _ schoolId _ => some schoolId
  | _ => none

/-! ### Sessions of a school -/

/-- The contract of a job that posts on rows of the school it acts for. -/
def acting (j : Job) : Contract Db Write Answer :=
  .plain (fun y ws => ∃ kind, Posts Stable kind y.now ws) fun y ws =>
    (∃ kind, Posts Stable kind y.now ws) ∧
      ∀ schoolId ∈ j.actsFor?, ∃ kind, PostsWithin Stable kind schoolId y.now ws

section Acting

variable {j : Job} {kind : Kind} {schoolId : Id} {s : Db} {ws : List Write}

theorem PostsWithin.posts (h : PostsWithin Stable kind schoolId s ws) : Posts Stable kind s ws := by
  rcases h with ⟨entry, hposting, hmade, -⟩
  exact ⟨entry, hposting, hmade⟩

theorem Posts.coherent_stable (hs : Coherent s) (h : Posts Stable kind s ws) :
    Coherent (store.applyAll ws s) := h.coherent (fun _ hc => hc) hs

theorem acting_session : Session (acting j) Stable (fun _ => Coherent) where
  refl := .refl
  trans := fun _ _ _ => .trans
  stable := fun _ _ h => h
  coherent := fun _ _ h => h
  rely := by
    rintro y ws ⟨kind, hposts⟩ hcoh
    rcases id hposts with ⟨entry, hposting, hmade⟩
    exact ⟨hposting.stable hmade, ⟨kind, hposts⟩, hposts.coherent_stable hcoh⟩
  answers := fun _ _ _ _ _ h => h
  asks := fun _ _ _ _ => trivial

/-- A job that acts for a school owes postings on its rows. -/
theorem acting_owesWithin (hj : j.actsFor? = some schoolId) :
    OwesWithin (acting j) Stable (fun _ => Coherent) kind schoolId := by
  intro y ws hcoh hposts _
  refine ⟨⟨⟨kind, hposts.posts⟩, fun other hother => ?_⟩, hposts.posts.coherent_stable hcoh⟩
  rw [hj] at hother
  obtain rfl := Option.some.inj hother
  exact ⟨kind, hposts⟩

/-- Any other job owes postings. -/
theorem acting_owes (hj : j.actsFor? = none) :
    Owes (acting j) Stable (fun _ => Coherent) kind := by
  intro y ws hcoh hposts _
  refine ⟨⟨⟨kind, hposts⟩, fun other hother => ?_⟩, hposts.coherent_stable hcoh⟩
  rw [hj] at hother
  cases hother

/-- A rejection is of the school by what it posts. -/
theorem acting_owesReject {paymentId : Id} (hj : j.actsFor? = some schoolId) :
    Owes (acting j) Stable (fun _ => Coherent) (.reject paymentId schoolId) := by
  rintro y ws hcoh ⟨entry, hposting, hmade⟩ hadmits
  refine acting_owesWithin hj y ws hcoh ⟨entry, hposting, hmade, ?_⟩ hadmits
  cases hposting with
  | reject hp hschool =>
    constructor
    · intro k q hk
      rcases Prod.mk.inj (Option.some.inj hk) with ⟨rfl, -⟩
      exact ⟨_, hp, hschool⟩
    · intro k e' hk
      cases hk
  | close hp hcloses => exact hcoh.within hp hcloses.2

/-- Every job keeps to the contract. -/
theorem Job.acting_wp (j : Job) (hs : Coherent s) :
    j.program.wp store (acting j) (fun _ _ => True) (.init s) := by
  have hx : Rests (fun _ => Coherent) false (Ctx.init s : Context) := ⟨rfl, hs⟩
  cases j with
  | confirmPayment paymentId schoolId actor =>
    exact wp_map_run (confirmPayment_within acting_session (acting_owesWithin rfl) hx)
  | rejectPayment paymentId schoolId actor =>
    exact wp_map_run (rejectPayment_posts acting_session (acting_owesReject rfl) hx)
  | reversePayment paymentId schoolId actor reason =>
    exact wp_map_run (reversePayment_within acting_session (acting_owesWithin rfl) hx)
  | confirmFirstPayment enrollmentId schoolId actor =>
    exact wp_map_run (confirmFirstPayment_within acting_session (acting_owesWithin rfl) hx)
  | amendMigratedPayment enrollmentId newAmountKobo schoolId actor reason =>
    exact wp_map_run (amendMigratedPayment_within acting_session (acting_owesWithin rfl) hx)
  | markEnrollmentAsDefaulted enrollmentId schoolId actor =>
    exact wp_map_run (markEnrollmentAsDefaulted_within acting_session (acting_owesWithin rfl) hx)
  | _ =>
    refine Prog.wp_mono (fun _ _ _ => trivial) (Job.posts acting_session (fun _ _ _ _ h => h)
      (fun _ _ => trivial) _ (fun kind _ => acting_owes rfl) hx)

end Acting

/-! ### Runs -/

section Runs

variable {guard : Service → Event Job Answer → Service → Prop} {start : Db → Prop}
  {t t' : Service}

theorem acting_discipline :
    Discipline store Job.program guard acting (fun _ _ _ => True) Coherent := by
  constructor
  · exact fun _ _ j _ hs => j.acting_wp hs
  · exact fun _ _ _ _ _ _ _ _ _ => trivial
  · exact fun _ _ _ _ _ _ _ _ => trivial
  · exact fun _ _ _ _ _ _ _ _ _ _ _ => trivial
  · rintro t t' pid ch p ws - - - hnow hstore ⟨⟨kind, hposts⟩, -⟩ hcoh
    rw [hstore]
    rw [hnow] at hposts
    exact hposts.coherent_stable hcoh
  · rintro t t' pid ch p i q ws - - - - - - hp hq - ⟨⟨kind, hposts⟩, -⟩ -
    rw [hp] at hposts
    exact ⟨kind, by rw [hq]; exact hposts⟩

/-- The rows that a commit on rows of one school changes. -/
theorem PostsWithin.changed {kind : Kind} {schoolId : Id} {s : Db} {ws : List Write}
    (h : PostsWithin Stable kind schoolId s ws) :
    (∀ k, (store.applyAll ws s).payments.lookup k ≠ s.payments.lookup k →
      ∃ q, s.payments.lookup k = some q ∧ q.schoolId = schoolId) ∧
    ∀ id, (store.applyAll ws s).enrollments.lookup id ≠ s.enrollments.lookup id →
      ∃ e, s.enrollments.lookup id = some e ∧ e.schoolId = schoolId := by
  rcases h with ⟨entry, -, hmade, hwithin⟩
  constructor
  · intro k hchanged
    by_cases hput : ∃ q, entry.payment = some (k, q)
    · rcases hput with ⟨q, hq⟩
      exact hwithin.payment k q hq
    · exact absurd (hmade.payment_kept fun q hq => hput ⟨q, hq⟩) hchanged
  · intro id hchanged
    by_cases hput : ∃ e, entry.plan = some (id, e)
    · rcases hput with ⟨e, he⟩
      exact hwithin.plan id e he
    · exact absurd (hmade.plan_kept fun e he => hput ⟨e, he⟩) hchanged

/-- A step of a job that acts for a school changes rows of that school only. -/
theorem reach_acting (ht : Sys.Reach store Job.program guard Coherent t) {pid : Nat}
    {ch : Choice Answer} {p : Proc Job Db Write Answer (Except Err Reply)} {schoolId : Id}
    (hstep : t.step store Job.program (.move pid ch) = some t') (hguard : guard t (.move pid ch) t')
    (hp : t.procs[pid]? = some p) (hacts : p.job.actsFor? = some schoolId) :
    t'.store = t.store ∨ ∃ kind ws, PostsWithin Stable kind schoolId t.store ws ∧
      t'.store = store.applyAll ws t.store := by
  have hgood := ht.good acting_discipline fun _ h => h
  rcases hgood.committed acting_discipline hstep hguard with hsame | hmoved
  · exact .inl hsame
  · rcases hmoved with ⟨pid', ch', p', ws, hevent, hp', -, hnow, ⟨-, hwithin⟩, hstore⟩
    rcases Event.move.inj hevent with ⟨rfl, rfl⟩
    obtain rfl := Option.some.inj (hp.symm.trans hp')
    rcases hwithin schoolId hacts with ⟨kind, hposts⟩
    rw [hnow] at hposts
    exact .inr ⟨kind, ws, hposts, hstore⟩

/-- Rows continue from one step to the next. -/
theorem reach_stable (ht : Sys.Reach store Job.program guard Coherent t) {e : Event Job Answer}
    (hstep : t.step store Job.program e = some t') (hguard : guard t e t') :
    Stable t.store t'.store := by
  rcases reach_committed Moves.any (fun _ _ _ _ _ _ => trivial) (fun _ h => h) ht hstep hguard with
    hsame | ⟨pid, ch, p, kind, ws, -, -, -, -, ⟨entry, hposting, hmade⟩, hstore⟩
  · rw [hsame]
    exact .refl _
  · rw [hstore]
    exact hposting.stable hmade

/-- Whatever jobs of whatever schools run beside each other, every payment is of the school of its
    plan, no row ever changes schools, and a step of a job that acts for a school changes payments
    and plans of that school only. -/
theorem schools_apart (ht : Sys.Reach store Job.program (fun _ _ _ => True) Coherent t) :
    (∀ k p, t.store.payments.lookup k = some p →
      ∃ e, t.store.enrollments.lookup p.enrollmentId = some e ∧ p.schoolId = e.schoolId) ∧
    ∀ ev t', t.step store Job.program ev = some t' →
      (∀ k p q, t.store.payments.lookup k = some p → t'.store.payments.lookup k = some q →
        q.schoolId = p.schoolId) ∧
      (∀ id e e', t.store.enrollments.lookup id = some e →
        t'.store.enrollments.lookup id = some e' → e'.schoolId = e.schoolId) ∧
      ∀ pid ch p schoolId, ev = .move pid ch → t.procs[pid]? = some p →
        p.job.actsFor? = some schoolId →
        (∀ k, t'.store.payments.lookup k ≠ t.store.payments.lookup k →
          ∃ q, t.store.payments.lookup k = some q ∧ q.schoolId = schoolId) ∧
        ∀ id, t'.store.enrollments.lookup id ≠ t.store.enrollments.lookup id →
          ∃ e, t.store.enrollments.lookup id = some e ∧ e.schoolId = schoolId := by
  have hcoh := reach_coherent (fun _ h => h) ht
  refine ⟨fun k p hp => ?_, fun ev t' hstep => ⟨?_, ?_, ?_⟩⟩
  · rcases hcoh.planOf hp with ⟨e, he, hsame, -⟩
    exact ⟨e, he, hsame⟩
  · intro k p q hp hq
    exact ((reach_stable ht hstep trivial).payment hp hq).schoolId
  · intro id e e' he he'
    exact ((reach_stable ht hstep trivial).enrollment he he').schoolId
  · rintro pid ch p schoolId rfl hp hacts
    rcases reach_acting ht hstep trivial hp hacts with hsame | ⟨kind, ws, hwithin, hstore⟩
    · rw [hsame]
      exact ⟨fun k h => absurd rfl h, fun id h => absurd rfl h⟩
    · rw [hstore]
      exact hwithin.changed

end Runs

/-- The school confirms the receipt `x4`. -/
theorem schools_apart_receiptUnderway : ∃ t t' p q,
    Sys.exec store Job.program (fun _ _ _ => true) receiptUnderway (.init oneFamily) = some t ∧
    t.step store Job.program (.move 3 (smoothly "c" 10)) = some t' ∧ t.procs[3]? = some p ∧
    p.job.actsFor? = some "school" ∧
    t'.store.payments.lookup "x4" ≠ t.store.payments.lookup "x4" ∧
    t.store.payments.lookup "x4" = some q ∧ q.schoolId = "school" := by
  have hruns : ((Sys.exec store Job.program (fun _ _ _ => true) receiptUnderway
      (.init oneFamily)).any fun t => (t.step store Job.program (.move 3 (smoothly "c" 10))).any
        fun t' => (t.procs[3]?).any fun p => p.job.actsFor? = some "school" ∧
          (t'.store.payments.lookup "x4").map (·.isConfirmed) ≠
            (t.store.payments.lookup "x4").map (·.isConfirmed)) = true := by
    decide +kernel
  rcases (Option.any_eq_true _ _).mp hruns with ⟨t, ht, hany⟩
  rcases (Option.any_eq_true _ _).mp hany with ⟨t', ht', hany⟩
  rcases (Option.any_eq_true _ _).mp hany with ⟨p, hp, hcond⟩
  rcases of_decide_eq_true hcond with ⟨hacts, hflag⟩
  have hchanged : t'.store.payments.lookup "x4" ≠ t.store.payments.lookup "x4" := by
    intro hsame
    rw [hsame] at hflag
    exact hflag rfl
  have hapart := (schools_apart (Sys.reach_of_exec (fun _ _ _ _ => trivial)
    (.init oneFamily_opening.coherent) ht)).2 _ t' ht'
  rcases (hapart.2.2 3 _ p "school" rfl hp hacts).1 "x4" hchanged with ⟨q, hq, hschool⟩
  exact ⟨t, t', p, q, ht, ht', hp, hacts, hchanged, hq, hschool⟩

end Lopay
