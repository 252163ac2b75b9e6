import Lopay.Books.Jobs

/-!
# Who becomes a defaulter

The sweep defaults a plan by an update that is guarded on the row: ACTIVE, with a balance.
A school's own mark looks at nothing, and a withdrawn confirmation writes back the status
it has read. Apart from these two, only a plan that is open and owes money is branded.
-/

namespace Lopay

open Transactions

/-- The plan is open and owes money. -/
def ChildEnrollment.Owing (e : ChildEnrollment) : Prop :=
  e.paymentStatus = .ACTIVE ∧ 0 < e.remainingBalance

instance (e : ChildEnrollment) : Decidable e.Owing := inferInstanceAs (Decidable (_ ∧ _))

def Db.defaulted (db : Db) (id : Id) : Bool :=
  (db.enrollments.lookup id).any fun e => e.paymentStatus = .DEFAULTED

/-- The step from `s` to `t` writes DEFAULTED to the plan: it records so, or the plan was
    not DEFAULTED before. -/
def Brands (s t : Db) (id : Id) : Prop :=
  t.defaulted id = true ∧ (s.defaulted id = false ∨
    ∃ a, t.auditLogs = s.auditLogs ++ [a] ∧ a.IsAbout .ENROLLMENT_DEFAULTED id)

/-- The plan that a school marks. -/
def Job.marks? : Job → Option Id
  | markEnrollmentAsDefaulted enrollmentId .. => some enrollmentId
  | _ => none

/-- While a confirmation is withdrawn its plan does not stop being DEFAULTED. -/
def KeepsDefault (j : Job) (c s : Db) : Prop :=
  ∀ k ∈ j.withdraws?, ∀ p ∈ c.payments.lookup k,
    c.defaulted p.enrollmentId = true → s.defaulted p.enrollmentId = true

instance (j : Job) (c s : Db) : Decidable (KeepsDefault j c s) :=
  inferInstanceAs (Decidable (∀ k ∈ j.withdraws?, _))

/-- A school's mark takes effect on a plan that owes, and nobody ends a default while the
    confirmation of one of its installments is being withdrawn. -/
structure MarksCarefully (t : Service) (e : Event Job Answer) (t' : Service) : Prop where
  marks : ∀ x ∈ t.mover? e, ∀ id ∈ x.job.marks?,
    t.store.auditLogs.length < t'.store.auditLogs.length →
      ∀ plan ∈ t.store.enrollments.lookup id, plan.Owing
  keeps : ∀ q ∈ t.others e, q.prog.finished = false → KeepsDefault q.job t.store t'.store

instance (t : Service) (e : Event Job Answer) (t' : Service) :
    Decidable (MarksCarefully t e t') :=
  decidable_of_iff ((∀ x ∈ t.mover? e, ∀ id ∈ x.job.marks?,
      t.store.auditLogs.length < t'.store.auditLogs.length →
        ∀ plan ∈ t.store.enrollments.lookup id, plan.Owing) ∧
    ∀ q ∈ t.others e, q.prog.finished = false → KeepsDefault q.job t.store t'.store)
    ⟨fun h => ⟨h.1, h.2⟩, fun h => ⟨h.marks, h.keeps⟩⟩

variable {s t : Db} {kind : Kind} {entry : Entry} {locks : List Lock} {j : Job}

theorem Db.defaulted_of_lookup {id : Id} {e : ChildEnrollment}
    (he : s.enrollments.lookup id = some e) :
    s.defaulted id = true ↔ e.paymentStatus = .DEFAULTED := by
  simp [Db.defaulted, he]

theorem keepsDefault_heeded : Heeded KeepsDefault where
  refl := fun _ _ _ _ _ _ h => h
  trans := by
    intro j s t u hst _ hfirst hthen k hk p hp hdefaulted
    obtain ⟨q, hq, hc⟩ := hst.payments k p hp
    have hmid := hfirst k hk p hp hdefaulted
    rw [← hc.enrollmentId] at hmid ⊢
    exact hthen k hk q hq hmid

theorem Job.eq_markEnrollmentAsDefaulted {id : Id} (h : j.May (.markDefaulted id)) :
    j.marks? = some id := by
  cases j <;> simp [May, Kind.Charges, marks?] at h ⊢
  exact h.symm

/-- A plan that was DEFAULTED before is branded only by a record of it. -/
theorem Entry.Made.recorded (hm : entry.Made s t locks) {id : Id} (hb : Brands s t id)
    (hs : s.defaulted id = true) : ∃ a ∈ entry.audit, a.IsAbout .ENROLLMENT_DEFAULTED id := by
  rcases hb.2 with hnot | ⟨a, ha, habout⟩
  · rw [hs] at hnot
    cases hnot
  · rw [hm.auditLogs] at ha
    have hlast := List.append_cancel_left ha
    cases haudit : entry.audit with
    | none => simp [haudit] at hlast
    | some b =>
      simp only [haudit, Option.toList_some, List.cons.injEq, and_true] at hlast
      exact ⟨b, rfl, by rw [hlast]; exact habout⟩

/-- A record of something else does not record a default. -/
theorem AuditEntry.IsAbout.no_default {a : AuditEntry} {action : AuditAction} {k id : Id}
    (ha : a.IsAbout action k) (hne : action ≠ .ENROLLMENT_DEFAULTED) :
    ¬ ∃ b ∈ some a, b.IsAbout .ENROLLMENT_DEFAULTED id := by
  rintro ⟨b, hb, habout⟩
  obtain rfl := Option.some.inj hb
  exact hne (ha.1.symm.trans habout.1)

/-- A posting that brands a plan is a school's mark, or the sweep's on a plan that owes. -/
theorem Posting.brands (h : Posting (fun c s => Stable c s ∧ KeepsDefault j c s) s kind entry)
    (hm : entry.Made s t locks) (hmay : j.May kind) {id : Id} (hb : Brands s t id) :
    kind = .markDefaulted id ∨ ∃ e, s.enrollments.lookup id = some e ∧ e.Owing := by
  obtain ⟨e', he', hdefaulted⟩ := (Option.any_eq_true _ _).mp hb.1
  have hstatus : e'.paymentStatus = .DEFAULTED := of_decide_eq_true hdefaulted
  -- A plan that stays DEFAULTED is branded by a record only.
  have hstays : ∀ {e : ChildEnrollment}, s.enrollments.lookup id = some e →
      e.paymentStatus = .DEFAULTED → ∃ a ∈ entry.audit, a.IsAbout .ENROLLMENT_DEFAULTED id :=
    fun he hd => hm.recorded hb ((Db.defaulted_of_lookup he).mpr hd)
  rcases hm.enrollment_cases he' with hput | ⟨hold, hother⟩
  · cases h with
    | confirm _ _ _ he ha =>
      obtain ⟨rfl, rfl⟩ := Prod.mk.inj (Option.some.inj hput)
      unfold ChildEnrollment.paidDown at hstatus
      split at hstatus
      · cases hstatus
      · exact absurd (hstays he hstatus) (ha.no_default (by decide))
    | reverse hp _ _ _ he hc _ hbefore ha hread =>
      obtain ⟨rfl, rfl⟩ := Prod.mk.inj (Option.some.inj hput)
      unfold ChildEnrollment.restored at hstatus
      simp only at hstatus
      split at hstatus
      · cases hstatus
      · -- The status it writes back is still the plan's own.
        have hkept := hc.2 _ (Job.withdraws_of_may hmay) _ hread
          ((Db.defaulted_of_lookup hbefore).mpr hstatus)
        exact absurd (hstays he ((Db.defaulted_of_lookup he).mp hkept))
          (ha.no_default (by decide))
    | close _ _ _ _ he _ =>
      obtain ⟨rfl, rfl⟩ := Prod.mk.inj (Option.some.inj hput)
      cases hstatus
    | credit =>
      obtain ⟨rfl, rfl⟩ := Prod.mk.inj (Option.some.inj hput)
      unfold ChildEnrollment.openedBy at hstatus
      simp only at hstatus
      split at hstatus <;> cases hstatus
    | dispute =>
      obtain ⟨rfl, rfl⟩ := Prod.mk.inj (Option.some.inj hput)
      unfold ChildEnrollment.disputed at hstatus
      split at hstatus <;> cases hstatus
    | markDefaulted =>
      obtain ⟨rfl, -⟩ := Prod.mk.inj (Option.some.inj hput)
      exact Or.inl rfl
    | sweepDefaulted he hactive hpos =>
      obtain ⟨rfl, -⟩ := Prod.mk.inj (Option.some.inj hput)
      exact Or.inr ⟨_, he, hactive, hpos⟩
    | openPlan _ ho | reopenPlan _ _ ho =>
      obtain ⟨rfl, rfl⟩ := Prod.mk.inj (Option.some.inj hput)
      rw [ho.pending] at hstatus
      cases hstatus
    | submit _ _ _ _ _ _ _ _ he =>
      obtain ⟨rfl, rfl⟩ := Prod.mk.inj (Option.some.inj hput)
      obtain ⟨b, hb, -⟩ := hstays he hstatus
      cases hb
    | migrate =>
      obtain ⟨rfl, rfl⟩ := Prod.mk.inj (Option.some.inj hput)
      simp only [Ledger.migratedEnrollment, deriveMigratedPlan] at hstatus
      split at hstatus <;> cases hstatus
    | amend _ _ _ _ he _ ha =>
      obtain ⟨rfl, rfl⟩ := Prod.mk.inj (Option.some.inj hput)
      unfold ChildEnrollment.amended statusAfterMigratedAmendment at hstatus
      simp only at hstatus
      split at hstatus
      · cases hstatus
      · split at hstatus
        · cases hstatus
        · exact absurd (hstays he hstatus) (ha.no_default (by decide))
    | reject | releaseKey | storeAccessCode | aside => cases hput
  · have hrecorded := hstays hold hstatus
    cases h with
    | markDefaulted _ ha | sweepDefaulted _ _ _ ha =>
      obtain ⟨b, hb, habout⟩ := hrecorded
      obtain rfl := Option.some.inj hb
      obtain rfl := ha.2.symm.trans habout.2
      exact absurd rfl (hother _)
    | confirm _ _ _ _ ha | reverse _ _ _ _ _ _ _ _ ha | reject _ _ _ _ ha
    | dispute _ _ _ _ _ _ _ _ ha | migrate _ _ _ _ _ _ _ ha | amend _ _ _ _ _ _ ha =>
      exact absurd hrecorded (ha.no_default (by decide))
    | credit haction _ _ _ _ _ ha =>
      refine absurd hrecorded (ha.no_default ?_)
      rcases haction with rfl | rfl | rfl <;> decide
    | close _ _ _ _ _ haudit =>
      obtain ⟨b, hb, habout⟩ := hrecorded
      rcases haudit b hb with h | h
      · have hcontra := h.1.symm.trans habout.1
        cases hcontra
      · have hcontra := h.1.symm.trans habout.1
        cases hcontra
    | openPlan | reopenPlan | submit | releaseKey | storeAccessCode | aside =>
      obtain ⟨b, hb, -⟩ := hrecorded
      cases hb

variable {t t' : Service}

/-- Interleave the jobs in any way: as long as schools mark carefully, every step that
    brands a plan acts on one that is ACTIVE and owes money. -/
theorem only_owing_plans_branded (ht : Sys.Reach store Job.program MarksCarefully Opening t)
    {e : Event Job Answer} (hstep : t.step store Job.program e = some t')
    (hcareful : MarksCarefully t e t') {id : Id} (hb : Brands t.store t'.store id) :
    ∃ plan, t.store.enrollments.lookup id = some plan ∧ plan.paymentStatus = .ACTIVE ∧
      0 < plan.remainingBalance := by
  rcases reach_heeded keepsDefault_heeded (fun _ _ _ _ hguard => hguard.keeps)
      (fun s hs => hs.coherent) ht hstep hcareful with
    hsame | ⟨pid, ch, x, kind, ws, rfl, hx, hmay, ⟨entry, hposting, hmade⟩, hstore⟩
  · -- Nothing has been written.
    rw [hsame] at hb
    rcases hb with ⟨hafter, hbefore | ⟨a, ha, -⟩⟩
    · rw [hafter] at hbefore
      cases hbefore
    · have hnil := List.append_cancel_left (ha.symm.trans (List.append_nil _).symm)
      cases hnil
  · have hb' := hb
    rw [hstore] at hb'
    rcases hposting.brands hmade hmay hb' with rfl | ⟨plan, hplan, howing⟩
    · cases hposting with
      | markDefaulted he =>
        refine ⟨_, he, hcareful.marks x hx id (Job.eq_markEnrollmentAsDefaulted hmay) ?_ _ he⟩
        rw [hstore, hmade.auditLogs]
        simp
      | close _ hcloses => exact hcloses.elim
    · exact ⟨plan, hplan, howing⟩

/-- A school marks the open plan `a6`; the next step of its call commits. -/
def markedWhenOpen : List (Event Job Answer) :=
  uninterrupted 0 (.enrollChild (enrollment none) "parent") "a" 18 ++
  uninterrupted 1 (.settleFirstPayment "a8" admin) "b" 12 ++
  uninterrupted 2 (.markEnrollmentAsDefaulted "a6" "school" owner) "c" 5

theorem only_owing_plans_branded_markedWhenOpen : ∃ t t' plan,
    Sys.exec store Job.program (fun t e t' => decide (MarksCarefully t e t')) markedWhenOpen
      (.init oneFamily) = some t ∧
    t.step store Job.program (.move 2 (smoothly "c" 5)) = some t' ∧
    Brands t.store t'.store "a6" ∧ t.store.enrollments.lookup "a6" = some plan ∧
    plan.paymentStatus = .ACTIVE ∧ 0 < plan.remainingBalance := by
  have hruns : ((Sys.exec store Job.program (fun t e t' => decide (MarksCarefully t e t'))
      markedWhenOpen (.init oneFamily)).any fun t =>
        (t.step store Job.program (.move 2 (smoothly "c" 5))).any fun t' =>
          MarksCarefully t (.move 2 (smoothly "c" 5)) t' ∧
            t.store.defaulted "a6" = false ∧ t'.store.defaulted "a6" = true) = true := by
    decide +kernel
  obtain ⟨t, ht, hany⟩ := (Option.any_eq_true _ _).mp hruns
  obtain ⟨t', ht', hcond⟩ := (Option.any_eq_true _ _).mp hany
  obtain ⟨hcareful, hbefore, hafter⟩ := of_decide_eq_true hcond
  have hb : Brands t.store t'.store "a6" := ⟨hafter, Or.inl hbefore⟩
  have hreach : Sys.Reach store Job.program MarksCarefully Opening t :=
    Sys.reach_of_exec (fun _ _ _ h => of_decide_eq_true h) (.init oneFamily_opening) ht
  obtain ⟨plan, hplan, howing⟩ := only_owing_plans_branded hreach ht' hcareful hb
  exact ⟨t, t', plan, ht, ht', hb, hplan, howing⟩

/-- A school marks a plan that has never been opened. -/
def markedWhenPending : List (Event Job Answer) :=
  uninterrupted 0 (.enrollChild (enrollment none) "parent") "a" 18 ++
  uninterrupted 1 (.markEnrollmentAsDefaulted "a6" "school" owner) "c" 5

theorem only_owing_plans_branded_needs_condition :
    ¬ ∀ (t : Service) e t', Sys.Reach store Job.program (fun _ _ _ => True) Opening t →
      t.step store Job.program e = some t' → ∀ id, Brands t.store t'.store id →
      ∃ plan, t.store.enrollments.lookup id = some plan ∧ plan.paymentStatus = .ACTIVE ∧
        0 < plan.remainingBalance := by
  intro hlaw
  have hruns : ((Sys.exec store Job.program (fun _ _ _ => true) markedWhenPending
      (.init oneFamily)).any fun t =>
        (t.step store Job.program (.move 1 (smoothly "c" 5))).any fun t' =>
          (t.store.enrollments.lookup "a6").any fun plan => plan.paymentStatus = .PENDING ∧
            t.store.defaulted "a6" = false ∧ t'.store.defaulted "a6" = true) = true := by
    decide +kernel
  obtain ⟨t, ht, hany⟩ := (Option.any_eq_true _ _).mp hruns
  obtain ⟨t', ht', hany⟩ := (Option.any_eq_true _ _).mp hany
  obtain ⟨plan, hplan, hcond⟩ := (Option.any_eq_true _ _).mp hany
  obtain ⟨hpending, hbefore, hafter⟩ := of_decide_eq_true hcond
  have hreach : Sys.Reach store Job.program (fun _ _ _ => True) Opening t :=
    Sys.reach_of_exec (fun _ _ _ _ => trivial) (.init oneFamily_opening) ht
  obtain ⟨plan', hplan', hactive, -⟩ := hlaw t _ t' hreach ht' "a6" ⟨hafter, Or.inl hbefore⟩
  obtain rfl := Option.some.inj (hplan.symm.trans hplan')
  rw [hpending] at hactive
  cases hactive

end Lopay
