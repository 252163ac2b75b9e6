import Lopay.Tame.Invites

/-!
# The two flags of a payment

A payment is confirmed if and only if its status is SUCCESS, in every interleaving of
everything that writes payments: what a statement finds in its own row is all it needs.
-/

namespace Lopay

open Transactions

/-- The payments, each under its row lock. -/
def paymentRows : Rows store agree Id (Option Payment) where
  row k db := db.payments.lookup k
  lock := .payment
  frame := fun k _ s hk => store_frame.frame (.payment k) _ s hk
  congr := fun k w _ _ h => (agree_apply (k := .payment k) w h.symm).symm
  locked := fun _ _ _ h => h

theorem Payment.KeepsAgreeing.trans {p q r : Option Payment} (h : Payment.KeepsAgreeing p q)
    (h' : Payment.KeepsAgreeing q r) : Payment.KeepsAgreeing p r :=
  fun hp => h' (h hp)

/-- A step of whatever runs leaves the flags of every payment in step. -/
theorem step_agreeing {env : InviteEnvironment} {guard : Office → Event Work Answer → Office → Prop}
    {start : Db → Prop} {s s' : Office} (hs : Sys.Reach store (Work.program env) guard start s)
    {e : Event Work Answer} (hstep : s.step store (Work.program env) e = some s')
    (hguard : guard s e s') (k : Id) :
    Payment.KeepsAgreeing (s.store.payments.lookup k) (s'.store.payments.lookup k) := by
  have hjobs (t : Office) (w : Work) (t' : Office) (_ : guard t (.spawn w) t') :
      (Work.program env w).obeys (fun _ => Agreeing) (fun _ _ => True) .nil := by
    refine Prog.obeys_mono ?_ ((Work.keeps env w).obeys .nil)
    exact fun _ _ _ => trivial
  rcases hs.obeys store_frame (fun _ ws _ _ h => agree_applyAll ws h)
    (L := fun _ _ => Agreeing) hjobs hstep hguard with hsame | hmoved
  · rw [hsame]
    exact fun h => h
  · obtain ⟨pid, ch, p, τ, done, -, -, -, -, hreplays, hstore⟩ := hmoved
    rw [hstore]
    apply hreplays.law paymentRows
    · exact fun _ h => h
    · exact fun _ _ _ h h' => h.trans h'
    · exact fun _ v ws _ hlaw => hlaw k

/-- In every payment the two flags say the same. -/
def Db.FlagsAgree (db : Db) : Prop := ∀ k p, db.payments.lookup k = some p → p.Agrees

/-- In every interleaving a payment is confirmed if and only if its status is SUCCESS; so
    those that are confirmed are those whose status is SUCCESS. -/
theorem payment_flags_agree (env : InviteEnvironment) {s : Office}
    (hs : Sys.Reach store (Work.program env) (fun _ _ _ => True) Db.FlagsAgree s) :
    (∀ k p, s.store.payments.lookup k = some p → (p.isConfirmed = true ↔ p.status = .SUCCESS)) ∧
    s.store.payments.rows.filter (fun r => r.2.isConfirmed) =
      s.store.payments.rows.filter (fun r => r.2.status = .SUCCESS) := by
  have hagree : s.store.FlagsAgree := by
    induction hs with
    | init hstart => exact hstart
    | step e hs hstep hguard ih => exact fun k => step_agreeing hs hstep hguard k (ih k)
  constructor
  · exact hagree
  · apply List.filter_congr
    intro r hr
    have h := hagree r.1 r.2 (Table.mem_rows.mp hr)
    rw [Payment.Agrees] at h
    simp only [← h, Bool.decide_eq_true]

/-- A deposit that the admin has settled. -/
theorem payment_flags_agree_settled : ∃ s : Office,
    Sys.exec store (Work.program inviteEnvironment) (fun _ _ _ => true)
      (working 0 (.payments (.enrollChild (enrollment none) "parent")) "a" 18 ++
        working 1 (.payments (.settleFirstPayment "a8" admin)) "b" 12) (.init oneFamily) = some s ∧
    (∀ k p, s.store.payments.lookup k = some p → (p.isConfirmed = true ↔ p.status = .SUCCESS)) ∧
    s.store.payments.rows.filter (fun r => r.2.isConfirmed) =
      s.store.payments.rows.filter (fun r => r.2.status = .SUCCESS) := by
  have hruns : (Sys.exec store (Work.program inviteEnvironment) (fun _ _ _ => true)
      (working 0 (.payments (.enrollChild (enrollment none) "parent")) "a" 18 ++
        working 1 (.payments (.settleFirstPayment "a8" admin)) "b" 12)
      (.init oneFamily)).isSome = true := by
    decide +kernel
  obtain ⟨s, hs⟩ := Option.isSome_iff_exists.mp hruns
  have hstart : oneFamily.FlagsAgree := by
    intro k p hp
    cases hp
  exact ⟨s, hs, payment_flags_agree inviteEnvironment
    (Sys.reach_of_exec (fun _ _ _ _ => trivial) (.init hstart) hs)⟩

end Lopay
