import Lopay.Books.Coherent
import Lopay.Ledger.Migrated
import Lopay.Transactions.Final
import Lopay.Transactions.Smooth

/-!
# Statements that nothing disturbs

The Prisma calls of a method that runs by itself: each sees what the calls before it have
left, and ends in one way.
-/

namespace Lopay

open Transactions

section Smooth

variable {s v w : Db} {x : Context}

theorem Coherent.plan? (hs : Coherent s) {id : Id} {e : ChildEnrollment}
    (he : s.enrollments.lookup id = some e) : ∃ plan, s.plan? id = some plan ∧ plan.row = e := by
  obtain ⟨-, ⟨c, parent, hc, hparent⟩, ⟨school, hschool⟩, -⟩ := hs.enrollments id e he
  refine ⟨⟨id, e, school, c, parent⟩, ?_, rfl⟩
  simp only [Db.plan?, he, hschool, hc, hparent, Option.bind_eq_bind, Option.bind_some]

theorem statement_smooth {α : Type} (h : x.On store s (some v))
    {f : Db → Except Err (α × List Write)} {ok : α → Context → Prop} {err : Err → Context → Prop}
    (a : α) (ws : List Write) (hf : f v = .ok (a, ws))
    (hok : ∀ y, y.On store s (some (store.applyAll ws v)) → ok a y) :
    (statement f).smooth store ok err x := by
  refine Routine.smooth_inside h (fun a' ws' y hf' hy => ?_) fun e y hf' _ => ?_
  · rw [hf] at hf'
    cases hf'
    exact hok y hy
  · rw [hf] at hf'
    cases hf'

theorem lockEnrollment_smooth (h : x.On store s (some v)) {id : Id}
    {ok : Option ChildEnrollment → Context → Prop} {err : Err → Context → Prop}
    (hok : ∀ y, y.On store s (some v) → ok (v.enrollments.lookup id) y) :
    (lockEnrollment id).smooth store ok err x :=
  statement_smooth h _ _ rfl hok

theorem record_smooth (h : x.On store s (some v)) {entry : AuditEntry}
    {ok : Unit → Context → Prop} {err : Err → Context → Prop}
    (hok : ∀ w y, y.On store s (some w) → ok () y) : (record entry).smooth store ok err x :=
  statement_smooth h _ _ rfl (hok _)

theorem updatePayments_smooth (h : x.On store s (some v)) {id : Id} {filter : Payment → Bool}
    {data : Payment → Payment} {ok : Nat → Context → Prop} {err : Err → Context → Prop} {p : Payment}
    (hp : v.payments.lookup id = some p) (hfilter : filter p = true)
    (hok : ∀ y, y.On store s (some (store.apply (.putPayment id (data p)) v)) → ok 1 y) :
    (updatePayments id filter data).smooth store ok err x := by
  refine statement_smooth h 1 [.putPayment id (data p)] ?_ hok
  simp only [hp, hfilter, if_true]

theorem updateEnrollment_smooth (h : x.On store s (some v)) {id : Id}
    {data : ChildEnrollment → ChildEnrollment} {ok : ChildEnrollment → Context → Prop}
    {err : Err → Context → Prop} {e : ChildEnrollment} (he : v.enrollments.lookup id = some e)
    (hok : ∀ y, y.On store s (some (store.apply (.putEnrollment id (data e)) v)) → ok (data e) y) :
    (updateEnrollment id data).smooth store ok err x := by
  refine statement_smooth h (data e) [.putEnrollment id (data e)] ?_ hok
  simp only [he]

theorem restateInvite_smooth (h : x.On store s (some v)) {inviteId : Option Id} {amount : Int}
    {ok : Unit → Context → Prop} {err : Err → Context → Prop}
    (hok : ∀ w y, y.On store s (some w) → ok () y) :
    (Ledger.restateInvite inviteId amount).smooth store ok err x := by
  cases inviteId with
  | none => exact hok v x h
  | some inviteId =>
    cases hinvite : v.invites.lookup inviteId with
    | none =>
      refine statement_smooth h () [] ?_ (hok _)
      simp only [hinvite]
    | some invite =>
      refine statement_smooth h () [.putInvite inviteId { invite with amountAlreadyPaid := amount }]
        ?_ (hok _)
      simp only [hinvite]

theorem createNotification_smooth {n : Notification} (h : x.On store s none)
    {ok : Unit → Context → Prop} {err : Err → Context → Prop} (hok : ∀ y, y.On store s none → ok () y)
    (herr : ∀ e y, y.On store s none → err e y) :
    (createNotification n).smooth store ok err x := by
  refine Routine.wp_bind (Routine.smooth_ask h fun delivered y hy => ?_)
  exact Routine.wp_throwIf (fun _ => herr _ y hy) fun _ => hok y hy

theorem emitChanges_smooth {targets : ChangeTargets} (h : x.On store s none)
    {ok : Unit → Context → Prop} {err : Err → Context → Prop}
    (hok : ∀ y, y.On store s none → ok () y) : (emitChanges targets).smooth store ok err x := by
  refine Routine.wp_bind (Routine.smooth_ask h fun _ y hy => ?_)
  exact Routine.wp_bind (Routine.smooth_ask hy fun _ y hy => hok y hy)

/-! ### Before and after a commit -/

theorem statement_ends {α : Type} {f : Db → Except Err (α × List Write)}
    {ok : Bool → Bool → α → Prop} {err : Bool → Bool → Err → Prop} {c : Bool}
    (herr : ∀ e, err c true e) (hok : ∀ a, ok c true a) : (statement f).Ends ok err c true :=
  Routine.ends_exec herr hok

theorem createNotification_ends {n : Notification} {ok : Bool → Bool → Unit → Prop}
    {err : Bool → Bool → Err → Prop} {c i : Bool} (hok : ok c i ()) (herr : ∀ e, err c i e) :
    (createNotification n).Ends ok err c i := by
  refine Routine.ends_bind fun delivered => ?_
  exact Routine.ends_throwIf (herr _) hok

end Smooth

end Lopay
