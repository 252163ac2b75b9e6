import Lopay.Books.Jobs
import Lopay.Transactions.Follow

/-!
# One job followed among the others

A job that is followed from its first read on counts on the others for postings only, and
commits what it owes for what it has read.
-/

namespace Lopay

open Transactions

variable {A G : Context → List Write → Prop}

/-- A method that counts on others to post what they may. -/
def amid (A G : Context → List Write → Prop) : Contract Db Write Answer where
  rely := fun y ws => ∃ kind, True ∧ Posts Stable kind y.now ws
  answers := fun _ _ _ => True
  faults := fun _ => True
  admits := A
  guarantee := G
  asks := fun _ _ => True

theorem amid_total : (amid (fun _ _ => True) G).Total :=
  ⟨fun _ _ _ => trivial, fun _ => trivial, fun _ _ => trivial⟩

theorem amid_session : Session (amid A G) Stable fun _ => Coherent where
  refl := Moves.any.refl
  trans := Moves.any.trans
  stable := fun _ _ h => h
  coherent := fun _ _ h => h
  rely := by
    rintro y ws ⟨kind, -, hposts⟩ hcoh
    exact ⟨Moves.any.step kind y.now ws trivial hcoh hposts, ⟨kind, hposts⟩,
      hposts.coherent (fun _ h => h) hcoh⟩
  answers := fun _ _ _ _ _ h => h
  asks := fun _ _ _ _ => trivial

/-- In a run with everybody else, such a method commits what it owes for what it has read. -/
theorem posts_of_passage {j : Job} {pid : Nat} {s t t' : Service} {α β : Type} {q : Db → β}
    {f : β → Action α} {g : α → Reply} {ok : α → Context → Prop} {err : Err → Context → Prop}
    (h : Sys.Passage store Job.program (fun _ _ _ => True) Opening pid j s t t')
    (hbegins : j.action = g <$> (read q >>= f))
    (hbody : ∀ x, Knows Stable (fun _ => Coherent) none (Stable s.store) x →
      (f (q s.store)).wp store (amid (fun _ _ => True) G) ok err x) :
    Coherent t.store ∧ ∃ y ws, y.now = t.store ∧ t'.store = store.applyAll ws t.store ∧ G y ws := by
  have hprog : j.program = _ := (congrArg ExceptT.run hbegins).trans (Routine.map_query_run g)
  have hstart : ∀ s, Opening s → Coherent s := fun _ h => h.coherent
  have hcommits := h.commits_read (L := amid (fun _ _ => True) G) (R := fun _ _ => True)
    (Moves.any.discipline fun _ _ _ _ _ _ => trivial) hstart amid_total (fun _ _ h => h) hprog
  obtain ⟨p, ws, -, -, hnow, hstore, hG⟩ := hcommits fun x hcoh hnow htx => by
    have hx : Knows Stable (fun _ => Coherent) none (Stable s.store) x := ⟨htx, ?_, ?_, ?_⟩
    · exact wp_map_run (hbody x hx)
    · rw [hnow]
      exact hcoh
    · rw [hnow]
      exact .refl _
    · exact fun u v hb hu => hu.trans hb.env
  have hgood := h.good (Moves.any.discipline fun _ _ _ _ _ _ => trivial) hstart
  exact ⟨hgood.inv, p.ctx, ws, hnow, hstore, hG⟩

/-- Later in a run the database is a later one. -/
theorem leads_stable {t u : Service}
    (ht : Sys.Reach store Job.program (fun _ _ _ => True) Opening t)
    (h : Sys.Leads store Job.program (fun _ _ _ => True) t u) : Stable t.store u.store := by
  induction h with
  | refl => exact .refl _
  | step e hlead hstep _ ih =>
    refine ih.trans ?_
    rcases reach_committed Moves.any (fun _ _ _ _ _ _ => trivial) (fun _ h => h.coherent)
      (hlead.reach (fun _ _ _ h => h) ht) hstep trivial with
      hsame | ⟨_, _, _, _, _, -, -, -, -, ⟨entry, hposting, hmade⟩, hstore⟩
    · rw [hsame]
      exact .refl _
    · rw [hstore]
      exact hposting.stable hmade

end Lopay
