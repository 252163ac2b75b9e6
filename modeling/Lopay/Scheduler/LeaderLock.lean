import Lopay.Transactions.Table

/-!
# The leader lock

`PrismaService.withLeaderLock`: a call computes its cutoff from its own reading of the clock, then
inserts the row of its name, or takes it over if that row is older than the cutoff. There is no
release, so what keeps two callbacks apart is the age a row must have reached. The calls of any
number of instances are interleaved, with any delay between the two steps of each; an instance that
crashes is one whose call takes no further step.
-/

namespace Lopay

namespace Scheduler

open Transactions

/-- The name and the time to live that a call asks for. -/
structure Claim where
  name : String
  ttlMs : Int
deriving DecidableEq, Repr

/-- How far a call has come. -/
inductive Call where
  | idle
  | computed (cutoff : Int)
  | skipped
  | running (since : Int)
  | returned (since finish : Int)
deriving DecidableEq, Repr

def Call.acquiredAt : Call → Option Int
  | .running since => some since
  | .returned since _ => some since
  | _ => none

def Call.finishedAt : Call → Option Int
  | .returned _ finish => some finish
  | _ => none

/-- The clock in microseconds, the rows of `SchedulerLock` and the calls. -/
structure Cluster where
  clock : Int
  lockedAt : Table String Int
  calls : Nat → Call

/-- `Date.now()`: whole milliseconds. -/
def dateNow (clock : Int) : Int := clock / 1000

/-- `now()` as a `TIMESTAMP(3)` column keeps it: rounded to the millisecond. -/
def stamp (clock : Int) : Int := (clock + 500) / 1000

/-- Insert the lock, or steal it if its row is older than the cutoff; and how many rows that
    affected. -/
def insertOrSteal (lockedAt : Table String Int) (name : String) (cutoff now : Int) :
    Table String Int × Nat :=
  match lockedAt.lookup name with
  | none => (lockedAt.insert name now, 1)
  | some locked => if locked < cutoff then (lockedAt.insert name now, 1) else (lockedAt, 0)

inductive Event where
  | wait (micros : Nat)
  | begin (call : Nat)
  | execute (call : Nat)
  | finish (call : Nat)
deriving DecidableEq, Repr

def Cluster.withCall (cluster : Cluster) (call : Nat) (next : Call) : Cluster :=
  { cluster with calls := Function.update cluster.calls call next }

variable (claims : Nat → Claim)

/-- One step; what a call is not ready for does nothing. -/
def Cluster.step (cluster : Cluster) : Event → Cluster
  | .wait micros => { cluster with clock := cluster.clock + micros }
  | .begin call =>
      match cluster.calls call with
      | .idle => cluster.withCall call (.computed (dateNow cluster.clock - (claims call).ttlMs))
      | _ => cluster
  | .execute call =>
      match cluster.calls call with
      | .computed cutoff =>
          let (lockedAt, acquired) :=
            insertOrSteal cluster.lockedAt (claims call).name cutoff (stamp cluster.clock)
          { cluster with lockedAt := lockedAt }.withCall call
            (if acquired = 1 then .running cluster.clock else .skipped)
      | _ => cluster
  | .finish call =>
      match cluster.calls call with
      | .running since => cluster.withCall call (.returned since cluster.clock)
      | _ => cluster

def Cluster.after (cluster : Cluster) (events : List Event) : Cluster :=
  events.foldl (Cluster.step claims) cluster

/-! ### One step -/

/-- Two claims that are more than the later one's time to live apart. -/
def Apart (ttl ttl' since since' : Int) : Prop :=
  since + ttl' * 1000 < since' ∨ since' + ttl * 1000 < since

/-- A cutoff is in the past by the time to live; every claim was written down and no row has been
    set back since; and the claims under one name are apart. -/
structure Sound (cluster : Cluster) : Prop where
  cutoffs : ∀ call cutoff, cluster.calls call = .computed cutoff →
    cutoff ≤ dateNow cluster.clock - (claims call).ttlMs
  stamped : ∀ call since, (cluster.calls call).acquiredAt = some since →
    since ≤ cluster.clock ∧ ∃ locked, cluster.lockedAt.lookup (claims call).name = some locked
      ∧ stamp since ≤ locked
  apart : ∀ call call' since since', call ≠ call' → (claims call).name = (claims call').name →
    (cluster.calls call).acquiredAt = some since → (cluster.calls call').acquiredAt = some since' →
    Apart (claims call).ttlMs (claims call').ttlMs since since'

variable {claims}

theorem Apart.symm {ttl ttl' since since' : Int} (h : Apart ttl ttl' since since') :
    Apart ttl' ttl since' since :=
  Or.symm h

theorem dateNow_mono {clock clock' : Int} (h : clock ≤ clock') : dateNow clock ≤ dateNow clock' :=
  Int.ediv_le_ediv (by decide) h

theorem stamp_mono {clock clock' : Int} (h : clock ≤ clock') : stamp clock ≤ stamp clock' :=
  Int.ediv_le_ediv (by decide) (by omega)

/-- A row older than a cutoff was claimed more than the time to live ago. -/
theorem claim_lapsed {since locked cutoff clock ttl : Int} (hsince : stamp since ≤ locked)
    (hold : locked < cutoff) (hcutoff : cutoff ≤ dateNow clock - ttl) :
    since + ttl * 1000 < clock := by
  unfold stamp dateNow at *
  omega

/-- A call that moves on without claiming anything new keeps all that holds. -/
theorem Sound.withCall {cluster : Cluster} (hsound : Sound claims cluster) {call : Nat} {next : Call}
    (hcutoff : ∀ cutoff, next = .computed cutoff →
      cutoff ≤ dateNow cluster.clock - (claims call).ttlMs)
    (hclaim : ∀ since, next.acquiredAt = some since →
      (cluster.calls call).acquiredAt = some since) :
    Sound claims (cluster.withCall call next) := by
  have hback : ∀ other since, ((cluster.withCall call next).calls other).acquiredAt = some since →
      (cluster.calls other).acquiredAt = some since := by
    intro other since hother
    by_cases heq : other = call
    · subst heq
      exact hclaim since (by simpa [Cluster.withCall] using hother)
    · simpa [Cluster.withCall, Function.update_of_ne heq] using hother
  refine ⟨fun other cutoff hother => ?_, fun other since hother => ?_,
    fun one other since since' hne hname hone hother => ?_⟩
  · by_cases heq : other = call
    · subst heq
      exact hcutoff cutoff (by simpa [Cluster.withCall] using hother)
    · exact hsound.cutoffs other cutoff
        (by simpa [Cluster.withCall, Function.update_of_ne heq] using hother)
  · exact hsound.stamped other since (hback other since hother)
  · exact hsound.apart one other since since' hne hname (hback one since hone)
      (hback other since' hother)

/-- Time passing keeps it too. -/
theorem Sound.wait {cluster : Cluster} (hsound : Sound claims cluster) (micros : Nat) :
    Sound claims { cluster with clock := cluster.clock + micros } where
  cutoffs call cutoff hcall := by
    have hbefore := hsound.cutoffs call cutoff hcall
    have hlater := dateNow_mono (by omega : cluster.clock ≤ cluster.clock + micros)
    exact hbefore.trans (by simpa using hlater)
  stamped call since hcall := by
    obtain ⟨hsince, hlocked⟩ := hsound.stamped call since hcall
    exact ⟨hsince.trans (by simp), hlocked⟩
  apart := hsound.apart

/-- The call that inserts or steals the row is apart from every claim before it. -/
theorem Sound.claim {cluster : Cluster} (hsound : Sound claims cluster) {call : Nat} {cutoff : Int}
    (hcall : cluster.calls call = .computed cutoff)
    (hrow : ∀ locked, cluster.lockedAt.lookup (claims call).name = some locked →
      locked < cutoff) :
    Sound claims ({ cluster with
        lockedAt := cluster.lockedAt.insert (claims call).name (stamp cluster.clock) }.withCall call
      (.running cluster.clock)) := by
  have hcutoff := hsound.cutoffs call cutoff hcall
  have hlapsed : ∀ other since, (claims other).name = (claims call).name →
      (cluster.calls other).acquiredAt = some since →
        since + (claims call).ttlMs * 1000 < cluster.clock := by
    intro other since hname hother
    obtain ⟨-, locked, hlocked, hstamp⟩ := hsound.stamped other since hother
    rw [hname] at hlocked
    exact claim_lapsed hstamp (hrow locked hlocked) hcutoff
  refine ⟨fun other cutoff' hother => ?_, fun other since hother => ?_,
    fun one other since since' hne hname hone hother => ?_⟩
  · by_cases heq : other = call
    · simp [Cluster.withCall, heq] at hother
    · simp only [Cluster.withCall, Function.update_of_ne heq] at hother
      exact hsound.cutoffs other cutoff' hother
  · by_cases heq : other = call
    · subst heq
      simp only [Cluster.withCall, Function.update_self, Call.acquiredAt, Option.some.injEq] at hother
      subst hother
      exact ⟨le_refl _, _, AList.lookup_insert _, le_refl _⟩
    · simp only [Cluster.withCall, Function.update_of_ne heq] at hother
      obtain ⟨hsince, locked, hlocked, hstamp⟩ := hsound.stamped other since hother
      refine ⟨hsince, ?_⟩
      simp only [Cluster.withCall, Table.lookup_insert_ite]
      split
      · exact ⟨_, rfl, stamp_mono hsince⟩
      · exact ⟨locked, hlocked, hstamp⟩
  · by_cases hcall : one = call
    · subst hcall
      simp only [Cluster.withCall, Function.update_self, Call.acquiredAt, Option.some.injEq,
        Function.update_of_ne hne.symm] at hone hother
      subst hone
      exact Or.inr (hlapsed other since' hname.symm hother)
    · by_cases hcall' : other = call
      · subst hcall'
        simp only [Cluster.withCall, Function.update_self, Call.acquiredAt, Option.some.injEq,
          Function.update_of_ne hcall] at hone hother
        subst hother
        exact Or.inl (hlapsed one since hname hone)
      · simp only [Cluster.withCall, Function.update_of_ne hcall, Function.update_of_ne hcall']
          at hone hother
        exact hsound.apart one other since since' hne hname hone hother

theorem Sound.step {cluster : Cluster} (hsound : Sound claims cluster) (event : Event) :
    Sound claims (cluster.step claims event) := by
  cases event with
  | wait micros => exact hsound.wait micros
  | begin call =>
    simp only [Cluster.step]
    split
    · exact hsound.withCall (fun cutoff h => by cases h; exact le_refl _) fun since h => by cases h
    · exact hsound
  | execute call =>
    simp only [Cluster.step]
    split
    · rename_i cutoff hcall
      unfold insertOrSteal
      split
      · rename_i hnone
        exact hsound.claim hcall fun locked hlocked => by rw [hnone] at hlocked; cases hlocked
      · rename_i locked hlocked
        split
        · rename_i hold
          refine hsound.claim hcall fun other hother => ?_
          rw [hlocked, Option.some.injEq] at hother
          exact hother ▸ hold
        · exact hsound.withCall (fun cutoff h => by cases h) fun since h => by cases h
    · exact hsound
  | finish call =>
    simp only [Cluster.step]
    split
    · rename_i since hcall
      exact hsound.withCall (fun cutoff h => by cases h) fun since' h => by rw [hcall]; exact h
    · exact hsound

/-! ### Runs -/

theorem Sound.after {cluster : Cluster} (hsound : Sound claims cluster) (events : List Event) :
    Sound claims (cluster.after claims events) := by
  induction events generalizing cluster with
  | nil => exact hsound
  | cons event rest ih => exact ih (hsound.step event)

variable (claims) in
/-- Nobody has called yet; whatever is in the table. -/
theorem sound_of_idle {cluster : Cluster} (hidle : ∀ call, cluster.calls call = .idle) :
    Sound claims cluster where
  cutoffs call cutoff h := by rw [hidle] at h; cases h
  stamped call since h := by rw [hidle] at h; cases h
  apart call _ since _ _ _ h _ := by rw [hidle] at h; cases h

/-- In every interleaving, two calls under one name and time to live that both run their callback
    acquired the lock more than the time to live apart; and the one that acquired it first, if its
    callback finished within that time, had finished before the other began. -/
theorem leader_lock_excludes {start : Cluster} (hidle : ∀ call, start.calls call = .idle)
    {events : List Event} {call call' : Nat} (hne : call ≠ call') (hclaim : claims call = claims call')
    {since since' : Int}
    (hsince : ((start.after claims events).calls call).acquiredAt = some since)
    (hsince' : ((start.after claims events).calls call').acquiredAt = some since') :
    (claims call).ttlMs * 1000 < |since' - since|
      ∧ (since ≤ since' → ∀ finish,
        ((start.after claims events).calls call).finishedAt = some finish →
          finish ≤ since + (claims call).ttlMs * 1000 → finish < since') := by
  have hapart := ((sound_of_idle claims hidle).after events).apart call call' since since' hne
    (congrArg Claim.name hclaim) hsince hsince'
  rw [← hclaim] at hapart
  unfold Apart at hapart
  constructor
  · rw [lt_abs]
    omega
  · intro hle finish _ hfinish
    omega

def freeLock (clock : Int) : Cluster := ⟨clock, ∅, fun _ => .idle⟩

/-- Every ten minutes two instances start a sweep: the first takes the lock, the second finds it
    taken, and a third call steals it in the next round. -/
def twoRounds : List Event :=
  [.begin 0, .begin 1, .wait 2000, .execute 0, .execute 1, .wait 90000000, .finish 0,
    .wait 510000000, .begin 2, .wait 1000, .execute 2]

def sweeps : Nat → Claim := fun _ => ⟨"paystack-reconciliation", 5 * 60 * 1000⟩

theorem leader_lock_excludes_sweeps :
    ((freeLock 0).after sweeps twoRounds).calls 1 = .skipped
      ∧ 5 * 60 * 1000 * 1000 < |(600003000 : Int) - 2000|
      ∧ ((2000 : Int) ≤ 600003000 → ∀ finish,
        (((freeLock 0).after sweeps twoRounds).calls 0).finishedAt = some finish →
          finish ≤ 2000 + 5 * 60 * 1000 * 1000 → finish < 600003000) := by
  have hfirst : (((freeLock 0).after sweeps twoRounds).calls 0).acquiredAt = some 2000 := by decide
  have hthird : (((freeLock 0).after sweeps twoRounds).calls 2).acquiredAt = some 600003000 := by
    decide
  have hne : 0 ≠ 2 := by decide
  exact ⟨by decide, leader_lock_excludes (fun _ => rfl) hne rfl hfirst hthird⟩

end Scheduler

end Lopay
