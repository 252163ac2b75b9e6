import Lopay.Fees.Moves

/-!
# The cached list and the rows

What a reader is served by the cache was listed at some moment, and what has changed the rows
since has still to delete the cached list: that is kept by every step but three, a store of a
list that was read too early, a delete that fails, and `createClassFee`, which deletes before it
writes. In a run without these a call to `getClassFees` is served every write that had returned
when it began.
-/

namespace Lopay.Fees

open Transactions Sys

variable {locale : Locale}

/-- Nothing is cached but what is listed. -/
def Opening (locale : Locale) (s : Shelf) : Prop :=
  ∀ X list, cachedList X s = some list → list = feeList locale X s

/-- A run of the service. -/
abbrev History (locale : Locale) := Timeline store (Job.program locale) (Opening locale)

/-- A request under way. -/
abbrev Request := Proc Job Shelf Write Answer (Except Err Reply)

/-- The request has published a schedule and has still to delete the cached list. -/
def Owes (X : Id) (s : Desk) (pid : Nat) : Prop :=
  ∃ (p : Request) (fees : _), s.procs[pid]? = some p ∧ p.job = .setClassFees X fees ∧
    nextWrites p.prog s.store = [.delCache (CacheKeys.classFees X)]

/-- The request holds a list of the school that it is about to store. -/
def Holds (X : Id) (s : Desk) (pid : Nat) : Prop :=
  ∃ (p : Request) (list : _), s.procs[pid]? = some p ∧
    nextWrites p.prog s.store = [.setCache (CacheKeys.classFees X) list]

namespace History

variable (R : History locale) (X : Id)

/-- The step changes a fee row of the school. -/
def Changes (m : Nat) : Prop := ¬ SameFees X (R.state m).store (R.state (m + 1)).store

/-- The step is one of this request. -/
def By (m pid : Nat) : Prop := ∃ ch, R.event m = .move pid ch

/-- The request has not returned. -/
def Unfinished (a pid : Nat) : Prop :=
  ∀ p : Request, (R.state a).procs[pid]? = some p → p.prog.finished = false

/-- A list that is put into the cache has not been overtaken: whoever has changed the rows since
    they were read has still to delete what is cached. -/
def StoresInTime (i : Nat) : Prop :=
  ∀ X list pid, R.By i pid → cachedList X (R.state i).store ≠ some list →
    cachedList X (R.state (i + 1)).store = some list →
    ∀ k < i, R.By k pid → Holds X (R.state (k + 1)) pid →
    ∀ m, k < m → m < i → R.Changes X m → ∃ writer, R.By m writer ∧ Owes X (R.state i) writer

/-- A delete that is owed does not fail, unless what is cached is up to date. -/
def DeletesInTime (i : Nat) : Prop :=
  ∀ X pid ch list, R.event i = .move pid ch → ch.fault = true → Owes X (R.state i) pid →
    cachedList X (R.state i).store = some list → list = feeList locale X (R.state i).store

/-- `createClassFee` changes the rows of a school only while no list of it is cached. -/
def CreatesInTime (i : Nat) : Prop :=
  ∀ (X : Id) (pid : Nat) (p : Request), R.By i pid → (R.state i).procs[pid]? = some p →
    (∃ Y className feeAmount, p.job = .createClassFee Y className feeAmount) →
    R.Changes X i → cachedList X (R.state i).store = none

/-- Every step of the run is in time. -/
structure Timely : Prop where
  stores : ∀ i < R.length, R.StoresInTime i
  deletes : ∀ i < R.length, R.DeletesInTime i
  creates : ∀ i < R.length, R.CreatesInTime i

/-- Every call that has not looked into the cache at `a` and has returned a list at `b` returns
    the rows of some moment, since which nobody who had returned at `a` has changed them. -/
def Serves : Prop :=
  ∀ (pid a b : Nat) (X : Id) (list : List ListedFee) (p q : Request), a ≤ b → b ≤ R.length → (R.state a).procs[pid]? = some p →
    p.prog = looking locale X → (R.state b).procs[pid]? = some q →
    q.prog = .ret (.ok (.fees list)) →
    ∃ k ≤ b, list = feeList locale X (R.state k).store ∧
      ∀ m, k ≤ m → m < a → R.Changes X m → ∃ writer, R.By m writer ∧ R.Unfinished a writer

variable {R} {X} {i pid : Nat}

/-! ### One step of a run -/

theorem watched (hi : i ≤ R.length) {p : Request} (hp : (R.state i).procs[pid]? = some p)
    (hrun : p.prog.finished = false) : p.ctx.now = (R.state i).store :=
  (Reach.observes (R := fun _ _ => True) (fun _ _ => trivial)
    (fun _ _ _ _ _ _ _ _ _ _ _ _ => trivial) (R.reach hi) p (List.mem_of_getElem? hp)).now hrun

/-- A move, when the mover is in one of its phases. -/
theorem move_of_phase (hi : i < R.length) {ch : Choice Answer} (he : R.event i = .move pid ch)
    (hphase : ∀ p : Request, (R.state i).procs[pid]? = some p →
      Phase locale p.job p.prog p.ctx.tx) :
    ∃ (p : Request) (out : Stepped Shelf Write Answer (Except Err Reply)),
      (R.state i).procs[pid]? = some p ∧ p.ctx.now = (R.state i).store ∧
      p.prog.step store ((R.state i).free store pid) ch p.ctx = some out ∧
      R.state (i + 1) = (R.state i).advance store pid p out ∧
      Told locale p.job p.prog (R.state i).store out := by
  have hstep := R.steps i hi
  rw [he] at hstep
  obtain ⟨p, out, hp, hrun, hout, hadvance⟩ := step_move hstep
  have hnow := watched hi.le hp hrun
  exact ⟨p, out, hp, hnow, hout, hadvance, (hphase p hp).told hnow hout⟩

theorem phased (hi : i ≤ R.length) {p : Request} (hp : (R.state i).procs[pid]? = some p) :
    Phase locale p.job p.prog p.ctx.tx := by
  induction i generalizing pid p with
  | zero =>
    obtain ⟨s, -, h0⟩ := R.starts
    rw [h0] at hp
    cases hp
  | succ i ih =>
    cases he : R.event i with
    | spawn j =>
      rcases R.spawned hi he hp with hold | rfl
      · exact ih (by omega) hold
      · exact .begins j
    | move mover ch =>
      obtain ⟨m, out, hm, -, -, hadvance, htold⟩ :=
        move_of_phase hi he fun m hm => ih (by omega) hm
      rw [hadvance] at hp
      rcases advance_procs hm hp with ⟨-, rfl⟩ | ⟨-, q, hq, rfl⟩
      · exact htold.phase
      · have hphase := ih (by omega) hq
        rw [Proc.watch_job, Proc.watch_prog]
        unfold Proc.watch
        split
        · exact hphase
        · rw [Ctx.see_tx]
          exact hphase

/-- A move spelled out. -/
theorem move (hi : i < R.length) {ch : Choice Answer} (he : R.event i = .move pid ch) :
    ∃ (p q : Request) (out : Stepped Shelf Write Answer (Except Err Reply)),
      (R.state i).procs[pid]? = some p ∧ p.ctx.now = (R.state i).store ∧
      p.prog.step store ((R.state i).free store pid) ch p.ctx = some out ∧
      (R.state (i + 1)).procs[pid]? = some q ∧ q.job = p.job ∧ q.prog = out.prog ∧
      (R.state (i + 1)).store = store.applyAll out.released (R.state i).store ∧
      Told locale p.job p.prog (R.state i).store out ∧ q.ctx = out.ctx := by
  obtain ⟨p, out, hp, hnow, hout, hadvance, htold⟩ :=
    move_of_phase hi he fun p hp => phased hi.le hp
  rw [hadvance]
  exact ⟨p, _, out, hp, hnow, hout, advance_self hp, rfl, rfl, rfl, htold, rfl⟩

/-- Who changes rows is about to return, or has published and owes the delete. -/
theorem Changes.mover (hi : i < R.length) (h : R.Changes X i) :
    ∃ pid ch, ∃ p : Request, R.event i = .move pid ch ∧ (R.state i).procs[pid]? = some p ∧
      ((∃ Y className feeAmount, p.job = .createClassFee Y className feeAmount) ∨
        Owes X (R.state (i + 1)) pid) := by
  cases he : R.event i with
  | spawn j =>
    refine absurd (fun className => ?_) h
    rw [R.spawned_store hi he]
  | move pid ch =>
    obtain ⟨p, q, out, hp, -, -, hq, hjob, hprog, hstore, htold, -⟩ := move hi he
    refine ⟨pid, ch, p, rfl, hp, ?_⟩
    rw [Changes, hstore] at h
    refine (htold.rows X h).imp_right ?_
    rintro ⟨fees, hset, hdeleting⟩
    refine ⟨q, fees, hq, hjob.trans hset, ?_⟩
    rw [hprog, hdeleting]
    rfl

/-! ### What is held -/

/-- Who holds a list has read it: `k` is the step. -/
theorem held (hi : i ≤ R.length) {p : Request} {list : List ListedFee}
    (hp : (R.state i).procs[pid]? = some p) (hprog : p.prog = storing X list) :
    ∃ k < i, R.By k pid ∧ Holds X (R.state (k + 1)) pid ∧ ¬ R.Changes X k ∧
      list = feeList locale X (R.state k).store := by
  induction i generalizing p with
  | zero =>
    obtain ⟨s, -, h0⟩ := R.starts
    rw [h0] at hp
    cases hp
  | succ i ih =>
    by_cases hmine : R.By i pid
    · obtain ⟨ch, he⟩ := hmine
      obtain ⟨m, q, out, -, -, -, hq, -, hq', hstore, htold, -⟩ := move hi he
      obtain rfl := Option.some.inj (hq.symm.trans hp)
      have hnext : ∀ v, nextWrites q.prog v = [.setCache (CacheKeys.classFees X) list] := by
        intro v
        rw [hprog]
        rfl
      obtain ⟨hlist, hsame⟩ := htold.read X list (R.state i).store (hq' ▸ hnext _)
      refine ⟨i, by omega, ⟨ch, he⟩, ⟨q, list, hq, hnext _⟩, ?_, hlist⟩
      rw [Changes, hstore]
      exact fun h => h hsame
    · rcases R.unmoved hi hp fun ch he => hmine ⟨ch, he⟩ with ⟨q, hq, -, hsame, -⟩ | ⟨j, rfl⟩
      · obtain ⟨k, hk, hrest⟩ := ih (by omega) hq (hsame.symm.trans hprog)
        exact ⟨k, by omega, hrest⟩
      · exact absurd hprog begins_not_storing

/-! ### What is cached -/

/-- The list was read at some moment, and who has changed the rows since owes the delete. -/
def Explained (R : History locale) (X : Id) (i : Nat) (list : List ListedFee) : Prop :=
  ∃ k ≤ i, list = feeList locale X (R.state k).store ∧
    ∀ m, k ≤ m → m < i → R.Changes X m → ∃ writer, R.By m writer ∧ Owes X (R.state i) writer

/-- The delete is owed until it is made. -/
theorem owes_on (hi : i < R.length) (h : Owes X (R.state i) pid) (hmine : ¬ R.By i pid) :
    Owes X (R.state (i + 1)) pid := by
  obtain ⟨p, fees, hp, hjob, hnext⟩ := h
  have hphase := phased hi.le hp
  rw [hjob] at hphase
  obtain ⟨hprog, -⟩ := hphase.deleting_of_nextWrites hnext
  obtain ⟨q, hq, hjob', hsame, -⟩ := R.other hi hp fun ch he => hmine ⟨ch, he⟩
  refine ⟨q, fees, hq, hjob'.trans hjob, ?_⟩
  rw [hsame, hprog]
  rfl

/-- An explanation lasts over a step that changes no row, unless it is a delete owed. -/
theorem Explained.on (hi : i < R.length) {list : List ListedFee} (h : Explained R X i list)
    (hsame : ¬ R.Changes X i) (hmover : ∀ pid, R.By i pid → ¬ Owes X (R.state i) pid) :
    Explained R X (i + 1) list := by
  obtain ⟨k, hk, hlist, hsince⟩ := h
  refine ⟨k, by omega, hlist, fun m hkm hm hchanges => ?_⟩
  by_cases hlast : m = i
  · subst hlast
    exact absurd hchanges hsame
  · obtain ⟨writer, hby, howes⟩ := hsince m hkm (by omega) hchanges
    exact ⟨writer, hby, owes_on hi howes fun hmine => hmover writer hmine howes⟩

/-- A list that has just been stored. -/
theorem explained_stored (hR : R.Timely) (hi : i < R.length) {ch : Choice Answer}
    (he : R.event i = .move pid ch) {p : Request} {list : List ListedFee}
    (hp : (R.state i).procs[pid]? = some p) (hprog : p.prog = storing X list)
    (hsame : ¬ R.Changes X i) (hnew : cachedList X (R.state i).store ≠ some list)
    (hlist : cachedList X (R.state (i + 1)).store = some list) : Explained R X (i + 1) list := by
  obtain ⟨k, hk, hby, hholds, hread, hrows⟩ := held hi.le hp hprog
  have hsince := hR.stores i hi X list pid ⟨ch, he⟩ hnew hlist k hk hby hholds
  refine ⟨k, by omega, hrows, fun m hkm hm hchanges => ?_⟩
  have hmk : m ≠ k := fun h => hread (h ▸ hchanges)
  have hmi : m ≠ i := fun h => hsame (h ▸ hchanges)
  obtain ⟨writer, hwriter, howes⟩ := hsince m (by omega) (by omega) hchanges
  refine ⟨writer, hwriter, owes_on hi howes ?_⟩
  -- The one who stores owes nothing.
  rintro ⟨ch', he'⟩
  obtain ⟨rfl, -⟩ := Event.move.inj (he.symm.trans he')
  obtain ⟨q, fees, hq, -, hnext⟩ := howes
  obtain rfl := Option.some.inj (hq.symm.trans hp)
  rw [hprog] at hnext
  cases List.singleton_inj.mp hnext

/-- A delete that was owed leaves nothing, or has failed over a list that is up to date. -/
theorem explained_deleted (hR : R.Timely) (hi : i < R.length) {list : List ListedFee}
    (hby : R.By i pid) (howes : Owes X (R.state i) pid)
    (hlist : cachedList X (R.state (i + 1)).store = some list) : Explained R X (i + 1) list := by
  obtain ⟨ch, he⟩ := hby
  obtain ⟨p, q, out, hp, hnow, hout, -, -, -, hstore, -⟩ := move hi he
  obtain ⟨p', fees, hp', hjob, hnext⟩ := id howes
  obtain rfl := Option.some.inj (hp'.symm.trans hp)
  have hphase := phased hi.le hp
  rw [hjob] at hphase
  obtain ⟨hprog, htx⟩ := hphase.deleting_of_nextWrites hnext
  rw [hprog] at hout
  rw [hstore] at hlist
  cases hfault : ch.fault with
  | false =>
    rw [deleting_deletes ⟨hnow, htx⟩ hfault hout] at hlist
    cases hlist
  | true =>
    have hreleased := fails_quietly hfault hout
    rw [hreleased, Store.applyAll_nil] at hlist hstore
    refine ⟨i + 1, le_rfl, ?_, fun m hm hm' => by omega⟩
    rw [hstore]
    exact hR.deletes i hi X pid ch list he hfault howes hlist

/-- A step that changes rows while a list is cached leaves the delete to be made. -/
theorem explained_changed (hR : R.Timely) (hi : i < R.length) {list : List ListedFee}
    (hchanges : R.Changes X i) (hold : cachedList X (R.state i).store = some list)
    (h : Explained R X i list) : Explained R X (i + 1) list := by
  obtain ⟨pid, ch, p, he, hp, hcreate | howes⟩ := Changes.mover hi hchanges
  · rw [hR.creates i hi X pid p ⟨ch, he⟩ hp hcreate hchanges] at hold
    cases hold
  · obtain ⟨k, hk, hrows, hsince⟩ := h
    refine ⟨k, by omega, hrows, fun m hkm hm hm' => ?_⟩
    by_cases hlast : m = i
    · subst hlast
      exact ⟨pid, ⟨ch, he⟩, howes⟩
    · obtain ⟨writer, hwriter, howes'⟩ := hsince m hkm (by omega) hm'
      by_cases hmine : R.By i writer
      · obtain ⟨ch', he'⟩ := hmine
        obtain ⟨rfl, -⟩ := Event.move.inj (he.symm.trans he')
        exact ⟨pid, hwriter, howes⟩
      · exact ⟨writer, hwriter, owes_on hi howes' hmine⟩

/-- What is cached is explained. -/
theorem explained (hR : R.Timely) (hi : i ≤ R.length) {list : List ListedFee}
    (hlist : cachedList X (R.state i).store = some list) : Explained R X i list := by
  induction i generalizing list with
  | zero =>
    obtain ⟨s, hs, h0⟩ := R.starts
    rw [h0] at hlist
    refine ⟨0, le_rfl, ?_, fun m hm hm' => by omega⟩
    rw [h0]
    exact hs X list hlist
  | succ i ih =>
    cases he : R.event i with
    | spawn j =>
      have hsame := R.spawned_store hi he
      rw [hsame] at hlist
      refine (ih (by omega) hlist).on hi (fun h => h ?_) ?_
      · rw [hsame]
        exact fun _ => rfl
      · rintro pid ⟨ch, he'⟩
        rw [he] at he'
        cases he'
    | move pid ch =>
      obtain ⟨p, q, out, hp, -, -, -, -, -, hstore, htold, -⟩ := move hi he
      have hafter := hlist
      rw [hstore] at hafter
      by_cases hold : cachedList X (R.state i).store = some list
      · have hbefore := ih (by omega) hold
        by_cases hchanges : R.Changes X i
        · exact explained_changed hR hi hchanges hold hbefore
        · by_cases howes : Owes X (R.state i) pid
          · exact explained_deleted hR hi ⟨ch, he⟩ howes hlist
          · refine hbefore.on hi hchanges ?_
            rintro mover ⟨ch', he'⟩
            obtain ⟨rfl, -⟩ := Event.move.inj (he.symm.trans he')
            exact howes
      · obtain ⟨hprog, hsame⟩ := (htold.cached X list hafter).resolve_left hold
        refine explained_stored hR hi he hp hprog (fun h => h ?_) hold hlist
        rw [hstore]
        exact hsame

/-! ### What is served -/

/-- The list has every change to the rows by a request that had returned at `a`. -/
def Served (R : History locale) (X : Id) (a b : Nat) (list : List ListedFee) : Prop :=
  ∃ k ≤ b, list = feeList locale X (R.state k).store ∧
    ∀ m, k ≤ m → m < a → R.Changes X m → ∃ writer, R.By m writer ∧ R.Unfinished a writer

/-- Who owes a delete has not returned, and had not before. -/
theorem unfinished_of_owes {a b : Nat} (hab : a ≤ b) (hb : b ≤ R.length)
    (h : Owes X (R.state b) pid) : R.Unfinished a pid := by
  intro p hp
  cases hfin : p.prog.finished with
  | false => rfl
  | true =>
    obtain ⟨q, hq, hqfin⟩ := R.finished_stays hb hab hp hfin
    obtain ⟨q', fees, hq', -, hnext⟩ := h
    obtain rfl := Option.some.inj (hq.symm.trans hq')
    obtain ⟨r, hr⟩ := Prog.eq_ret_of_finished hqfin
    rw [hr] at hnext
    cases hnext

theorem Explained.served {a b : Nat} (hab : a ≤ b) (hb : b ≤ R.length) {list : List ListedFee}
    (h : Explained R X b list) : Served R X a b list := by
  obtain ⟨k, hk, hlist, hsince⟩ := h
  refine ⟨k, hk, hlist, fun m hkm hm hchanges => ?_⟩
  obtain ⟨writer, hby, howes⟩ := hsince m hkm (by omega) hchanges
  exact ⟨writer, hby, unfinished_of_owes hab hb howes⟩

theorem Served.on {a b : Nat} {list : List ListedFee} (h : Served R X a b list) :
    Served R X a (b + 1) list := by
  obtain ⟨k, hk, hrest⟩ := h
  exact ⟨k, by omega, hrest⟩

/-- Where a call that began at `a` has got to. -/
inductive Reading (R : History locale) (X : Id) (a b : Nat) : Program → Prop
  | looking : Reading R X a b (looking locale X)
  | loading : Reading R X a b (loading locale X)
  | storing {list : List ListedFee} : Served R X a b list → Reading R X a b (storing X list)
  | failed (error : Err) : Reading R X a b (.ret (.error error))
  | served {list : List ListedFee} : Served R X a b list → Reading R X a b (.ret (.ok (.fees list)))

theorem Reading.on {a b : Nat} {p : Program} (h : Reading R X a b p) : Reading R X a (b + 1) p := by
  cases h with
  | looking => exact .looking
  | loading => exact .loading
  | storing h => exact .storing h.on
  | failed error => exact .failed error
  | served h => exact .served h.on

/-- One step of the call itself. -/
theorem Reading.step (hR : R.Timely) {a b : Nat} (hab : a ≤ b) (hb : b ≤ R.length) {p : Program}
    {x : Ctx Shelf Write Answer} {ch : Choice Answer} {free : List FeeKey → Bool}
    {out : Stepped Shelf Write Answer (Except Err Reply)} (h : Reading R X a b p)
    (hx : x.Outside (R.state b).store) (hout : p.step store free ch x = some out) :
    Reading R X a b out.prog ∧ out.ctx.tx = none := by
  cases h with
  | looking =>
    rcases stmt_step_outside hx hout with ⟨-, hprog, htx, -⟩ | ⟨-, hprog, htx, -⟩
    · rw [hprog]
      exact ⟨.loading, htx⟩
    · rw [hprog]
      refine ⟨?_, htx⟩
      dsimp only
      split
      · next list hlist => exact .served ((explained hR hb hlist).served hab hb)
      · exact .loading
  | loading =>
    rcases stmt_step_outside hx hout with ⟨-, hprog, htx, -⟩ | ⟨-, hprog, htx, -⟩
    · rw [hprog]
      exact ⟨.failed _, htx⟩
    · rw [hprog]
      exact ⟨.storing ⟨b, le_rfl, rfl, fun m hm hm' => by omega⟩, htx⟩
  | storing h =>
    rcases stmt_step_outside hx hout with ⟨-, hprog, htx, -⟩ | ⟨-, hprog, htx, -⟩ <;>
    · rw [hprog]
      exact ⟨.served h, htx⟩
  | failed error => cases hout
  | served h => cases hout

theorem reading (hR : R.Timely) {a b : Nat} (hab : a ≤ b) (hb : b ≤ R.length) {p : Request}
    (hp : (R.state a).procs[pid]? = some p) (hprog : p.prog = looking locale X) :
    ∃ q : Request, (R.state b).procs[pid]? = some q ∧ q.ctx.tx = none ∧ Reading R X a b q.prog := by
  induction hab with
  | refl =>
    refine ⟨p, hp, (phased hb hp).outside_of_looking hprog, ?_⟩
    rw [hprog]
    exact .looking
  | @step b hab ih =>
    obtain ⟨q, hq, htx, hreading⟩ := ih (by omega)
    by_cases hmine : R.By b pid
    · obtain ⟨ch, he⟩ := hmine
      obtain ⟨m, r, out, hm, hnow, hout, hr, -, hr', -, -, hctx⟩ := move hb he
      obtain rfl := Option.some.inj (hm.symm.trans hq)
      obtain ⟨hnext, htx'⟩ := hreading.step hR hab (Nat.le_of_lt hb) ⟨hnow, htx⟩ hout
      refine ⟨r, hr, ?_, ?_⟩
      · rw [hctx]
        exact htx'
      · rw [hr']
        exact hnext.on
    · obtain ⟨r, hr, -, hsame, htx'⟩ := R.other hb hq fun ch he => hmine ⟨ch, he⟩
      exact ⟨r, hr, htx'.trans htx, hsame ▸ hreading.on⟩

/-- In a run whose steps are all in time every call is served what had been written when it
    began. -/
theorem getClassFees_serves (hR : R.Timely) : R.Serves := by
  intro pid a b X list p q hab hb hp hprog hq hret
  obtain ⟨q', hq', -, hreading⟩ := reading hR hab hb hp hprog
  obtain rfl := Option.some.inj (hq'.symm.trans hq)
  rw [hret] at hreading
  cases hreading with
  | served h => exact h

end History

/-! ### Two runs -/

theorem opening_of_empty {s : Shelf} (h : s.cached = ∅) : Opening plainLocale s := by
  intro X list hlist
  rw [cachedList, h] at hlist
  cases hlist

/-- A move of the process, which does not fail. -/
def goes (pid : Nat) : Event Job Answer :=
  .move pid { fault := false, answer := fun | .newId => "n1" }

def eventAt (es : List (Event Job Answer)) (n : Nat) : Event Job Answer := es.getD n (goes 0)

/-- The list with which a request has returned. -/
def returned (s : Desk) (pid : Nat) : Option (List ListedFee) :=
  match s.procs[pid]? with
  | some q => match q.prog with
    | .ret (.ok (.fees list)) => some list
    | _ => none
  | none => none

theorem ret_of_returned {s : Desk} {pid : Nat} {list : List ListedFee}
    (h : returned s pid = some list) :
    ∃ q : Request, s.procs[pid]? = some q ∧ q.prog = .ret (.ok (.fees list)) := by
  unfold returned at h
  split at h
  · next q hq =>
    split at h
    · next list' hprog =>
      obtain rfl := Option.some.inj h
      exact ⟨q, hq, hprog⟩
    · cases h
  · cases h

/-- A call that has just been made. -/
theorem looking_of_spawn (R : History locale) (pid : Nat) {i : Nat} {X : Id} (hi : i < R.length)
    (he : R.event i = .spawn (.getClassFees X)) (hnew : (R.state i).procs[pid]?.isSome = false)
    (hthere : (R.state (i + 1)).procs[pid]?.isSome = true) :
    ∃ p : Request, (R.state (i + 1)).procs[pid]? = some p ∧ p.prog = looking locale X := by
  obtain ⟨p, hp⟩ := Option.isSome_iff_exists.mp hthere
  rcases R.spawned hi he hp with hold | rfl
  · rw [hold] at hnew
    cases hnew
  · exact ⟨_, hp, getClassFees_program locale X⟩

/-- One class, which costs 50,000 Naira. -/
def oneClass : Shelf where
  classFees := AList.insert ("s1", "JSS 1") ⟨"f1", 5000000, true⟩ ∅
  cached := ∅

/-- The new fee is published, then the list is asked for. -/
def publishedEvents : List (Event Job Answer) :=
  .spawn (.setClassFees "s1" [⟨"JSS 1", 60000⟩]) :: List.replicate 9 (goes 0) ++
    [.spawn (.getClassFees "s1"), goes 1]

theorem published_runs : ∀ i < 12, ((after store (Job.program plainLocale) (.init oneClass)
    (eventAt publishedEvents) i).step store (Job.program plainLocale)
      (eventAt publishedEvents i)).isSome := by
  decide +kernel

def publishedRun : History plainLocale :=
  .ofEvents store _ (opening_of_empty (s := oneClass) rfl) (eventAt publishedEvents) 12
    published_runs

/-- Whether the next statement of the process stores a list. -/
def holdsSome (s : Desk) (pid : Nat) : Bool :=
  match s.procs[pid]? with
  | some q => match nextWrites q.prog s.store with
    | [.setCache _ _] => true
    | _ => false
  | none => false

theorem holdsSome_of_holds {s : Desk} {X : Id} {pid : Nat} (h : Holds X s pid) :
    holdsSome s pid = true := by
  obtain ⟨p, list, hp, hnext⟩ := h
  simp only [holdsSome, hp, hnext]

/-- The one list stored was read in the step before. -/
theorem publishedRun_timely : publishedRun.Timely := by
  have hcached : ∀ i < 12, i ≠ 9 → (publishedRun.state (i + 1)).store.cached.entries =
      (publishedRun.state i).store.cached.entries := by decide +kernel
  have hholds : ∀ k < 8, holdsSome (publishedRun.state (k + 1)) 0 = false := by decide +kernel
  have hjobs : ∀ i < 12, (publishedRun.state i).procs.all (fun p => match p.job with
      | .createClassFee _ _ _ => false
      | _ => true) = true := by decide +kernel
  have hfaults : ∀ i < 12, (match publishedRun.event i with
      | .move _ ch => ch.fault
      | .spawn _ => false) = false := by decide +kernel
  refine ⟨fun i hi X list pid hby hnew hlist k hk hbyk hhold => ?_,
    fun i hi X pid ch list he hfault => ?_, fun i hi X pid p _ hp hcreate => ?_⟩
  · by_cases hstore : i = 9
    · subst hstore
      obtain ⟨ch, he⟩ := hby
      obtain ⟨rfl, -⟩ := Event.move.inj he
      intro m hkm hm
      have hk8 : ¬ k < 8 := fun h =>
        absurd ((hholds k h).symm.trans (holdsSome_of_holds hhold)) (by decide)
      omega
    · have hsame := AList.ext (hcached i hi hstore)
      rw [cachedList, hsame] at hlist
      exact absurd hlist hnew
  · have hquiet := hfaults i hi
    rw [he] at hquiet
    exact absurd (hquiet.symm.trans hfault) (by decide)
  · have hnone := List.all_eq_true.mp (hjobs i hi) p (List.mem_of_getElem? hp)
    obtain ⟨Y, className, feeAmount, hjob⟩ := hcreate
    rw [hjob] at hnone
    cases hnone

/-- The caller who asks next is served the new fee, from the cache. -/
theorem getClassFees_serves_published : publishedRun.Serves ∧
    returned (publishedRun.state 12) 1 = some [⟨"f1", "s1", "JSS 1", 60000, true⟩] :=
  ⟨History.getClassFees_serves publishedRun_timely, by decide +kernel⟩

/-- `createClassFee` raises the fee. A call reads the old list after the delete and stores it
    before the write, and another is served it when the writer has returned. -/
def staleEvents : List (Event Job Answer) :=
  [.spawn (.createClassFee "s1" "JSS 1" 60000), goes 0, goes 0,
    .spawn (.getClassFees "s1"), goes 1, goes 1, goes 1, goes 0,
    .spawn (.getClassFees "s1"), goes 2]

theorem stale_runs : ∀ i < 10, ((after store (Job.program plainLocale) (.init oneClass)
    (eventAt staleEvents) i).step store (Job.program plainLocale) (eventAt staleEvents i)).isSome := by
  decide +kernel

def staleRun : History plainLocale :=
  .ofEvents store _ (opening_of_empty (s := oneClass) rfl) (eventAt staleEvents) 10 stale_runs

/-- A list is served that lacks a fee whose writer has returned. -/
theorem getClassFees_serves_stale : ∃ R : History plainLocale, ¬ R.Serves := by
  refine ⟨staleRun, fun h => ?_⟩
  have hreturned : returned (staleRun.state 10) 2 = some [⟨"f1", "s1", "JSS 1", 50000, true⟩] := by
    decide +kernel
  obtain ⟨q, hq, hret⟩ := ret_of_returned hreturned
  obtain ⟨p, hp, hprog⟩ := looking_of_spawn staleRun 2 (show 8 < 10 by decide) rfl (by decide +kernel) (by decide +kernel)
  obtain ⟨k, hk, hlist, hsince⟩ := h 2 9 10 "s1" _ p q (by decide) (by decide) hp hprog hq hret
  have hnew : ∀ k < 11, 7 < k → [⟨"f1", "s1", "JSS 1", 50000, true⟩] ≠
      feeList plainLocale "s1" (staleRun.state k).store := by decide +kernel
  have hwrite : (staleRun.state 8).store.classFees.lookup ("s1", "JSS 1") ≠
      (staleRun.state 7).store.classFees.lookup ("s1", "JSS 1") := by decide +kernel
  have hold : k ≤ 7 := by
    by_contra hlate
    exact hnew k (by omega) (by omega) hlist
  obtain ⟨writer, ⟨ch, he⟩, hunfinished⟩ := hsince 7 hold (by decide) fun hsame =>
    hwrite (hsame "JSS 1")
  obtain ⟨rfl, -⟩ := Event.move.inj he
  have hfinished : ((staleRun.state 9).procs[0]?.map fun p => p.prog.finished) = some true := by
    decide +kernel
  obtain ⟨w, hw, hfin⟩ := Option.map_eq_some_iff.mp hfinished
  exact absurd ((hunfinished w hw).symm.trans hfin) (by decide)

end Lopay.Fees
