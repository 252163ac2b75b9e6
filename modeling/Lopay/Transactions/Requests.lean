import Lopay.Transactions.Local

/-!
# What a program asks for

Every request that a program makes to the outside world satisfies `Q`, whatever has been
committed beside it and whatever it has been answered.
-/

namespace Transactions

variable {σ ω κ ι : Type} {Ans : ι → Type} {α β ε : Type} {S : Store σ ω κ}

/-- The contract of a program that counts on nothing and makes requests that satisfy `Q`. -/
def asking (Q : ι → Prop) : Contract σ ω Ans where
  rely := fun _ _ => True
  answers := fun _ _ _ => True
  faults := fun _ => True
  admits := fun _ _ => True
  guarantee := fun _ _ => True
  asks := fun _ c => Q c

/-- All requests of the routine satisfy `Q`. A class, so that it is found by following the
    program. -/
class Routine.Asks (S : Store σ ω κ) (Q : ι → Prop) (m : Routine σ ω Ans ε α) : Prop where
  wp : ∀ x, m.wp S (asking Q) (fun _ _ => True) (fun _ _ => True) x

namespace Routine.Asks

variable {Q Q' : ι → Prop} {m n : Routine σ ω Ans ε α}

theorem mono (hQ : ∀ c, Q c → Q' c) (h : Asks S Q m) : Asks S Q' m := by
  constructor
  intro x
  refine wp_weaken ?_ (fun _ _ h => h) (fun _ _ h => h) (h.wp x)
  exact ⟨fun _ _ h => h, fun _ _ _ h => h, fun _ h => h, fun _ _ h => h, fun _ _ h => h,
    fun _ c => hQ c⟩

instance pure (a : α) : Asks S Q (pure a : Routine σ ω Ans ε α) := ⟨fun _ => trivial⟩

instance throw (e : ε) : Asks S Q (throw e : Routine σ ω Ans ε α) := ⟨fun _ => trivial⟩

instance bind {f : α → Routine σ ω Ans ε β} [h : Asks S Q m] [hf : ∀ a, Asks S Q (f a)] :
    Asks S Q (m >>= f) := by
  constructor
  intro x
  apply wp_bind
  exact wp_mono (fun a y _ => (hf a).wp y) (fun _ _ h => h) (h.wp x)

/-- The rule of `bind`, for a continuation that has to be looked into. -/
theorem andThen [Asks S Q m] {f : α → Routine σ ω Ans ε β} (hf : ∀ a, Asks S Q (f a)) :
    Asks S Q (m >>= f) := bind

instance map {f : α → β} [h : Asks S Q m] : Asks S Q (f <$> m) := by
  rw [map_eq_pure_bind]
  exact bind

instance tryCatch {handler : ε → Routine σ ω Ans ε α} [h : Asks S Q m]
    [hh : ∀ e, Asks S Q (handler e)] : Asks S Q (tryCatch m handler) := by
  constructor
  intro x
  apply wp_tryCatch
  exact wp_mono (fun _ _ h => h) (fun e y _ => (hh e).wp y) (h.wp x)

instance orThrow (o : Option α) (e : ε) : Asks S Q (orThrow o e : Routine σ ω Ans ε α) :=
  ⟨fun _ => wp_orThrow (fun _ => trivial) (fun _ _ => trivial)⟩

instance ite {c : Prop} [Decidable c] [h : Asks S Q m] [h' : Asks S Q n] :
    Asks S Q (if c then m else n) :=
  ⟨fun x => wp_ite (fun _ => h.wp x) (fun _ => h'.wp x)⟩

instance onlyIf {c : Prop} [Decidable c] {m : Routine σ ω Ans ε Unit} [h : Asks S Q m] :
    Asks S Q (onlyIf c m) :=
  ⟨fun x => wp_onlyIf (fun _ => h.wp x) (fun _ => trivial)⟩

theorem ask {c : ι} (h : Q c) : Asks S Q (ask c : Routine σ ω Ans ε (Ans c)) :=
  ⟨fun _ => wp_ask fun _ _ => ⟨h, fun _ _ => trivial⟩⟩

instance exec {fault : ε} {f : σ → Except ε (α × List ω)} :
    Asks S Q (exec fault f : Routine σ ω Ans ε α) :=
  ⟨fun _ => wp_exec fun _ _ => ⟨fun _ => trivial, fun _ _ => trivial,
    fun _ _ _ => ⟨fun _ _ => trivial, fun _ => trivial⟩⟩⟩

instance query {fault : ε} {q : σ → α} : Asks S Q (query fault q : Routine σ ω Ans ε α) := exec

instance transaction {fault : ε} [h : Asks S Q m] : Asks S Q (transaction fault m) := by
  constructor
  intro x
  apply wp_transaction
  intro y _
  refine wp_mono ?_ (fun _ _ _ _ _ => trivial) (h.wp y.opened)
  exact fun _ _ _ _ _ => ⟨fun _ => trivial, fun _ _ => trivial, fun _ => trivial⟩

end Routine.Asks

end Transactions
