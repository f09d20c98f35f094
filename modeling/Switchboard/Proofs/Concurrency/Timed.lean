import Switchboard.Proofs.Concurrency.Step

/-!
# Work whose steps are taken at certain times

* `Viewpoint`: a run as one of its threads sees it;
* `Task.Upholds`: whatever others do between its steps, work changes the state only as a guarantee allows, and
  when it ends its result has a property;
* `Task.Upholds.andThen`, `zoom`, `tick`: work in sequence, work on a part of the state, one step of the run;
* `Attempt.Upholds`: the same for work that may fail.

Guarantees and properties speak of times, so what is known at the end of work can tell when each of its steps
was taken and what the state was then.
-/

namespace Switchboard

/-- A run as one of its threads sees it. -/
structure Viewpoint (ω σ : Type) where
  holds : ω → σ → Bool
  /-- The state at each time. -/
  state : Nat → σ
  /-- It is the turn of the thread. -/
  turn : Nat → Prop

/-- The same run, of which only a part of the state is seen. -/
def Viewpoint.part {ω σ τ : Type} (v : Viewpoint ω τ) (holds : ω → σ → Bool) (get : τ → σ) : Viewpoint ω σ where
  holds := holds
  state n := get (v.state n)
  turn := v.turn

namespace Task

variable {ω σ τ α β : Type}

/-- From a time on, every access of the work upholds the guarantee `G` of its time, and when the work ends its
result has the property `Q` at that time. Nothing is said of what others do in between. -/
def Upholds (v : Viewpoint ω σ) (G : Nat → Prop) (Q : Nat → α → Prop) : Task ω σ α → Nat → Prop
  | done a, n => Q n a
  | access f next, n => ∀ m, n ≤ m → v.turn m → v.state (m + 1) = f (v.state m) →
      G m ∧ (next (v.state m)).Upholds v G Q (m + 1)
  | wait w next, n => ∀ m, n ≤ m → v.turn m → v.holds w (v.state m) = true → v.state (m + 1) = v.state m →
      next.Upholds v G Q (m + 1)

namespace Upholds

variable {v : Viewpoint ω σ} {G : Nat → Prop} {Q : Nat → α → Prop} {R : Nat → β → Prop} {n : Nat}

/-- What is known at the end may be weakened. -/
lemma imp {Q' : Nat → α → Prop} {t : Task ω σ α} (h : t.Upholds v G Q n) (hQ : ∀ m a, n ≤ m → Q m a → Q' m a) :
    t.Upholds v G Q' n := by
  induction t generalizing n with
  | done a => exact hQ n a (Nat.le_refl n) h
  | access f next ih =>
    intro m hm hturn hstate
    obtain ⟨hG, hnext⟩ := h m hm hturn hstate
    exact ⟨hG, ih _ hnext fun l a hl => hQ l a (by omega)⟩
  | wait w next ih =>
    intro m hm hturn hholds hstate
    exact ih (h m hm hturn hholds hstate) fun l a hl => hQ l a (by omega)

/-- Work in sequence: the second part starts from what is known at the end of the first one. -/
lemma andThen {t : Task ω σ α} {k : α → Task ω σ β} (h : t.Upholds v G Q n)
    (hk : ∀ m a, n ≤ m → Q m a → (k a).Upholds v G R m) : (t.andThen k).Upholds v G R n := by
  induction t generalizing n with
  | done a => exact hk n a (Nat.le_refl n) h
  | access f next ih =>
    intro m hm hturn hstate
    obtain ⟨hG, hnext⟩ := h m hm hturn hstate
    exact ⟨hG, ih _ hnext fun l a hl => hk l a (by omega)⟩
  | wait w next ih =>
    intro m hm hturn hholds hstate
    exact ih (h m hm hturn hholds hstate) fun l a hl => hk l a (by omega)

/-- Work on a part of the state, where every change of that part alone is allowed. -/
lemma zoom {holds : ω → σ → Bool} {get : τ → σ} {put : σ → τ → τ} {v : Viewpoint ω τ}
    (hget : ∀ s t, get (put s t) = s) (hholds : ∀ w t, v.holds w t = holds w (get t))
    (hG : ∀ m s, v.state (m + 1) = put s (v.state m) → G m) {t : Task ω σ α}
    (h : t.Upholds (v.part holds get) (fun _ => True) Q n) : (t.zoom get put).Upholds v G Q n := by
  induction t generalizing n with
  | done a => exact h
  | access f next ih =>
    intro m hm hturn hstate
    refine ⟨hG m _ hstate, ih _ (h m hm hturn ?_).2⟩
    show get (v.state (m + 1)) = f (get (v.state m))
    rw [hstate, hget]
  | wait w next ih =>
    intro m hm hturn hw hstate
    exact ih (h m hm hturn ((hholds w _).symm.trans hw) (congrArg get hstate))

/-- One step of the run. -/
lemma tick {t t' : Task ω σ α} (h : t.Upholds v G Q n) {m : Nat} (hm : n ≤ m) (hturn : v.turn m)
    (htick : t.tick? v.holds (v.state m) = some (t', v.state (m + 1))) :
    t'.Upholds v G Q (m + 1) ∧ (v.state (m + 1) = v.state m ∨ G m) := by
  cases t with
  | done a => cases htick
  | access f next =>
    obtain ⟨rfl, hstate⟩ := Prod.mk.inj (Option.some.inj htick)
    obtain ⟨hG, hnext⟩ := h m hm hturn hstate.symm
    exact ⟨hnext, .inr hG⟩
  | wait w next =>
    simp only [tick?] at htick
    split at htick
    · next hw =>
      obtain ⟨rfl, hstate⟩ := Prod.mk.inj (Option.some.inj htick)
      exact ⟨h m hm hturn hw hstate.symm, .inl hstate.symm⟩
    · cases htick

/-- An invariant of the work and the time, where every change is allowed: every step keeps it, waiting does not
hurt it, and at the end it gives the property. -/
lemma of_invariant (hG : ∀ m, G m) {I : Nat → Task ω σ α → Prop} (hend : ∀ m a, I m (done a) → Q m a)
    (hlater : ∀ m m' t, m ≤ m' → I m t → I m' t)
    (hstep : ∀ m t t', I m t → v.turn m → t.tick? v.holds (v.state m) = some (t', v.state (m + 1)) → I (m + 1) t')
    {t : Task ω σ α} (h : I n t) : t.Upholds v G Q n := by
  -- the time between two steps is not known, so the invariant is first brought forward and then stepped
  induction t generalizing n with
  | done a => exact hend n a h
  | access f next ih =>
    intro m hm hturn hstate
    refine ⟨hG m, ih _ (hstep m _ _ (hlater n m _ hm h) hturn ?_)⟩
    simp only [tick?, hstate]
  | wait w next ih =>
    intro m hm hturn hw hstate
    refine ih (hstep m _ _ (hlater n m _ hm h) hturn ?_)
    simp only [tick?, hw, if_true, hstate]

end Upholds

/-! ## Single accesses -/

section Accesses

variable {v : Viewpoint ω σ} {G : Nat → Prop} {n : Nat}

/-- A look at the state changes nothing. -/
lemma upholds_view {Q : Nat → β → Prop} {g : σ → β} (hG : ∀ m, v.state (m + 1) = v.state m → G m)
    (h : ∀ m, n ≤ m → v.turn m → v.state (m + 1) = v.state m → Q (m + 1) (g (v.state m))) :
    (view g).Upholds v G Q n :=
  fun m hm hturn hstate => ⟨hG m hstate, h m hm hturn hstate⟩

end Accesses

end Task

/-! ## Work that may fail -/

namespace Attempt

variable {ω σ ε α β : Type}

/-- As for work that does not fail; a failure is always allowed and nothing is known at it. -/
def Upholds (v : Viewpoint ω σ) (G : Nat → Prop) (Q : Nat → α → Prop) (a : Attempt ω σ ε α) (n : Nat) : Prop :=
  a.outcome.Upholds v G (fun m e => ∀ x, e = .ok x → Q m x) n

namespace Upholds

variable {v : Viewpoint ω σ} {G : Nat → Prop} {Q : Nat → α → Prop} {R : Nat → β → Prop} {n : Nat}

lemma pure {x : α} (h : Q n x) : Upholds v G Q (Pure.pure x : Attempt ω σ ε α) n := by
  rintro y ⟨⟩
  exact h

lemma throw {e : ε} : Upholds v G Q (throw e : Attempt ω σ ε α) n := nofun

lemma bind {a : Attempt ω σ ε α} {k : α → Attempt ω σ ε β} (h : Upholds v G Q a n)
    (hk : ∀ m x, n ≤ m → Q m x → Upholds v G R (k x) m) : Upholds v G R (a >>= k) n := by
  refine Task.Upholds.andThen h fun m e hm he => ?_
  cases e with
  | ok x => exact hk m x hm (he x rfl)
  | error e => exact nofun

lemma imp {Q' : Nat → α → Prop} {a : Attempt ω σ ε α} (h : Upholds v G Q a n)
    (hQ : ∀ m x, n ≤ m → Q m x → Q' m x) : Upholds v G Q' a n :=
  Task.Upholds.imp h fun m _ hm he x hx => hQ m x hm (he x hx)

/-- Work that does not fail. -/
lemma ofTask {t : Task ω σ α} (h : t.Upholds v G Q n) : Upholds v G Q (Attempt.ofTask t : Attempt ω σ ε α) n := by
  refine Task.Upholds.andThen h fun m x _ hx => ?_
  rintro y ⟨⟩
  exact hx

/-- A result or failure that is known. -/
lemma ofExcept {e : Except ε α} (h : ∀ x, e = .ok x → Q n x) :
    Upholds v G Q (Attempt.ofExcept e : Attempt ω σ ε α) n := h

end Upholds

end Attempt

end Switchboard
