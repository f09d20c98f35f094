import Switchboard.Proofs.Concurrency.Timed

/-!
# Work that does not wait for ever

* `Viewpoint.Comes`: a thread that begins to wait at a time can go on from some time on;
* `Task.Ends`: whatever others do between its steps, all that work waits for comes;
* `Task.Ends.andThen`, `zoom`, `tick`: work in sequence, work on a part of the state, one step of the run;
* `Attempt.Ends`: the same for work that may fail.
-/

namespace Switchboard

namespace Viewpoint

variable {ω σ : Type} (v : Viewpoint ω σ)

/-- From a time on the thread has no turn before another time. -/
def Rests (n m : Nat) : Prop := n ≤ m ∧ ∀ k, n ≤ k → k < m → ¬ v.turn k

/-- A thread that begins to wait at a time can go on from some time on, until it does. -/
def Comes (w : ω) (n : Nat) : Prop := ∃ l, ∀ m, l ≤ m → v.Rests n m → v.holds w (v.state m) = true

variable {v} {n m : Nat}

lemma Rests.trans {l : Nat} (h : v.Rests n m) (h' : v.Rests m l) : v.Rests n l := by
  refine ⟨Nat.le_trans h.1 h'.1, fun k hk hlt => ?_⟩
  by_cases hbefore : k < m
  · exact h.2 k hk hbefore
  · exact h'.2 k (Nat.not_lt.mp hbefore) hlt

lemma rests_succ (h : ¬ v.turn n) : v.Rests n (n + 1) := by
  refine ⟨Nat.le_succ n, fun k hk hlt => ?_⟩
  obtain rfl : k = n := by omega
  exact h

/-- What comes whether the thread waits for it or not. -/
lemma comes_of_always {w : ω} (h : ∃ l, ∀ m, l ≤ m → v.holds w (v.state m) = true) (n : Nat) : v.Comes w n := by
  obtain ⟨l, hl⟩ := h
  exact ⟨l, fun m hm _ => hl m hm⟩

lemma Comes.later {w : ω} (h : v.Comes w n) (hrests : v.Rests n m) : v.Comes w m := by
  obtain ⟨l, hl⟩ := h
  exact ⟨l, fun k hk hk' => hl k hk (hrests.trans hk')⟩

end Viewpoint

namespace Task

variable {ω σ τ α β : Type}

/-- From a time on all that the work waits for comes. Nothing is said of what others do in between. -/
def Ends (v : Viewpoint ω σ) : Task ω σ α → Nat → Prop
  | done _, _ => True
  | access f next, n => ∀ m, v.Rests n m → v.turn m → v.state (m + 1) = f (v.state m) →
      (next (v.state m)).Ends v (m + 1)
  | wait w next, n => v.Comes w n ∧ ∀ m, v.Rests n m → v.turn m → v.holds w (v.state m) = true →
      v.state (m + 1) = v.state m → next.Ends v (m + 1)

namespace Ends

variable {v : Viewpoint ω σ} {n : Nat}

lemma later {t : Task ω σ α} (h : t.Ends v n) {m : Nat} (hrests : v.Rests n m) : t.Ends v m := by
  cases t with
  | done a => trivial
  | access f next => exact fun k hk => h k (hrests.trans hk)
  | wait w next => exact ⟨h.1.later hrests, fun k hk => h.2 k (hrests.trans hk)⟩

/-- Work in sequence. -/
lemma andThen {t : Task ω σ α} {k : α → Task ω σ β} (h : t.Ends v n) (hk : ∀ m a, n ≤ m → (k a).Ends v m) :
    (t.andThen k).Ends v n := by
  induction t generalizing n with
  | done a => exact hk n a (Nat.le_refl n)
  | access f next ih =>
    intro m hm hturn hstate
    exact ih _ (h m hm hturn hstate) fun l a hl => hk l a (Nat.le_trans hm.1 (Nat.le_of_succ_le hl))
  | wait w next ih =>
    refine ⟨h.1, fun m hm hturn hholds hstate => ?_⟩
    exact ih (h.2 m hm hturn hholds hstate) fun l a hl => hk l a (Nat.le_trans hm.1 (Nat.le_of_succ_le hl))

/-- A look at the state, and what is made of it. -/
lemma view {g : σ → β} {k : β → Task ω σ α} (h : ∀ m, n ≤ m → (k (g (v.state m))).Ends v (m + 1)) :
    ((Task.view g).andThen k).Ends v n := fun m hm _ _ => h m hm.1

lemma look {g : σ → β} : (Task.view g).Ends v n := fun _ _ _ _ => trivial

lemma modify {f : σ → σ} : (Task.modify f).Ends v n := fun _ _ _ _ => trivial

lemma act {f : σ → β × σ} : (Task.act f).Ends v n := fun _ _ _ _ => trivial

lemma await {w : ω} (h : v.Comes w n) : (Task.await w).Ends v n := ⟨h, fun _ _ _ _ _ => trivial⟩

lemma forEach {κ : Type} {work : κ → Task ω σ Unit} (h : ∀ x m, n ≤ m → (work x).Ends v m) (l : List κ) :
    (Task.forEach work l).Ends v n := by
  induction l generalizing n with
  | nil => trivial
  | cons x rest ih =>
    exact (h x n (Nat.le_refl n)).andThen fun m _ hm => ih fun y k hk => h y k (Nat.le_trans hm hk)

/-- Work on a part of the state. -/
lemma zoom {holds : ω → σ → Bool} {get : τ → σ} {put : σ → τ → τ} {v : Viewpoint ω τ}
    (hget : ∀ s t, get (put s t) = s) (hholds : ∀ w t, v.holds w t = holds w (get t)) {t : Task ω σ α}
    (h : t.Ends (v.part holds get) n) : (t.zoom get put).Ends v n := by
  induction t generalizing n with
  | done a => trivial
  | access f next ih =>
    intro m hm hturn hstate
    refine ih _ (h m hm hturn ?_)
    show get (v.state (m + 1)) = f (get (v.state m))
    rw [hstate, hget]
  | wait w next ih =>
    obtain ⟨⟨l, hl⟩, hnext⟩ := h
    refine ⟨⟨l, fun m hm hrests => (hholds w _).trans (hl m hm hrests)⟩, fun m hm hturn hw hstate => ?_⟩
    exact ih (hnext m hm hturn ((hholds w _).symm.trans hw) (congrArg get hstate))

/-- One step of the run. -/
lemma tick {t t' : Task ω σ α} (h : t.Ends v n) (hturn : v.turn n)
    (htick : t.tick? v.holds (v.state n) = some (t', v.state (n + 1))) : t'.Ends v (n + 1) := by
  have hrests : v.Rests n n := ⟨Nat.le_refl n, fun k hk hlt => absurd hlt (Nat.not_lt.mpr hk)⟩
  cases t with
  | done a => cases htick
  | access f next =>
    obtain ⟨rfl, hstate⟩ := Prod.mk.inj (Option.some.inj htick)
    exact h n hrests hturn hstate.symm
  | wait w next =>
    simp only [tick?] at htick
    split at htick
    · next hw =>
      obtain ⟨rfl, hstate⟩ := Prod.mk.inj (Option.some.inj htick)
      exact h.2 n hrests hturn hw hstate.symm
    · cases htick

/-- An invariant of the work and the time: every step keeps it, and so do steps of others; where it holds of a wait,
that comes. -/
lemma of_invariant {I : Nat → Task ω σ α → Prop} (hcomes : ∀ m w next, I m (.wait w next) → v.Comes w m)
    (hlater : ∀ m m' t, v.Rests m m' → I m t → I m' t)
    (hstep : ∀ m t t', I m t → v.turn m → t.tick? v.holds (v.state m) = some (t', v.state (m + 1)) → I (m + 1) t')
    {t : Task ω σ α} (h : I n t) : t.Ends v n := by
  -- the time between two steps is not known, so the invariant is first brought forward and then stepped
  induction t generalizing n with
  | done a => trivial
  | access f next ih =>
    intro m hm hturn hstate
    refine ih _ (hstep m _ _ (hlater n m _ hm h) hturn ?_)
    simp only [tick?, hstate]
  | wait w next ih =>
    refine ⟨hcomes n w next h, fun m hm hturn hw hstate => ?_⟩
    refine ih (hstep m _ _ (hlater n m _ hm h) hturn ?_)
    simp only [tick?, hw, if_true, hstate]

end Ends

end Task

namespace Attempt

variable {ω σ ε ε' α β : Type}

/-- As for work that does not fail. -/
def Ends (v : Viewpoint ω σ) (a : Attempt ω σ ε α) (n : Nat) : Prop := a.outcome.Ends v n

namespace Ends

variable {v : Viewpoint ω σ} {n : Nat}

lemma pure {x : α} : Ends v (Pure.pure x : Attempt ω σ ε α) n := trivial

lemma throw {e : ε} : Ends v (throw e : Attempt ω σ ε α) n := trivial

lemma bind {a : Attempt ω σ ε α} {k : α → Attempt ω σ ε β} (h : Ends v a n) (hk : ∀ m x, n ≤ m → Ends v (k x) m) :
    Ends v (a >>= k) n := by
  refine Task.Ends.andThen h fun m e hm => ?_
  cases e with
  | ok x => exact hk m x hm
  | error e => trivial

/-- Work that does not fail. -/
lemma ofTask {t : Task ω σ α} (h : t.Ends v n) : Ends v (Attempt.ofTask t : Attempt ω σ ε α) n :=
  Task.Ends.andThen h fun _ _ _ => trivial

lemma mapError {a : Attempt ω σ ε α} (h : Ends v a n) (f : ε → ε') : Ends v (a.mapError f) n := by
  refine Task.Ends.andThen h fun m e _ => ?_
  cases e with
  | ok x => trivial
  | error e => trivial

end Ends

end Attempt

end Switchboard
