import Switchboard.Concurrency.Task
import Mathlib

/-!
# What the accesses of work do

* `Task.Within`: whatever the work finds, each of its accesses changes the state as a relation allows;
* `Task.WithinWhere`: the same as long as what the work finds is of a certain kind;
* `Task.AtMost`: on every path at most so many accesses of the work are of a certain kind;
* `andThen`, `zoom`, `forEach`, `tick`: work in sequence, on a part of the state, for every element, one step;
* `Attempt.Within`, `Attempt.AtMost`: the same for work that may fail.

Nothing is said of times here. These properties are about the work alone, so they hold of it in every run.
-/

namespace Switchboard

namespace Task

variable {ω σ τ α β : Type}

/-- Whatever the work finds, each of its accesses changes the state as `R` allows. -/
def Within (R : σ → σ → Prop) : Task ω σ α → Prop
  | done _ => True
  | access f next => ∀ s, R s (f s) ∧ (next s).Within R
  | wait _ next => next.Within R

/-- Each of the accesses of the work changes the state as `R` allows, as long as the states that it finds are as `P` says. -/
def WithinWhere (P : σ → Prop) (R : σ → σ → Prop) : Task ω σ α → Prop
  | done _ => True
  | access f next => ∀ s, P s → R s (f s) ∧ (next s).WithinWhere P R
  | wait _ next => next.WithinWhere P R

/-- On every path, at most `k` accesses of the work change the state as `P` says. -/
def AtMost (P : σ → σ → Prop) : Task ω σ α → Nat → Prop
  | done _, _ => True
  | access f next, k =>
    ∀ s, (P s (f s) → 0 < k ∧ (next s).AtMost P (k - 1)) ∧ (¬ P s (f s) → (next s).AtMost P k)
  | wait _ next, k => next.AtMost P k

namespace Within

variable {R S : σ → σ → Prop}

lemma mono (hRS : ∀ s s', R s s' → S s s') {t : Task ω σ α} (h : t.Within R) : t.Within S := by
  induction t with
  | done a => exact trivial
  | access f next ih =>
    intro s
    have hs := h s
    exact ⟨hRS _ _ hs.1, ih s hs.2⟩
  | wait w next ih => exact ih h

lemma andThen {t : Task ω σ α} {k : α → Task ω σ β} (h : t.Within R) (hk : ∀ a, (k a).Within R) :
    (t.andThen k).Within R := by
  induction t with
  | done a => exact hk a
  | access f next ih =>
    intro s
    have hs := h s
    exact ⟨hs.1, ih s hs.2⟩
  | wait w next ih => exact ih h

/-- Work on a part of the state. -/
lemma zoom {get : τ → σ} {put : σ → τ → τ} {Q : τ → τ → Prop} (hQ : ∀ t s, R (get t) s → Q t (put s t))
    {t : Task ω σ α} (h : t.Within R) : (t.zoom get put).Within Q := by
  induction t with
  | done a => exact trivial
  | access f next ih =>
    intro x
    have hx := h (get x)
    exact ⟨hQ x _ hx.1, ih (get x) hx.2⟩
  | wait w next ih => exact ih h

lemma forEach {κ : Type} {work : κ → Task ω σ Unit} (h : ∀ x, (work x).Within R) (l : List κ) :
    (forEach work l).Within R := by
  induction l with
  | nil => exact trivial
  | cons x rest ih => exact andThen (h x) fun _ => ih

/-- A step is an access that is allowed, or else it changes nothing; what is left goes on like that. -/
lemma tick {t t' : Task ω σ α} (h : t.Within R) {holds : ω → σ → Bool} {s s' : σ}
    (htick : t.tick? holds s = some (t', s')) : (R s s' ∨ s' = s) ∧ t'.Within R := by
  cases t with
  | done a => cases htick
  | access f next =>
    obtain ⟨rfl, rfl⟩ := Prod.mk.inj (Option.some.inj htick)
    exact ⟨.inl (h s).1, (h s).2⟩
  | wait w next =>
    simp only [tick?] at htick
    split at htick
    · obtain ⟨rfl, rfl⟩ := Prod.mk.inj (Option.some.inj htick)
      exact ⟨.inr rfl, h⟩
    · cases htick

lemma view {f : σ → α} (hrefl : ∀ s, R s s) : (Task.view f : Task ω σ α).Within R :=
  fun s => ⟨hrefl s, trivial⟩

lemma modify {f : σ → σ} (hf : ∀ s, R s (f s)) : (Task.modify f : Task ω σ Unit).Within R :=
  fun s => ⟨hf s, trivial⟩

lemma act {f : σ → α × σ} (hf : ∀ s, R s (f s).2) : (Task.act f : Task ω σ α).Within R :=
  fun s => ⟨hf s, trivial⟩

end Within

namespace WithinWhere

variable {P : σ → Prop} {R : σ → σ → Prop}

/-- What is always allowed is allowed there. -/
lemma of_within {t : Task ω σ α} (h : t.Within R) : t.WithinWhere P R := by
  induction t with
  | done a => exact trivial
  | access f next ih =>
    intro s _
    have hs := h s
    exact ⟨hs.1, ih s hs.2⟩
  | wait w next ih => exact ih h

lemma andThen {t : Task ω σ α} {k : α → Task ω σ β} (h : t.WithinWhere P R) (hk : ∀ a, (k a).WithinWhere P R) :
    (t.andThen k).WithinWhere P R := by
  induction t with
  | done a => exact hk a
  | access f next ih =>
    intro s hs
    have hnext := h s hs
    exact ⟨hnext.1, ih s hnext.2⟩
  | wait w next ih => exact ih h

/-- A step that finds such a state is allowed, or else changes nothing. -/
lemma tick {t t' : Task ω σ α} (h : t.WithinWhere P R) {holds : ω → σ → Bool} {s s' : σ} (hs : P s)
    (htick : t.tick? holds s = some (t', s')) : (R s s' ∨ s' = s) ∧ t'.WithinWhere P R := by
  cases t with
  | done a => cases htick
  | access f next =>
    obtain ⟨rfl, rfl⟩ := Prod.mk.inj (Option.some.inj htick)
    exact ⟨.inl (h s hs).1, (h s hs).2⟩
  | wait w next =>
    simp only [tick?] at htick
    split at htick
    · obtain ⟨rfl, rfl⟩ := Prod.mk.inj (Option.some.inj htick)
      exact ⟨.inr rfl, h⟩
    · cases htick

end WithinWhere

namespace AtMost

variable {P : σ → σ → Prop}

lemma mono {t : Task ω σ α} {j k : Nat} (h : t.AtMost P j) (hjk : j ≤ k) : t.AtMost P k := by
  induction t generalizing j k with
  | done a => exact trivial
  | access f next ih =>
    intro s
    obtain ⟨hyes, hno⟩ := h s
    constructor
    · intro hP
      obtain ⟨hpos, hnext⟩ := hyes hP
      exact ⟨Nat.lt_of_lt_of_le hpos hjk, ih s hnext (Nat.sub_le_sub_right hjk 1)⟩
    · intro hP
      exact ih s (hno hP) hjk
  | wait w next ih => exact ih h hjk

/-- Work that makes no such access. -/
lemma of_within {t : Task ω σ α} (h : t.Within fun s s' => ¬ P s s') (k : Nat) : t.AtMost P k := by
  induction t with
  | done a => exact trivial
  | access f next ih =>
    intro s
    have hs := h s
    constructor
    · intro hP
      exact absurd hP hs.1
    · intro _
      exact ih s hs.2
  | wait w next ih => exact ih h

lemma andThen {t : Task ω σ α} {work : α → Task ω σ β} {j k : Nat} (h : t.AtMost P j) (hk : ∀ a, (work a).AtMost P k) :
    (t.andThen work).AtMost P (j + k) := by
  induction t generalizing j with
  | done a => exact mono (hk a) (Nat.le_add_left k j)
  | access f next ih =>
    intro s
    obtain ⟨hyes, hno⟩ := h s
    constructor
    · intro hP
      obtain ⟨hpos, hnext⟩ := hyes hP
      have hsum : j + k - 1 = j - 1 + k := by omega
      rw [hsum]
      exact ⟨by omega, ih s hnext⟩
    · intro hP
      exact ih s (hno hP)
  | wait w next ih => exact ih h

/-- Work on a part of the state. -/
lemma zoom {get : τ → σ} {put : σ → τ → τ} {Q : τ → τ → Prop} (hQ : ∀ t s, Q t (put s t) ↔ P (get t) s)
    {t : Task ω σ α} {k : Nat} (h : t.AtMost P k) : (t.zoom get put).AtMost Q k := by
  induction t generalizing k with
  | done a => exact trivial
  | access f next ih =>
    intro x
    obtain ⟨hyes, hno⟩ := h (get x)
    constructor
    · intro hP
      obtain ⟨hpos, hnext⟩ := hyes ((hQ x _).mp hP)
      exact ⟨hpos, ih (get x) hnext⟩
    · intro hP
      exact ih (get x) (hno fun h => hP ((hQ x _).mpr h))
  | wait w next ih => exact ih h

/-- A step of this kind uses up one of those that are allowed. -/
lemma tick {t t' : Task ω σ α} {k : Nat} (h : t.AtMost P k) (hrefl : ∀ s, ¬ P s s) {holds : ω → σ → Bool} {s s' : σ}
    (htick : t.tick? holds s = some (t', s')) :
    (P s s' → 0 < k ∧ t'.AtMost P (k - 1)) ∧ (¬ P s s' → t'.AtMost P k) := by
  cases t with
  | done a => cases htick
  | access f next =>
    obtain ⟨rfl, rfl⟩ := Prod.mk.inj (Option.some.inj htick)
    exact h s
  | wait w next =>
    simp only [tick?] at htick
    split at htick
    · obtain ⟨rfl, rfl⟩ := Prod.mk.inj (Option.some.inj htick)
      exact ⟨fun hP => absurd hP (hrefl s), fun _ => h⟩
    · cases htick

end AtMost

end Task

/-! ## Work that may fail -/

namespace Attempt

variable {ω σ τ ε ε' α β : Type}

/-- As for work that does not fail. -/
def Within (R : σ → σ → Prop) (a : Attempt ω σ ε α) : Prop := a.outcome.Within R

/-- As for work that does not fail. -/
def WithinWhere (P : σ → Prop) (R : σ → σ → Prop) (a : Attempt ω σ ε α) : Prop := a.outcome.WithinWhere P R

/-- As for work that does not fail. -/
def AtMost (P : σ → σ → Prop) (a : Attempt ω σ ε α) (k : Nat) : Prop := a.outcome.AtMost P k

namespace Within

variable {R : σ → σ → Prop}

lemma pure (x : α) : Within R (Pure.pure x : Attempt ω σ ε α) := trivial

lemma throw (e : ε) : Within R (throw e : Attempt ω σ ε α) := trivial

lemma bind {a : Attempt ω σ ε α} {k : α → Attempt ω σ ε β} (h : Within R a) (hk : ∀ x, Within R (k x)) :
    Within R (a >>= k) := by
  refine Task.Within.andThen h ?_
  intro e
  cases e with
  | ok x => exact hk x
  | error e => exact trivial

lemma ofTask {t : Task ω σ α} (h : t.Within R) : Within R (Attempt.ofTask t : Attempt ω σ ε α) :=
  Task.Within.andThen h fun _ => trivial

lemma ofExcept (e : Except ε α) : Within R (Attempt.ofExcept e : Attempt ω σ ε α) := trivial

lemma act {f : σ → Except ε α × σ} (hf : ∀ s, R s (f s).2) : Within R (Attempt.act f : Attempt ω σ ε α) :=
  Task.Within.act hf

lemma mapError {a : Attempt ω σ ε α} (h : Within R a) (f : ε → ε') : Within R (a.mapError f) := by
  refine Task.Within.andThen h ?_
  intro e
  cases e with
  | ok x => exact trivial
  | error e => exact trivial

lemma zoom {get : τ → σ} {put : σ → τ → τ} {Q : τ → τ → Prop} (hQ : ∀ t s, R (get t) s → Q t (put s t))
    {a : Attempt ω σ ε α} (h : Within R a) : Within Q (Attempt.zoom get put a) :=
  Task.Within.zoom hQ h

end Within

namespace WithinWhere

variable {P : σ → Prop} {R : σ → σ → Prop}

lemma bind {a : Attempt ω σ ε α} {k : α → Attempt ω σ ε β} (h : WithinWhere P R a) (hk : ∀ x, WithinWhere P R (k x)) :
    WithinWhere P R (a >>= k) := by
  refine Task.WithinWhere.andThen h ?_
  intro e
  cases e with
  | ok x => exact hk x
  | error e => exact trivial

/-- What is looked at is a part of such a state. -/
lemma view_bind {f : σ → α} {k : α → Attempt ω σ ε β} (hrefl : ∀ s, R s s)
    (hk : ∀ s, P s → WithinWhere P R (k (f s))) :
    WithinWhere P R (Attempt.ofTask (Task.view f) >>= k) := fun s hs => ⟨hrefl s, hk s hs⟩

end WithinWhere

namespace AtMost

variable {P : σ → σ → Prop}

lemma bind {a : Attempt ω σ ε α} {work : α → Attempt ω σ ε β} {j k : Nat} (h : AtMost P a j)
    (hk : ∀ x, AtMost P (work x) k) : AtMost P (a >>= work) (j + k) := by
  refine Task.AtMost.andThen h ?_
  intro e
  cases e with
  | ok x => exact hk x
  | error e => exact trivial

end AtMost

end Attempt

end Switchboard
