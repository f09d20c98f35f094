import Switchboard.Proofs.Concurrency.Accesses

/-!
# Work that carries something along

* `Task.Carries`: work holds something that is not part of the state, and each of its accesses may change both;
* `of_within`, `andThen`, `zoom`, `forEach`, `tick`: work that keeps what it holds, work in sequence, on a part of the
  state, for every element, one step;
* `Attempt.Carries`: the same for work that may fail.

What is held belongs to the proof: what the work still owes, or what only this work may touch.
-/

namespace Switchboard

namespace Task

variable {ω σ τ α β γ : Type}

/-- The work holds `g`. Whatever it finds, each of its accesses changes the state, and with it what the work holds, as `R`
allows, and at the end result and holding are as `Q` says. -/
def Carries (R : γ → σ → γ → σ → Prop) (Q : α → γ → Prop) : Task ω σ α → γ → Prop
  | done a, g => Q a g
  | access f next, g => ∀ s, ∃ g', R g s g' (f s) ∧ (next s).Carries R Q g'
  | wait _ next, g => next.Carries R Q g

namespace Carries

variable {R S : γ → σ → γ → σ → Prop} {Q Q' : α → γ → Prop} {g : γ}

lemma imp {t : Task ω σ α} (h : t.Carries R Q g) (hQ : ∀ a g, Q a g → Q' a g) : t.Carries R Q' g := by
  induction t generalizing g with
  | done a => exact hQ a g h
  | access f next ih =>
    intro s
    obtain ⟨g', hR, hnext⟩ := h s
    exact ⟨g', hR, ih s hnext⟩
  | wait w next ih => exact ih h

lemma mono (hRS : ∀ g s g' s', R g s g' s' → S g s g' s') {t : Task ω σ α} (h : t.Carries R Q g) : t.Carries S Q g := by
  induction t generalizing g with
  | done a => exact h
  | access f next ih =>
    intro s
    obtain ⟨g', hR, hnext⟩ := h s
    exact ⟨g', hRS _ _ _ _ hR, ih s hnext⟩
  | wait w next ih => exact ih h

/-- Work in sequence: the second part takes over what is held at the end of the first one. -/
lemma andThen {t : Task ω σ α} {k : α → Task ω σ β} {Q' : β → γ → Prop} (h : t.Carries R Q g)
    (hk : ∀ a g, Q a g → (k a).Carries R Q' g) : (t.andThen k).Carries R Q' g := by
  induction t generalizing g with
  | done a => exact hk a g h
  | access f next ih =>
    intro s
    obtain ⟨g', hR, hnext⟩ := h s
    exact ⟨g', hR, ih s hnext⟩
  | wait w next ih => exact ih h

/-- Work that may be done while `g` is held, and leaves it as it is. -/
lemma of_within {W : σ → σ → Prop} (hR : ∀ s s', W s s' → R g s g s') {t : Task ω σ α} (h : t.Within W) :
    t.Carries R (fun _ g' => g' = g) g := by
  induction t with
  | done a => exact rfl
  | access f next ih =>
    intro s
    have hs := h s
    exact ⟨g, hR _ _ hs.1, ih s hs.2⟩
  | wait w next ih => exact ih h

/-- Work on a part of the state. -/
lemma zoom {get : τ → σ} {put : σ → τ → τ} {S : γ → τ → γ → τ → Prop}
    (hS : ∀ g t g' s, R g (get t) g' s → S g t g' (put s t)) {t : Task ω σ α} (h : t.Carries R Q g) :
    (t.zoom get put).Carries S Q g := by
  induction t generalizing g with
  | done a => exact h
  | access f next ih =>
    intro x
    obtain ⟨g', hR, hnext⟩ := h (get x)
    exact ⟨g', hS _ _ _ _ hR, ih (get x) hnext⟩
  | wait w next ih => exact ih h

/-- Work for every element, each of which takes away what is held for it. -/
lemma forEach {κ δ : Type} {R : List δ → σ → List δ → σ → Prop} {work : κ → Task ω σ Unit} {own : κ → δ}
    (h : ∀ x rest, (work x).Carries R (fun _ g => g = rest) (own x :: rest)) (l : List κ) :
    (forEach work l).Carries R (fun _ g => g = []) (l.map own) := by
  induction l with
  | nil => exact rfl
  | cons x rest ih =>
    refine andThen (h x (rest.map own)) ?_
    rintro _ g rfl
    exact ih

/-- A step is an access that is allowed, or else it changes nothing; the rest of the work holds what is held then. -/
lemma tick {t t' : Task ω σ α} (h : t.Carries R Q g) {holds : ω → σ → Bool} {s s' : σ}
    (htick : t.tick? holds s = some (t', s')) : ∃ g', (R g s g' s' ∨ g' = g ∧ s' = s) ∧ t'.Carries R Q g' := by
  cases t with
  | done a => cases htick
  | access f next =>
    obtain ⟨rfl, rfl⟩ := Prod.mk.inj (Option.some.inj htick)
    obtain ⟨g', hR, hnext⟩ := h s
    exact ⟨g', .inl hR, hnext⟩
  | wait w next =>
    simp only [tick?] at htick
    split at htick
    · obtain ⟨rfl, rfl⟩ := Prod.mk.inj (Option.some.inj htick)
      exact ⟨g, .inr ⟨rfl, rfl⟩, h⟩
    · cases htick

end Carries

end Task

namespace Attempt

variable {ω σ ε α β γ : Type}

/-- As for work that does not fail; `Q` says what is held where it succeeds, `F` where it fails. -/
def Carries (R : γ → σ → γ → σ → Prop) (Q : α → γ → Prop) (F : γ → Prop) (a : Attempt ω σ ε α) (g : γ) : Prop :=
  a.outcome.Carries R (fun e g => match e with
    | .ok x => Q x g
    | .error _ => F g) g

namespace Carries

variable {R : γ → σ → γ → σ → Prop} {Q : α → γ → Prop} {Q' : β → γ → Prop} {F : γ → Prop} {g : γ}

lemma bind {a : Attempt ω σ ε α} {k : α → Attempt ω σ ε β} (h : Carries R Q F a g)
    (hk : ∀ x g, Q x g → Carries R Q' F (k x) g) : Carries R Q' F (a >>= k) g := by
  refine Task.Carries.andThen h ?_
  intro e g he
  cases e with
  | ok x => exact hk x g he
  | error e => exact he

lemma ofTask {t : Task ω σ α} (h : t.Carries R Q g) : Carries R Q F (Attempt.ofTask t : Attempt ω σ ε α) g :=
  Task.Carries.andThen h fun _ _ hx => hx

lemma act {f : σ → Except ε α × σ}
    (hf : ∀ s, ∃ g', R g s g' (f s).2 ∧ (∀ x, (f s).1 = .ok x → Q x g') ∧ ∀ e, (f s).1 = .error e → F g') :
    Carries R Q F (Attempt.act f : Attempt ω σ ε α) g := by
  intro s
  obtain ⟨g', hR, hok, herror⟩ := hf s
  refine ⟨g', hR, ?_⟩
  show match (f s).1 with
    | .ok x => Q x g'
    | .error _ => F g'
  cases hresult : (f s).1 with
  | ok x => exact hok x hresult
  | error e => exact herror e hresult

/-- A result or failure that is known. -/
lemma ofExcept {e : Except ε α} (hok : ∀ x, e = .ok x → Q x g) (herror : ∀ fault, e = .error fault → F g) :
    Carries R Q F (Attempt.ofExcept e : Attempt ω σ ε α) g := by
  cases e with
  | ok x => exact hok x rfl
  | error fault => exact herror fault rfl

/-- Work that may be done while `g` is held, and leaves it as it is. -/
lemma of_within {W : σ → σ → Prop} (hR : ∀ s s', W s s' → R g s g s') {a : Attempt ω σ ε α} (h : Attempt.Within W a) :
    Carries R (fun _ g' => g' = g) (· = g) a g := by
  refine Task.Carries.imp (Task.Carries.of_within hR h) ?_
  intro e g' hg
  cases e <;> exact hg

end Carries

end Attempt

end Switchboard
