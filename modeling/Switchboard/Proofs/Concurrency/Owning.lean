import Switchboard.Proofs.Concurrency.Records

/-!
# Work that has a part of the state to itself

* `Task.Owns`: the work keeps a record, and knows what a part of the state is, as nobody else changes that part;
* `Task.Records.owns`: work that leaves the part as it is owns it if it keeps its record where the part is like this;
* `Owns.andThen`, `tick`: work in sequence, one step of the run;
* `Does.owned`: at all times of a run there is such a record, and the part is as the work left it;
* `Attempt.Owns`: the same for work that may fail.

`Task.Records` speaks of work that finds the same all the time; here the work may change the part that it owns.
-/

namespace Switchboard

variable {ω σ α β γ ρ : Type}

namespace Task

/-- From a time on the work keeps a record, which is `g` at first, and a part of the state is `r`. If the work finds the part
as it left it, every step extends the record as `G` allows at the time, it waits only for what `W` allows with its record,
and record, part and result have the property `Q` when it ends. -/
def Owns (v : Viewpoint ω σ) (part : σ → ρ) (W : γ → ω → Prop) (G : Nat → γ → γ → Prop) (Q : Nat → γ → ρ → α → Prop) :
    Task ω σ α → Nat → γ → ρ → Prop
  | done a, n, g, r => Q n g r a
  | access f next, n, g, r => ∀ m, n ≤ m → v.turn m → part (v.state m) = r → v.state (m + 1) = f (v.state m) →
      ∃ g', G m g g' ∧ (next (v.state m)).Owns v part W G Q (m + 1) g' (part (v.state (m + 1)))
  | wait w next, n, g, r => W g w ∧ ∀ m, n ≤ m → v.turn m → part (v.state m) = r → v.holds w (v.state m) = true →
      v.state (m + 1) = v.state m → ∃ g', G m g g' ∧ next.Owns v part W G Q (m + 1) g' r

variable {v : Viewpoint ω σ} {part : σ → ρ} {W : γ → ω → Prop} {G : Nat → γ → γ → Prop} {Q : Nat → γ → ρ → α → Prop}
  {R : Nat → γ → ρ → β → Prop} {n : Nat} {g : γ} {r : ρ}

/-- Work that leaves the part as it is. -/
lemma Records.owns {G' : Nat → γ → γ → Prop} {Q : Nat → γ → α → Prop} {t : Task ω σ α}
    (h : t.Records v (fun s => part s = r) W G' Q n g)
    (hG : ∀ m g g', G' m g g' → G m g g' ∧ (part (v.state m) = r → part (v.state (m + 1)) = r)) :
    t.Owns v part W G (fun m g r' a => r' = r ∧ Q m g a) n g r := by
  induction t generalizing n g with
  | done a => exact ⟨rfl, h⟩
  | access f next ih =>
    intro m hm hturn hpart hstate
    obtain ⟨g', hstep, hnext⟩ := h m hm hturn hpart hstate
    rw [(hG m g g' hstep).2 hpart]
    exact ⟨g', (hG m g g' hstep).1, ih _ hnext⟩
  | wait w next ih =>
    refine ⟨h.1, fun m hm hturn hpart hholds hstate => ?_⟩
    obtain ⟨g', hstep, hnext⟩ := h.2 m hm hturn hpart hholds hstate
    exact ⟨g', (hG m g g' hstep).1, ih hnext⟩

namespace Owns

/-- Work in sequence: the second part takes over record and part of the state. -/
lemma andThen {t : Task ω σ α} {k : α → Task ω σ β} (h : t.Owns v part W G Q n g r)
    (hk : ∀ m g r a, n ≤ m → Q m g r a → (k a).Owns v part W G R m g r) : (t.andThen k).Owns v part W G R n g r := by
  induction t generalizing n g r with
  | done a => exact hk n g r a (Nat.le_refl n) h
  | access f next ih =>
    intro m hm hturn hpart hstate
    obtain ⟨g', hG, hnext⟩ := h m hm hturn hpart hstate
    exact ⟨g', hG, ih _ hnext fun l g r a hl => hk l g r a (by omega)⟩
  | wait w next ih =>
    refine ⟨h.1, fun m hm hturn hpart hholds hstate => ?_⟩
    obtain ⟨g', hG, hnext⟩ := h.2 m hm hturn hpart hholds hstate
    exact ⟨g', hG, ih hnext fun l g r a hl => hk l g r a (by omega)⟩

/-- One step of the run. -/
lemma tick {t t' : Task ω σ α} (h : t.Owns v part W G Q n g r) {m : Nat} (hm : n ≤ m) (hturn : v.turn m)
    (hpart : part (v.state m) = r) (htick : t.tick? v.holds (v.state m) = some (t', v.state (m + 1))) :
    ∃ g', G m g g' ∧ t'.Owns v part W G Q (m + 1) g' (part (v.state (m + 1))) := by
  cases t with
  | done a => cases htick
  | access f next =>
    obtain ⟨rfl, hstate⟩ := Prod.mk.inj (Option.some.inj htick)
    exact h m hm hturn hpart hstate.symm
  | wait w next =>
    simp only [tick?] at htick
    split at htick
    · next hw =>
      obtain ⟨rfl, hstate⟩ := Prod.mk.inj (Option.some.inj htick)
      rw [← hstate, hpart]
      exact h.2 m hm hturn hpart hw hstate.symm
    · cases htick

end Owns

end Task

/-- At all times of a run there is a record of what a thread has done so far, of which is known what its steps and time keep
true. If others leave a part of the state alone as long as the work is not done, that part is what the thread made of it,
now or, if the work is done, when it was just done. -/
theorem Viewpoint.Does.owned {v : Viewpoint ω σ} {left : Nat → Task ω σ α} {b : Nat} (h : v.Does left b)
    {part : σ → ρ} {W : γ → ω → Prop} {G : Nat → γ → γ → Prop} {Q : Nat → γ → ρ → α → Prop} {I : Nat → γ → Prop} {g : γ}
    (hwork : (left b).Owns v part W G Q b g (part (v.state b))) (hI : I b g)
    (hsteps : ∀ m g g', b ≤ m → G m g g' → I m g → I (m + 1) g')
    (hstill : ∀ m g, b ≤ m → (v.turn m → v.state (m + 1) = v.state m) → I m g → I (m + 1) g)
    (hothers : ∀ m, b ≤ m → (left m).result? = none → ¬ v.turn m → part (v.state (m + 1)) = part (v.state m))
    {n : Nat} (hn : b ≤ n) :
    ∃ m k g, m ≤ k ∧ b ≤ k ∧ k ≤ n ∧ (left n).Owns v part W G Q m g (part (v.state k)) ∧ I n g ∧
      ((left n).result? = none → k = n) ∧ left k = left n := by
  induction n, hn using Nat.le_induction with
  | base => exact ⟨b, b, g, Nat.le_refl b, Nat.le_refl b, Nat.le_refl b, hwork, hI, fun _ => rfl, rfl⟩
  | succ n hn ih =>
    obtain ⟨m, k, g, hm, hb, hk, howns, hI, hopen, hsame⟩ := ih
    -- a turn in which the thread takes no step: it is not its turn, or it has none to take
    have hquiet : left (n + 1) = left n → (v.turn n → v.state (n + 1) = v.state n) →
        ((left n).result? = none → part (v.state (n + 1)) = part (v.state n)) →
        ∃ m k g, m ≤ k ∧ b ≤ k ∧ k ≤ n + 1 ∧ (left (n + 1)).Owns v part W G Q m g (part (v.state k)) ∧ I (n + 1) g ∧
          ((left (n + 1)).result? = none → k = n + 1) ∧ left k = left (n + 1) := by
      intro hleft hstate hpart
      rw [hleft]
      by_cases hdone : (left n).result? = none
      · obtain rfl := hopen hdone
        refine ⟨m, k + 1, g, Nat.le_succ_of_le hm, Nat.le_succ_of_le hb, Nat.le_refl _, ?_, hstill k g hn hstate hI,
          fun _ => rfl, hleft⟩
        rwa [hpart hdone]
      · exact ⟨m, k, g, hm, hb, Nat.le_succ_of_le hk, howns, hstill n g hn hstate hI, fun h => absurd h hdone, hsame⟩
    by_cases hturn : v.turn n
    · cases htick : (left n).tick? v.holds (v.state n) with
      | none =>
        obtain ⟨hleft, hstate⟩ := h.idles n hn hturn htick
        exact hquiet hleft (fun _ => hstate) fun _ => congrArg part hstate
      | some s =>
        have hdone : (left n).result? = none := by
          cases hwork : left n with
          | done a =>
            rw [hwork] at htick
            cases htick
          | access f next | wait w next => rfl
        obtain rfl := hopen hdone
        obtain ⟨hnext, hstate⟩ := h.steps k hn hturn s.1 s.2 htick
        obtain ⟨g', hG, howns'⟩ := howns.tick hm hturn rfl (by rw [htick, hstate])
        rw [hnext]
        exact ⟨k + 1, k + 1, g', Nat.le_refl _, Nat.le_succ_of_le hb, Nat.le_refl _, howns', hsteps k g g' hn hG hI,
          fun _ => rfl, hnext⟩
    · exact hquiet (h.rests n hn hturn) (fun h => absurd h hturn) fun hdone => hothers n hn hdone hturn

/-! ## Work that may fail -/

namespace Attempt

variable {ε : Type}

/-- As for work that does not fail; a failure is a result too. -/
def Owns (v : Viewpoint ω σ) (part : σ → ρ) (W : γ → ω → Prop) (G : Nat → γ → γ → Prop)
    (Q : Nat → γ → ρ → Except ε α → Prop) (a : Attempt ω σ ε α) (n : Nat) (g : γ) (r : ρ) : Prop :=
  a.outcome.Owns v part W G Q n g r

variable {v : Viewpoint ω σ} {part : σ → ρ} {W : γ → ω → Prop} {G : Nat → γ → γ → Prop}
  {Q : Nat → γ → ρ → Except ε α → Prop} {R : Nat → γ → ρ → Except ε β → Prop} {n : Nat} {g : γ} {r : ρ}

lemma Records.owns {G' : Nat → γ → γ → Prop} {Q : Nat → γ → Except ε α → Prop} {a : Attempt ω σ ε α}
    (h : a.Records v (fun s => part s = r) W G' Q n g)
    (hG : ∀ m g g', G' m g g' → G m g g' ∧ (part (v.state m) = r → part (v.state (m + 1)) = r)) :
    a.Owns v part W G (fun m g r' e => r' = r ∧ Q m g e) n g r :=
  Task.Records.owns h hG

namespace Owns

lemma pure {x : α} (h : Q n g r (.ok x)) : Owns v part W G Q (Pure.pure x : Attempt ω σ ε α) n g r := h

/-- The work fails as its first part does, or else it goes on. -/
lemma bind {a : Attempt ω σ ε α} {k : α → Attempt ω σ ε β} (h : Owns v part W G Q a n g r)
    (hk : ∀ m g r x, n ≤ m → Q m g r (.ok x) → Owns v part W G R (k x) m g r)
    (hfail : ∀ m g r e, n ≤ m → Q m g r (.error e) → R m g r (.error e)) : Owns v part W G R (a >>= k) n g r := by
  refine Task.Owns.andThen h fun m g r e hm he => ?_
  cases e with
  | ok x => exact hk m g r x hm he
  | error e => exact hfail m g r e hm he

/-- Something that is there, or a fault. -/
lemma ofExcept {e : Except ε α} (h : Q n g r e) : Owns v part W G Q (Attempt.ofExcept e : Attempt ω σ ε α) n g r := h

end Owns

end Attempt

end Switchboard
