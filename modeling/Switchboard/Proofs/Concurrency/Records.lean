import Switchboard.Proofs.Concurrency.Ensemble
import Switchboard.Proofs.Concurrency.Timed

/-!
# Work that keeps a record

* `Viewpoint.Does`: a thread does its work in a run, whatever others do between its steps;
* `FirstTurn`, `Does.first`, `Does.ended`: its first turn, and what is left when it has ended;
* `Does.exists_done`: it ends, if it gets turns and what it waits for comes;
* `Ensemble.does_ofWork`: any number of calls do their work, in any order;
* `Task.Records`: the work keeps a record, which each of its steps extends as a relation allows; what it waits for, and
  what it ends with, hangs on the record;
* `Records.andThen`, `zoom`, `tick`: work in sequence, work on a part of the state, one step of the run;
* `Does.recorded`: at all times of a run there is such a record;
* `Attempt.Records`: the same for work that may fail.

The record belongs to the proof: it says what the work has done so far, where `Task.Upholds` says what it does.
-/

namespace Switchboard

variable {ω σ τ α β γ : Type}

namespace Viewpoint

/-- The thread does its work from a time on; this is what is left of it at each time. In its turn it takes one step, if
there is one to take, and else it changes nothing. -/
structure Does (v : Viewpoint ω σ) (left : Nat → Task ω σ α) (b : Nat) : Prop where
  steps : ∀ m, b ≤ m → v.turn m → ∀ t s, (left m).tick? v.holds (v.state m) = some (t, s) →
    left (m + 1) = t ∧ v.state (m + 1) = s
  idles : ∀ m, b ≤ m → v.turn m → (left m).tick? v.holds (v.state m) = none →
    left (m + 1) = left m ∧ v.state (m + 1) = v.state m
  rests : ∀ m, b ≤ m → ¬ v.turn m → left (m + 1) = left m

/-- From the time `b` on, this is the first turn of the thread. -/
structure FirstTurn (v : Viewpoint ω σ) (b n : Nat) : Prop where
  since : b ≤ n
  turn : v.turn n
  rests : ∀ m, b ≤ m → m < n → ¬ v.turn m

namespace Does

variable {v : Viewpoint ω σ} {left : Nat → Task ω σ α} {b n : Nat}

lemma later (h : v.Does left b) {b' : Nat} (hb : b ≤ b') : v.Does left b' where
  steps m hm := h.steps m (Nat.le_trans hb hm)
  idles m hm := h.idles m (Nat.le_trans hb hm)
  rests m hm := h.rests m (Nat.le_trans hb hm)

/-- Before the first turn of the thread all of its work is left. -/
lemma whole (h : v.Does left b) (hn : b ≤ n) (hrests : ∀ m, b ≤ m → m < n → ¬ v.turn m) : left n = left b := by
  induction n, hn using Nat.le_induction with
  | base => rfl
  | succ n hn ih =>
    rw [h.rests n hn (hrests n hn (Nat.lt_succ_self n))]
    exact ih fun m hm hlt => hrests m hm (Nat.lt_succ_of_lt hlt)

/-- What begins with an access makes it in its first turn. -/
lemma first (h : v.Does left b) {f : σ → σ} {next : σ → Task ω σ α} (hleft : left b = .access f next)
    (hfirst : v.FirstTurn b n) : left (n + 1) = next (v.state n) ∧ v.state (n + 1) = f (v.state n) := by
  refine h.steps n hfirst.since hfirst.turn _ _ ?_
  rw [h.whole hfirst.since hfirst.rests, hleft]
  rfl

/-- Work that has ended has ended for good, and changes nothing any more. -/
lemma ended (h : v.Does left b) (hn : b ≤ n) {a : α} (hleft : left n = .done a) {m : Nat} (hm : n ≤ m) :
    left m = .done a ∧ (v.turn m → v.state (m + 1) = v.state m) := by
  have hstays : left m = .done a := by
    induction m, hm using Nat.le_induction with
    | base => exact hleft
    | succ m hm ih =>
      by_cases hturn : v.turn m
      · rw [(h.idles m (Nat.le_trans hn hm) hturn (by rw [ih]; rfl)).1, ih]
      · rw [h.rests m (Nat.le_trans hn hm) hturn, ih]
  exact ⟨hstays, fun hturn => (h.idles m (Nat.le_trans hn hm) hturn (by rw [hstays]; rfl)).2⟩

/-- Work that is given turns is done in the end, if all that it waits for is there in one of them. -/
theorem exists_done (h : v.Does left b) (hturns : ∀ n, b ≤ n → ∃ m, n ≤ m ∧ v.turn m)
    (hwaits : ∀ n on next, b ≤ n → left n = .wait on next → ∃ m, n ≤ m ∧ v.turn m ∧ v.holds on (v.state m) = true)
    (hn : b ≤ n) : ∃ m a, n ≤ m ∧ left m = .done a := by
  -- until the first turn in which there is a step to take the work stays as it is
  have hfirst : ∀ n, b ≤ n → (∃ m, n ≤ m ∧ v.turn m ∧ ((left n).tick? v.holds (v.state m)).isSome = true) →
      ∃ m, n ≤ m ∧ ∃ t s, (left n).tick? v.holds (v.state m) = some (t, s) ∧ left (m + 1) = t := by
    classical
    intro n hn hexists
    obtain ⟨hnm, hturn, hsome⟩ := Nat.find_spec hexists
    have hleft : ∀ k, n ≤ k → k ≤ Nat.find hexists → left k = left n := by
      intro k hk
      induction k, hk using Nat.le_induction with
      | base => exact fun _ => rfl
      | succ k hk ih =>
        intro hle
        have hsame := ih (Nat.le_of_succ_le hle)
        by_cases hturn : v.turn k
        · have hnone : (left k).tick? v.holds (v.state k) = none := by
            rw [hsame]
            by_contra hne
            exact Nat.find_min hexists hle ⟨hk, hturn, Option.isSome_iff_ne_none.mpr hne⟩
          rw [(h.idles k (Nat.le_trans hn hk) hturn hnone).1, hsame]
        · rw [h.rests k (Nat.le_trans hn hk) hturn, hsame]
    obtain ⟨⟨t, s⟩, htick⟩ := Option.isSome_iff_exists.mp hsome
    refine ⟨_, hnm, t, s, htick, (h.steps _ (Nat.le_trans hn hnm) hturn t s ?_).1⟩
    rwa [hleft _ hnm (Nat.le_refl _)]
  generalize hwork : left n = t
  induction t generalizing n with
  | done a => exact ⟨n, a, Nat.le_refl n, hwork⟩
  | access f next ih =>
    obtain ⟨m, hm, hturn⟩ := hturns n hn
    obtain ⟨k, hk, t, s, htick, hnext⟩ := hfirst n hn ⟨m, hm, hturn, by rw [hwork]; rfl⟩
    rw [hwork] at htick
    obtain ⟨rfl, -⟩ := Prod.mk.inj (Option.some.inj htick)
    obtain ⟨l, a, hl, hdone⟩ := ih _ (by omega) hnext
    exact ⟨l, a, by omega, hdone⟩
  | wait on next ih =>
    obtain ⟨m, hm, hturn, hholds⟩ := hwaits n on next hn hwork
    obtain ⟨k, hk, t, s, htick, hnext⟩ := hfirst n hn ⟨m, hm, hturn, by rw [hwork, Task.tick?, if_pos hholds]; rfl⟩
    rw [hwork, Task.tick?] at htick
    split at htick
    · obtain ⟨rfl, -⟩ := Prod.mk.inj (Option.some.inj htick)
      obtain ⟨l, a, hl, hdone⟩ := ih (by omega) hnext
      exact ⟨l, a, by omega, hdone⟩
    · cases htick

end Does

end Viewpoint

namespace Ensemble

variable {κ π ε ρ : Type}

/-- A run of calls as one of them sees it. -/
def viewpoint (x : Ensemble σ κ π ε) (holds : ω → σ → Bool) (state : σ) (schedule : Nat → Turn κ ε) (i : Nat) :
    Viewpoint ω σ where
  holds := holds
  state n := (x.play state schedule n).state
  turn n := schedule n = .step i

/-- What is left of a call, and `idle` as long as it has not begun. -/
def leftOf (x : Ensemble σ κ (Task ω σ ρ) ε) (idle : Task ω σ ρ) (state : σ) (schedule : Nat → Turn κ ε) (i n : Nat) :
    Task ω σ ρ :=
  ((x.play state schedule n).place? i).getD idle

/-- From when it has begun a call does its work, whatever else goes on. -/
theorem does_ofWork {holds : ω → σ → Bool} {work : κ → Task ω σ ρ} {around : ε → σ → σ} {idle : Task ω σ ρ} {state : σ}
    {schedule : Nat → Turn κ ε} {i b : Nat} {call : κ} {place : Task ω σ ρ}
    (hb : ((ofWork holds work around).play state schedule b).calls[i]? = some (call, place)) :
    ((ofWork holds work around).viewpoint holds state schedule i).Does
      ((ofWork holds work around).leftOf idle state schedule i) b := by
  let x := ofWork holds work around
  -- a call that has begun stays where it is in the list, whatever is left of it
  have hthere : ∀ m, b ≤ m → ∃ t, (x.play state schedule m).calls[i]? = some (call, t) ∧
      x.leftOf idle state schedule i m = t := by
    intro m hm
    obtain ⟨t, ht, -⟩ := x.place_of_le (Q := fun _ _ => True) (fun _ _ _ _ _ _ _ => trivial) hm hb trivial
    exact ⟨t, ht, by simp only [leftOf, Moment.place?, ht, Option.map_some, Option.getD_some]⟩
  refine ⟨fun m hm hturn t s htick => ?_, fun m hm hturn htick => ?_, fun m hm hturn => ?_⟩
  · obtain ⟨_, hm', rfl⟩ := hthere m hm
    have hnext := x.play_succ_of_step hturn hm' htick
    refine ⟨?_, congrArg Moment.state hnext⟩
    show ((x.play state schedule (m + 1)).place? i).getD idle = t
    rw [hnext, Moment.place?, List.getElem?_set_self (List.getElem?_eq_some_iff.mp hm').1]
    rfl
  · obtain ⟨_, hm', rfl⟩ := hthere m hm
    have hsame : x.play state schedule (m + 1) = x.play state schedule m := by
      have hturn : schedule m = .step i := hturn
      have hstep : x.step call (x.leftOf idle state schedule i m) (x.play state schedule m).state = none := htick
      simp only [play, hturn, after, hm', hstep]
    exact ⟨by simp only [leftOf, x, hsame], congrArg Moment.state hsame⟩
  · obtain ⟨_, hm', hleft⟩ := hthere m hm
    rcases x.step_or_stay hm' with hstay | ⟨_, hmine, -⟩
    · rw [hleft]
      simp only [leftOf, Moment.place?, x, hstay, Option.map_some, Option.getD_some]
    · exact absurd hmine hturn

end Ensemble

namespace Task

/-- From a time on the work keeps a record, which is `g` at first. If the states that it finds are as `B` says, every step
of the work extends the record as `G` allows at the time, it waits only for what `W` allows with its record, and result and
record have the property `Q` when it ends. Nothing else is said of what others do in between. -/
def Records (v : Viewpoint ω σ) (B : σ → Prop) (W : γ → ω → Prop) (G : Nat → γ → γ → Prop) (Q : Nat → γ → α → Prop) :
    Task ω σ α → Nat → γ → Prop
  | done a, n, g => Q n g a
  | access f next, n, g => ∀ m, n ≤ m → v.turn m → B (v.state m) → v.state (m + 1) = f (v.state m) →
      ∃ g', G m g g' ∧ (next (v.state m)).Records v B W G Q (m + 1) g'
  | wait w next, n, g => W g w ∧ ∀ m, n ≤ m → v.turn m → B (v.state m) → v.holds w (v.state m) = true →
      v.state (m + 1) = v.state m → ∃ g', G m g g' ∧ next.Records v B W G Q (m + 1) g'

namespace Records

variable {v : Viewpoint ω σ} {B : σ → Prop} {W : γ → ω → Prop} {G : Nat → γ → γ → Prop} {Q : Nat → γ → α → Prop}
  {R : Nat → γ → β → Prop} {n : Nat} {g : γ}

/-- What is known at the end may be weakened. -/
lemma imp {Q' : Nat → γ → α → Prop} {t : Task ω σ α} (h : t.Records v B W G Q n g)
    (hQ : ∀ m g a, n ≤ m → Q m g a → Q' m g a) : t.Records v B W G Q' n g := by
  induction t generalizing n g with
  | done a => exact hQ n g a (Nat.le_refl n) h
  | access f next ih =>
    intro m hm hturn hB hstate
    obtain ⟨g', hG, hnext⟩ := h m hm hturn hB hstate
    exact ⟨g', hG, ih _ hnext fun l g a hl => hQ l g a (by omega)⟩
  | wait w next ih =>
    refine ⟨h.1, fun m hm hturn hB hholds hstate => ?_⟩
    obtain ⟨g', hG, hnext⟩ := h.2 m hm hturn hB hholds hstate
    exact ⟨g', hG, ih hnext fun l g a hl => hQ l g a (by omega)⟩

/-- Work in sequence: the second part takes over the record of the first one. -/
lemma andThen {t : Task ω σ α} {k : α → Task ω σ β} (h : t.Records v B W G Q n g)
    (hk : ∀ m g a, n ≤ m → Q m g a → (k a).Records v B W G R m g) : (t.andThen k).Records v B W G R n g := by
  induction t generalizing n g with
  | done a => exact hk n g a (Nat.le_refl n) h
  | access f next ih =>
    intro m hm hturn hB hstate
    obtain ⟨g', hG, hnext⟩ := h m hm hturn hB hstate
    exact ⟨g', hG, ih _ hnext fun l g a hl => hk l g a (by omega)⟩
  | wait w next ih =>
    refine ⟨h.1, fun m hm hturn hB hholds hstate => ?_⟩
    obtain ⟨g', hG, hnext⟩ := h.2 m hm hturn hB hholds hstate
    exact ⟨g', hG, ih hnext fun l g a hl => hk l g a (by omega)⟩

/-- Work on a part of the state, where nothing is demanded of that part. -/
lemma zoom {holds : ω → σ → Bool} {get : τ → σ} {put : σ → τ → τ} {v : Viewpoint ω τ} {B : τ → Prop}
    {G' : Nat → γ → γ → Prop} (hget : ∀ s t, get (put s t) = s) (hput : ∀ t, put (get t) t = t)
    (hholds : ∀ w t, v.holds w t = holds w (get t))
    (hG : ∀ m s g g', v.state (m + 1) = put s (v.state m) → G m g g' → G' m g g') {t : Task ω σ α}
    (h : t.Records (v.part holds get) (fun _ => True) W G Q n g) : (t.zoom get put).Records v B W G' Q n g := by
  induction t generalizing n g with
  | done a => exact h
  | access f next ih =>
    intro m hm hturn _ hstate
    have hpart : get (v.state (m + 1)) = f (get (v.state m)) := by rw [hstate, hget]
    obtain ⟨g', hstep, hnext⟩ := h m hm hturn trivial hpart
    exact ⟨g', hG m _ g g' hstate hstep, ih _ hnext⟩
  | wait w next ih =>
    refine ⟨h.1, fun m hm hturn _ hw hstate => ?_⟩
    obtain ⟨g', hstep, hnext⟩ := h.2 m hm hturn trivial ((hholds w _).symm.trans hw) (congrArg get hstate)
    exact ⟨g', hG m _ g g' (hstate.trans (hput _).symm) hstep, ih hnext⟩

/-- One step of the run. -/
lemma tick {t t' : Task ω σ α} (h : t.Records v B W G Q n g) {m : Nat} (hm : n ≤ m) (hturn : v.turn m)
    (hB : B (v.state m)) (htick : t.tick? v.holds (v.state m) = some (t', v.state (m + 1))) :
    ∃ g', G m g g' ∧ t'.Records v B W G Q (m + 1) g' := by
  cases t with
  | done a => cases htick
  | access f next =>
    obtain ⟨rfl, hstate⟩ := Prod.mk.inj (Option.some.inj htick)
    exact h m hm hturn hB hstate.symm
  | wait w next =>
    simp only [tick?] at htick
    split at htick
    · next hw =>
      obtain ⟨rfl, hstate⟩ := Prod.mk.inj (Option.some.inj htick)
      exact h.2 m hm hturn hB hw hstate.symm
    · cases htick

/-- An invariant of the work, its record and the time: every step keeps it, waiting does not hurt it, and it says what is
waited for and what is known at the end. -/
lemma of_invariant {I : Nat → γ → Task ω σ α → Prop} (hend : ∀ m g a, I m g (done a) → Q m g a)
    (hwait : ∀ m g w next, I m g (wait w next) → W g w) (hlater : ∀ m m' g t, m ≤ m' → I m g t → I m' g t)
    (hstep : ∀ m g t t', I m g t → v.turn m → t.tick? v.holds (v.state m) = some (t', v.state (m + 1)) →
      ∃ g', G m g g' ∧ I (m + 1) g' t')
    {t : Task ω σ α} (h : I n g t) : t.Records v B W G Q n g := by
  induction t generalizing n g with
  | done a => exact hend n g a h
  | access f next ih =>
    intro m hm hturn _ hstate
    obtain ⟨g', hG, hI⟩ := hstep m g _ (next (v.state m)) (hlater n m g _ hm h) hturn (by simp only [tick?, hstate])
    exact ⟨g', hG, ih _ hI⟩
  | wait w next ih =>
    refine ⟨hwait n g w next h, fun m hm hturn _ hw hstate => ?_⟩
    obtain ⟨g', hG, hI⟩ := hstep m g _ next (hlater n m g _ hm h) hturn (by simp only [tick?, hw, if_true, hstate])
    exact ⟨g', hG, ih hI⟩

end Records

end Task

/-- At all times of a run there is a record of what a thread has done so far. What is known of the record at first, and is
kept by the steps of the thread and by time, is known of it at all times; and the thread finds states as `B` says if they
are so at first, and all steps leave them so as long as its work is not done. -/
theorem Viewpoint.Does.recorded {v : Viewpoint ω σ} {left : Nat → Task ω σ α} {b : Nat} (h : v.Does left b)
    {B : σ → Prop} {W : γ → ω → Prop} {G : Nat → γ → γ → Prop} {Q : Nat → γ → α → Prop} {I : Nat → γ → Prop} {g : γ}
    (hwork : (left b).Records v B W G Q b g) (hB : B (v.state b)) (hI : I b g)
    (hsteps : ∀ m g g', b ≤ m → G m g g' → I m g ∧ B (v.state m) → I (m + 1) g' ∧ B (v.state (m + 1)))
    (hstill : ∀ m g, b ≤ m → (v.turn m → v.state (m + 1) = v.state m) → I m g → I (m + 1) g)
    (hothers : ∀ m, b ≤ m → (left m).result? = none → ¬ v.turn m → B (v.state m) → B (v.state (m + 1)))
    {n : Nat} (hn : b ≤ n) : ∃ m g, m ≤ n ∧ (left n).Records v B W G Q m g ∧ I n g := by
  suffices hall : ∃ m g, m ≤ n ∧ (left n).Records v B W G Q m g ∧ I n g ∧ ((left n).result? = none → B (v.state n)) from
    let ⟨m, g, hm, hleft, hI, _⟩ := hall
    ⟨m, g, hm, hleft, hI⟩
  induction n, hn using Nat.le_induction with
  | base => exact ⟨b, g, Nat.le_refl b, hwork, hI, fun _ => hB⟩
  | succ n hn ih =>
    obtain ⟨m, g, hm, hleft, hI, hB⟩ := ih
    by_cases hturn : v.turn n
    · cases htick : (left n).tick? v.holds (v.state n) with
      | none =>
        obtain ⟨hsame, hstate⟩ := h.idles n hn hturn htick
        rw [hsame, hstate]
        exact ⟨m, g, Nat.le_succ_of_le hm, hleft, hstill n g hn (fun _ => hstate) hI, hB⟩
      | some r =>
        have hopen : (left n).result? = none := by
          cases hwork : left n with
          | done a =>
            rw [hwork] at htick
            cases htick
          | access f next | wait w next => rfl
        obtain ⟨hnext, hstate⟩ := h.steps n hn hturn r.1 r.2 htick
        obtain ⟨g', hG, hrecords⟩ := hleft.tick hm hturn (hB hopen) (by rw [htick, hstate])
        obtain ⟨hI', hB'⟩ := hsteps n g g' hn hG ⟨hI, hB hopen⟩
        rw [hnext]
        exact ⟨n + 1, g', Nat.le_refl _, hrecords, hI', fun _ => hB'⟩
    · rw [h.rests n hn hturn]
      exact ⟨m, g, Nat.le_succ_of_le hm, hleft, hstill n g hn (fun hn => absurd hn hturn) hI,
        fun hopen => hothers n hn hopen hturn (hB hopen)⟩

/-! ## Work that may fail -/

namespace Attempt

variable {ε : Type}

/-- As for work that does not fail; a failure is a result too. -/
def Records (v : Viewpoint ω σ) (B : σ → Prop) (W : γ → ω → Prop) (G : Nat → γ → γ → Prop)
    (Q : Nat → γ → Except ε α → Prop) (a : Attempt ω σ ε α) (n : Nat) (g : γ) : Prop :=
  a.outcome.Records v B W G Q n g

namespace Records

variable {v : Viewpoint ω σ} {B : σ → Prop} {W : γ → ω → Prop} {G : Nat → γ → γ → Prop}
  {Q : Nat → γ → Except ε α → Prop} {R : Nat → γ → Except ε β → Prop} {n : Nat} {g : γ}

lemma pure {x : α} (h : Q n g (.ok x)) : Records v B W G Q (Pure.pure x : Attempt ω σ ε α) n g := h

lemma throw {e : ε} (h : Q n g (.error e)) : Records v B W G Q (throw e : Attempt ω σ ε α) n g := h

/-- The work fails as its first part does, or else it goes on. -/
lemma bind {a : Attempt ω σ ε α} {k : α → Attempt ω σ ε β} (h : Records v B W G Q a n g)
    (hk : ∀ m g x, n ≤ m → Q m g (.ok x) → Records v B W G R (k x) m g)
    (hfail : ∀ m g e, n ≤ m → Q m g (.error e) → R m g (.error e)) : Records v B W G R (a >>= k) n g := by
  refine Task.Records.andThen h fun m g e hm he => ?_
  cases e with
  | ok x => exact hk m g x hm he
  | error e => exact hfail m g e hm he

lemma imp {Q' : Nat → γ → Except ε α → Prop} {a : Attempt ω σ ε α} (h : Records v B W G Q a n g)
    (hQ : ∀ m g e, n ≤ m → Q m g e → Q' m g e) : Records v B W G Q' a n g :=
  Task.Records.imp h hQ

/-- What the work gives is made into something else. -/
lemma map {a : Attempt ω σ ε α} (h : Records v B W G Q a n g) (f : α → β) :
    Records v B W G (fun m g e => ∃ e', Q m g e' ∧ e = e'.map f) (f <$> a) n g := by
  refine Task.Records.andThen h fun m g e _ he => ?_
  cases e with
  | ok x => exact ⟨.ok x, he, rfl⟩
  | error e => exact ⟨.error e, he, rfl⟩

/-- Work that does not fail. -/
lemma ofTask {Q : Nat → γ → α → Prop} {t : Task ω σ α} (h : t.Records v B W G Q n g) :
    Records v B W G (fun m g e => ∃ x, e = .ok x ∧ Q m g x) (Attempt.ofTask t : Attempt ω σ ε α) n g :=
  Task.Records.andThen h fun _ _ x _ hx => ⟨x, rfl, hx⟩

end Records

end Attempt

end Switchboard
