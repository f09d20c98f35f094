import Switchboard.Proofs.Concurrency.Step

/-!
# Any number of calls on a shared state

* `Ensemble`: where calls begin, what their steps are, and what else can happen to the state;
* `Ensemble.after`, `play`: one turn, and a run of turns in any order;
* `Happens`, `happens`: all that one turn can come to;
* `place_succ_origin`, `exists_begins_of_place`, `exists_step_of_place`, `of_place`, `step_or_stay`, `place_of_le`: a single
  call in a run;
* `Ensemble.ofWork`: calls whose steps are the single accesses of their work;
* `play_followed`: calls that are told by their work and by their places go on together.
-/

namespace Switchboard

/-- Calls of a kind `κ` on a state `σ`, each of which is at one of the places `π`; `ε` is what else can happen. -/
structure Ensemble (σ κ π ε : Type) where
  /-- Where a call begins. -/
  start : κ → π
  /-- One step of a call, if it can make one. -/
  step : κ → π → σ → Option (π × σ)
  /-- What becomes of the state when something else happens. -/
  around : ε → σ → σ

namespace Ensemble

variable {σ κ π ρ ω ε : Type}

/-- The state and the calls at some time. -/
structure Moment (σ κ π : Type) where
  state : σ
  calls : List (κ × π) := []

/-- Whose turn it is, and what is new. -/
inductive Turn (κ ε : Type) where
  | begins (call : κ)
  | step (i : Nat)
  | around (e : ε)

/-- One turn; what is not possible changes nothing. -/
def after (x : Ensemble σ κ π ε) (m : Moment σ κ π) : Turn κ ε → Moment σ κ π
  | .begins call => { m with calls := m.calls ++ [(call, x.start call)] }
  | .step i =>
    match m.calls[i]? with
    | none => m
    | some (call, place) =>
      match x.step call place m.state with
      | none => m
      | some (place, state) => { state, calls := m.calls.set i (call, place) }
  | .around e => { m with state := x.around e m.state }

/-- The state and the calls after `n` turns. -/
def play (x : Ensemble σ κ π ε) (state : σ) (schedule : Nat → Turn κ ε) : Nat → Moment σ κ π
  | 0 => { state }
  | n + 1 => x.after (play x state schedule n) (schedule n)

/-- What one turn can come to. -/
inductive Happens (x : Ensemble σ κ π ε) (m : Moment σ κ π) (turn : Turn κ ε) : Moment σ κ π → Prop
  | still : Happens x m turn m
  | begins (call : κ) (begun : turn = .begins call) :
    Happens x m turn { m with calls := m.calls ++ [(call, x.start call)] }
  | moves (i : Nat) (call : κ) (place place' : π) (state : σ) (mine : turn = .step i)
      (here : m.calls[i]? = some (call, place)) (steps : x.step call place m.state = some (place', state)) :
    Happens x m turn { state, calls := m.calls.set i (call, place') }
  | around (e : ε) (other : turn = .around e) : Happens x m turn { m with state := x.around e m.state }

/-- These are all the things that one turn can come to. -/
theorem happens (x : Ensemble σ κ π ε) (m : Moment σ κ π) (turn : Turn κ ε) : x.Happens m turn (x.after m turn) := by
  cases turn with
  | begins call => exact .begins call rfl
  | step i =>
    unfold after
    cases here : m.calls[i]? with
    | none => simpa only [here] using .still
    | some c =>
      obtain ⟨call, place⟩ := c
      cases steps : x.step call place m.state with
      | none => simpa only [here, steps] using .still
      | some r => simpa only [here, steps] using .moves i call place r.1 r.2 rfl here steps
  | around e => exact .around e rfl

lemma happens_play (x : Ensemble σ κ π ε) (state : σ) (schedule : Nat → Turn κ ε) (n : Nat) :
    x.Happens (x.play state schedule n) (schedule n) (x.play state schedule (n + 1)) :=
  x.happens _ _

/-- A call that begins is the last one, and has all of its work before it. -/
lemma play_succ_of_begins (x : Ensemble σ κ π ε) {state : σ} {schedule : Nat → Turn κ ε} {n : Nat} {call : κ}
    (turn : schedule n = .begins call) :
    x.play state schedule (n + 1) = { x.play state schedule n with
      calls := (x.play state schedule n).calls ++ [(call, x.start call)] } := by
  simp only [play, turn, after]

/-- A call that can make a step makes it in its turn. -/
lemma play_succ_of_step (x : Ensemble σ κ π ε) {state : σ} {schedule : Nat → Turn κ ε} {n i : Nat} {call : κ}
    {place place' : π} {state' : σ} (turn : schedule n = .step i)
    (here : (x.play state schedule n).calls[i]? = some (call, place))
    (steps : x.step call place (x.play state schedule n).state = some (place', state')) :
    x.play state schedule (n + 1)
      = { state := state', calls := (x.play state schedule n).calls.set i (call, place') } := by
  simp only [play, turn, after, here, steps]

/-! ## Single calls in a run -/

/-- Where a call is. -/
def Moment.place? (m : Moment σ κ π) (i : Nat) : Option π := m.calls[i]?.map (·.2)

section Single

variable (x : Ensemble σ κ π ε) {state : σ} {schedule : Nat → Turn κ ε} {Q : κ → π → Prop} {i n : Nat} {call : κ}
  {place : π}

/-- A call that is somewhere was there before and could not go on in its turn, or it just began, or it made a step. -/
theorem place_succ_origin (here : (x.play state schedule (n + 1)).calls[i]? = some (call, place)) :
    ((x.play state schedule n).calls[i]? = some (call, place) ∧
        (schedule n = .step i → x.step call place (x.play state schedule n).state = none)) ∨
      place = x.start call ∧ (x.play state schedule n).calls[i]? = none ∨
      ∃ before, schedule n = .step i ∧ (x.play state schedule n).calls[i]? = some (call, before) ∧
        x.step call before (x.play state schedule n).state = some (place, (x.play state schedule (n + 1)).state) := by
  rw [play] at here ⊢
  generalize x.play state schedule n = m at here ⊢
  cases hturn : schedule n with
  | begins new =>
    simp only [hturn, after, List.getElem?_append] at here
    split at here
    · exact .inl ⟨here, nofun⟩
    · next hi =>
      obtain ⟨rfl, rfl⟩ := Prod.mk.inj (List.mem_singleton.mp (List.mem_of_getElem? here))
      exact .inr (.inl ⟨rfl, List.getElem?_eq_none (Nat.le_of_not_lt hi)⟩)
  | step j =>
    rw [hturn, after] at here
    rw [after]
    cases there : m.calls[j]? with
    | none =>
      rw [there] at here
      refine .inl ⟨here, fun hij => ?_⟩
      obtain rfl := Turn.step.inj hij
      cases there.symm.trans here
    | some c =>
      obtain ⟨mover, before⟩ := c
      rw [there] at here
      dsimp only at here ⊢
      cases steps : x.step mover before m.state with
      | none =>
        rw [steps] at here
        refine .inl ⟨here, fun hij => ?_⟩
        obtain rfl := Turn.step.inj hij
        obtain ⟨rfl, rfl⟩ := Prod.mk.inj (Option.some.inj (there.symm.trans here))
        exact steps
      | some r =>
        rw [steps] at here
        by_cases hij : j = i
        · subst hij
          rw [List.getElem?_set_self (List.getElem?_eq_some_iff.mp there).1] at here
          obtain ⟨rfl, rfl⟩ := Prod.mk.inj (Option.some.inj here)
          exact .inr (.inr ⟨before, rfl, there, steps⟩)
        · rw [List.getElem?_set_ne hij] at here
          exact .inl ⟨here, fun h => absurd (Turn.step.inj h) hij⟩
  | around e =>
    rw [hturn] at here
    exact .inl ⟨here, nofun⟩

/-- A call that is somewhere was there before, or it just began, or it made a step. -/
theorem place_succ_cases (here : (x.play state schedule (n + 1)).calls[i]? = some (call, place)) :
    (x.play state schedule n).calls[i]? = some (call, place) ∨
      place = x.start call ∧ (x.play state schedule n).calls[i]? = none ∨
      ∃ before, schedule n = .step i ∧ (x.play state schedule n).calls[i]? = some (call, before) ∧
        x.step call before (x.play state schedule n).state = some (place, (x.play state schedule (n + 1)).state) :=
  (x.place_succ_origin here).imp_left And.left

/-- A call that is somewhere began in an earlier turn. -/
theorem exists_begins_of_place (here : (x.play state schedule n).calls[i]? = some (call, place)) :
    ∃ m < n, schedule m = .begins call := by
  induction n generalizing place with
  | zero => cases here
  | succ n ih =>
    have hearlier : ∀ place, (x.play state schedule n).calls[i]? = some (call, place) →
        ∃ m < n + 1, schedule m = .begins call := fun place h =>
      let ⟨m, hm, hbegins⟩ := ih h
      ⟨m, Nat.lt_succ_of_lt hm, hbegins⟩
    have hturn := x.happens_play state schedule n
    generalize x.play state schedule (n + 1) = later at hturn here
    cases hturn with
    | still => exact hearlier place here
    | begins new begun =>
      rw [List.getElem?_append] at here
      split at here
      · exact hearlier place here
      · obtain ⟨rfl, -⟩ := Prod.mk.inj (List.mem_singleton.mp (List.mem_of_getElem? here))
        exact ⟨n, Nat.lt_succ_self n, begun⟩
    | moves j mover before after next mine there steps =>
      by_cases hij : j = i
      · subst hij
        rw [List.getElem?_set_self (List.getElem?_eq_some_iff.mp there).1] at here
        obtain ⟨rfl, -⟩ := Prod.mk.inj (Option.some.inj here)
        exact hearlier before there
      · rw [List.getElem?_set_ne hij] at here
        exact hearlier place here
    | around e other => exact hearlier place here

/-- What was true of no call at its start became true in one of its steps. -/
theorem exists_step_of_place (hstart : ∀ call, ¬ Q call (x.start call))
    (here : (x.play state schedule n).calls[i]? = some (call, place)) (hQ : Q call place) :
    ∃ m < n, ∃ before after, schedule m = .step i ∧
      (x.play state schedule m).calls[i]? = some (call, before) ∧ ¬ Q call before ∧
      x.step call before (x.play state schedule m).state = some (after, (x.play state schedule (m + 1)).state) ∧
      (x.play state schedule (m + 1)).calls[i]? = some (call, after) ∧ Q call after := by
  induction n generalizing place with
  | zero => cases here
  | succ n ih =>
    have hearlier : ∀ place, (x.play state schedule n).calls[i]? = some (call, place) → Q call place →
        ∃ m < n + 1, _ := fun place h hQ =>
      let ⟨m, hm, rest⟩ := ih h hQ
      ⟨m, Nat.lt_succ_of_lt hm, rest⟩
    rcases x.place_succ_cases here with hstay | ⟨rfl, -⟩ | ⟨before, mine, there, steps⟩
    · exact hearlier place hstay hQ
    · exact absurd hQ (hstart call)
    · by_cases hbefore : Q call before
      · exact hearlier before there hbefore
      · exact ⟨n, Nat.lt_succ_self n, before, place, mine, there, hbefore, steps, here, hQ⟩

/-- What is true of every call at its start, and kept by time and by every step of the call, is true of every call at
every time. -/
theorem of_place_at {I : Nat → κ → π → Prop} (hstart : ∀ n call, I n call (x.start call))
    (hlater : ∀ n call p, I n call p → I (n + 1) call p)
    (hstep : ∀ n p p', I n call p → schedule n = .step i → (x.play state schedule n).calls[i]? = some (call, p) →
      x.step call p (x.play state schedule n).state = some (p', (x.play state schedule (n + 1)).state) →
      I (n + 1) call p')
    (here : (x.play state schedule n).calls[i]? = some (call, place)) : I n call place := by
  induction n generalizing place with
  | zero => cases here
  | succ n ih =>
    rcases x.place_succ_cases here with hstay | ⟨rfl, -⟩ | ⟨before, mine, there, steps⟩
    · exact hlater n call place (ih hstay)
    · exact hstart (n + 1) call
    · exact hstep n before place (ih there) mine there steps

/-- What is true of every call at its start, and kept by every step, is true of every call. -/
theorem of_place (hstart : ∀ call, Q call (x.start call))
    (hstep : ∀ call p s p' s', Q call p → x.step call p s = some (p', s') → Q call p')
    (here : (x.play state schedule n).calls[i]? = some (call, place)) : Q call place := by
  by_contra hQ
  obtain ⟨m, -, before, after, -, -, hbefore, steps, -, hafter⟩ :=
    x.exists_step_of_place (Q := fun call p => ¬ Q call p) (fun call h => h (hstart call)) here hQ
  exact hafter (hstep call before _ after _ (not_not.mp hbefore) steps)

/-- In one turn a call makes a step in its own turn, or it stays where it is. -/
theorem step_or_stay (here : (x.play state schedule n).calls[i]? = some (call, place)) :
    (x.play state schedule (n + 1)).calls[i]? = some (call, place) ∨
      ∃ after, schedule n = .step i ∧
        x.step call place (x.play state schedule n).state = some (after, (x.play state schedule (n + 1)).state) ∧
        (x.play state schedule (n + 1)).calls[i]? = some (call, after) := by
  have hturn := x.happens_play state schedule n
  generalize x.play state schedule (n + 1) = later at hturn
  cases hturn with
  | still => exact .inl here
  | begins new begun => exact .inl ((List.getElem?_append_left (List.getElem?_eq_some_iff.mp here).1).trans here)
  | moves j mover before after next mine there steps =>
    by_cases hij : j = i
    · subst hij
      obtain ⟨rfl, rfl⟩ := Prod.mk.inj (Option.some.inj (there.symm.trans here))
      exact .inr ⟨after, mine, steps, List.getElem?_set_self (List.getElem?_eq_some_iff.mp there).1⟩
    · exact .inl ((List.getElem?_set_ne hij).trans here)
  | around e other => exact .inl here

/-- What every step of a call keeps stays true of it. -/
theorem place_of_le (hstep : ∀ call p s p' s', Q call p → x.step call p s = some (p', s') → Q call p') {m : Nat}
    (hmn : m ≤ n) (here : (x.play state schedule m).calls[i]? = some (call, place)) (hQ : Q call place) :
    ∃ later, (x.play state schedule n).calls[i]? = some (call, later) ∧ Q call later := by
  induction n, hmn using Nat.le_induction with
  | base => exact ⟨place, here, hQ⟩
  | succ n hmn ih =>
    obtain ⟨p, hp, hQp⟩ := ih
    rcases x.step_or_stay hp with hstay | ⟨after, -, steps, hafter⟩
    · exact ⟨p, hstay, hQp⟩
    · exact ⟨after, hafter, hstep _ _ _ _ _ hQp steps⟩

end Single

/-! ## Calls told by their work -/

/-- Calls whose steps are the single accesses of their work, and the ends of its waits. -/
def ofWork (holds : ω → σ → Bool) (work : κ → Task ω σ ρ) (around : ε → σ → σ) : Ensemble σ κ (Task ω σ ρ) ε where
  start := work
  step := fun _ t s => t.tick? holds s
  around := around

/-- The same moment, with calls told by what is left of their work. -/
def Moment.told (work : κ → π → Task ω σ ρ) (m : Moment σ κ π) : Moment σ κ (Task ω σ ρ) where
  state := m.state
  calls := m.calls.map fun c => (c.1, work c.1 c.2)

/-- If the steps from place to place are those of the work that is left at each place, then in every run what is left of
a call is the work of its place. -/
theorem play_followed {x : Ensemble σ κ π ε} {holds : ω → σ → Bool} (work : κ → π → Task ω σ ρ)
    (hstep : ∀ call p s, (work call p).tick? holds s = (x.step call p s).map fun r => (work call r.1, r.2))
    (state : σ) (schedule : Nat → Turn κ ε) (n : Nat) :
    (ofWork holds (fun call => work call (x.start call)) x.around).play state schedule n =
      (x.play state schedule n).told work := by
  induction n with
  | zero => rfl
  | succ n ih =>
    rw [play, ih, play]
    generalize x.play state schedule n = m
    cases schedule n with
    | begins call => simp [after, Moment.told, ofWork]
    | step i =>
      unfold after
      cases here : m.calls[i]? with
      | none => simp [Moment.told, here]
      | some c =>
        obtain ⟨call, place⟩ := c
        cases steps : x.step call place m.state with
        | none => simp [Moment.told, ofWork, here, hstep, steps]
        | some r => simp [Moment.told, ofWork, here, hstep, steps, List.map_set]
    | around e => rfl

end Ensemble

end Switchboard
