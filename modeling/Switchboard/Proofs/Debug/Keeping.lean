import Switchboard.Proofs.Debug.Lifecycle
import Switchboard.Proofs.Debug.Proceeding

/-!
# What work leaves alone

* `Target.Succeeds`: a target is the same one as before, on its session, and does not come back to life;
* `World.Keeps`: no target comes or goes or comes back to life, no session comes or becomes the one of its language, and
  no channel opens again;
* `World.Spares`: the same, provided that targets go by different ids;
* `Running.allowed_spares`: every access of work on sessions and targets that are there spares the world.
-/

namespace Switchboard

namespace Debug

/-- What becomes of a target: it stays the same one on its session, and if it has ended it has ended for good. -/
structure Target.Succeeds (t u : Target) : Prop where
  id : u.id = t.id
  session : u.session = t.session
  ended : t.isTerminated = true → u.isTerminated = true

lemma Target.Succeeds.refl (t : Target) : t.Succeeds t := ⟨rfl, rfl, fun h => h⟩

lemma Target.Onward.succeeds {t : Target} {r : Target × List Note} (h : t.Onward r) : t.Succeeds r.1 := by
  refine ⟨h.id, h.session, ?_⟩
  intro ht
  rcases h.state with hstate | hstate
  · rw [isTerminated, hstate]
    exact ht
  · rw [isTerminated, hstate]
    rfl

/-- Targets go by different ids, which were given out before. -/
structure Debugger.Numbered (b : Debugger) : Prop where
  nodup : (b.targets.map (·.id)).Nodup
  given : ∀ t ∈ b.targets, 0 < t.id ∧ t.id < b.nextTarget
  counts : 0 < b.nextTarget

namespace Debugger.Numbered

variable {b : Debugger}

/-- Who goes by the same id is the same. -/
lemma eq_of_id_eq (h : b.Numbered) {t u : Target} (ht : t ∈ b.targets) (hu : u ∈ b.targets) (hid : t.id = u.id) : t = u :=
  List.inj_on_of_nodup_map h.nodup ht hu hid

/-- A target is found by its id. -/
lemma target_eq (h : b.Numbered) {t : Target} (ht : t ∈ b.targets) : b.target t.id = t := by
  unfold Debugger.target Debugger.target?
  cases hfound : b.targets.find? fun x => decide (x.id = t.id) with
  | none =>
    have hnone := List.find?_eq_none.mp hfound t ht
    simp at hnone
  | some u =>
    have hid : u.id = t.id := by simpa using List.find?_some hfound
    exact h.eq_of_id_eq (List.mem_of_find?_eq_some hfound) ht hid

/-- What there is under an id is what is found under it. -/
lemma eq_target (h : b.Numbered) {t : Target} (ht : t ∈ b.targets) {id : Nat} (hid : t.id = (b.target id).id) :
    t = b.target id := by
  unfold Debugger.target at hid ⊢
  cases hfound : b.target? id with
  | none =>
    -- the default id was given to nobody
    rw [hfound] at hid
    have hpos := (h.given t ht).1
    have hzero : t.id = 0 := hid
    omega
  | some u =>
    rw [hfound] at hid
    exact h.eq_of_id_eq ht (List.mem_of_find?_eq_some hfound) hid

lemma of_eq (h : b.Numbered) {b' : Debugger} (htargets : b'.targets = b.targets)
    (hnext : b'.nextTarget = b.nextTarget) : b'.Numbered := by
  refine ⟨?_, ?_, ?_⟩
  · rw [htargets]
    exact h.nodup
  · rw [htargets, hnext]
    exact h.given
  · rw [hnext]
    exact h.counts

/-- A target comes under a new id. -/
lemma addTarget (h : b.Numbered) (launch : Launch) (x : SessionId) : (b.addTarget launch x).2.Numbered := by
  refine ⟨?_, ?_, Nat.succ_pos _⟩
  · -- the new id was given to nobody
    show ((b.targets ++ [_]).map Target.id).Nodup
    rw [List.map_append, List.nodup_append]
    refine ⟨h.nodup, List.nodup_singleton _, ?_⟩
    intro i hi j hj
    obtain ⟨t, ht, rfl⟩ := List.mem_map.mp hi
    obtain rfl := List.mem_singleton.mp hj
    exact Nat.ne_of_lt (h.given t ht).2
  · intro t ht
    show 0 < t.id ∧ t.id < b.nextTarget + 1
    rcases List.mem_append.mp ht with ht | ht
    · have hgiven := h.given t ht
      omega
    · obtain rfl := List.mem_singleton.mp ht
      exact ⟨h.counts, Nat.lt_succ_self b.nextTarget⟩

end Debugger.Numbered

end Debug

namespace World

open Debug

/-- No target comes or goes or comes back to life, no session comes or becomes the one of its language, and no channel
opens again. -/
structure Keeps (w w' : World) : Prop where
  targets : List.Forall₂ Target.Succeeds w.debugger.targets w'.debugger.targets
  nextTarget : w'.debugger.nextTarget = w.debugger.nextTarget
  current : ∀ x ∈ w'.debugger.current, x ∈ w.debugger.current
  sessions : w'.debugger.sessions = w.debugger.sessions
  ages : Network.Ages w.net w'.net

/-- The same, provided that targets go by different ids. -/
def Spares (w w' : World) : Prop := w.debugger.Numbered → Keeps w w'

namespace Keeps

variable {w w' : World}

/-- Nothing of all that is changed. -/
lemma of_eq (htargets : w'.debugger.targets = w.debugger.targets)
    (hnext : w'.debugger.nextTarget = w.debugger.nextTarget) (hcurrent : w'.debugger.current = w.debugger.current)
    (hsessions : w'.debugger.sessions = w.debugger.sessions) (hages : Network.Ages w.net w'.net) : Keeps w w' where
  targets := by
    rw [htargets]
    exact List.forall₂_same.mpr fun t _ => .refl t
  nextTarget := hnext
  current := by
    intro x hx
    rw [hcurrent] at hx
    exact hx
  sessions := hsessions
  ages := hages

lemma refl (w : World) : Keeps w w := .of_eq rfl rfl rfl rfl (.refl w.net)

/-- Whatever there is was there before. -/
lemma exists_before (h : Keeps w w') {u : Target} (hu : u ∈ w'.debugger.targets) :
    ∃ t ∈ w.debugger.targets, t.Succeeds u := by
  obtain ⟨i, hi, rfl⟩ := List.mem_iff_getElem.mp hu
  have hlength := h.targets.length_eq
  exact ⟨w.debugger.targets[i], List.getElem_mem _, h.targets.get (by omega) hi⟩

/-- Targets keep their ids. -/
lemma ids (h : Keeps w w') : w'.debugger.targets.map (·.id) = w.debugger.targets.map (·.id) := by
  have hforall := h.targets
  generalize w.debugger.targets = l, w'.debugger.targets = l' at hforall
  induction hforall with
  | nil => rfl
  | cons htu _ ih =>
    rw [List.map_cons, List.map_cons, htu.id, ih]

lemma numbered (h : Keeps w w') (hnum : w.debugger.Numbered) : w'.debugger.Numbered where
  nodup := by
    rw [h.ids]
    exact hnum.nodup
  given := by
    intro u hu
    obtain ⟨t, ht, hsucceeds⟩ := h.exists_before hu
    rw [hsucceeds.id, h.nextTarget]
    exact hnum.given t ht
  counts := by
    rw [h.nextTarget]
    exact hnum.counts

end Keeps

namespace Spares

variable {w w' : World}

lemma refl (w : World) : Spares w w := fun _ => .refl w

lemma of_eq (htargets : w'.debugger.targets = w.debugger.targets)
    (hnext : w'.debugger.nextTarget = w.debugger.nextTarget) (hcurrent : w'.debugger.current = w.debugger.current)
    (hsessions : w'.debugger.sessions = w.debugger.sessions) (hages : Network.Ages w.net w'.net) : Spares w w' :=
  fun _ => .of_eq htargets hnext hcurrent hsessions hages

/-- The network changes. -/
lemma of_net {n : Network} (hages : Network.Ages w.net n) : Spares w { w with net := n } :=
  .of_eq rfl rfl rfl rfl hages

/-- A target changes. -/
lemma of_change {id : Nat} {f : Target → Target × List Note} (hf : (w.target id).Succeeds (f (w.target id)).1) :
    Spares w (w.changeTarget id f) := by
  intro hnum
  refine ⟨?_, rfl, fun _ hx => hx, rfl, .refl w.net⟩
  show List.Forall₂ _ w.debugger.targets (w.debugger.targets.map _)
  rw [List.forall₂_map_right_iff]
  refine List.forall₂_same.mpr ?_
  intro t ht
  split
  · next hid =>
    have htarget : t = w.target id := hnum.eq_target ht (hid.trans hf.id)
    rw [htarget]
    exact hf
  · exact .refl t

/-- A target goes on. -/
lemma of_onward {id : Nat} {f : Target → Target × List Note} (hf : (w.target id).Onward (f (w.target id))) :
    Spares w (w.changeTarget id f) :=
  .of_change hf.succeeds

end Spares

end World

/-! ## Targets -/

namespace Debug.Target

/-- A call on a target spares the world. -/
lemma Touches.spares {id : Nat} {names : List String} {w w' : World} (h : Touches id names w w') : w.Spares w' := by
  cases h with
  | speech c n said => exact .of_net said.ages
  | deed deed fresh =>
    by_cases hbegins : deed = .begins
    · subst hbegins
      refine .of_change ⟨rfl, rfl, ?_⟩
      intro ht
      simp [isTerminated, fresh rfl] at ht
    · by_cases hlaunches : deed = .launches
      · subst hlaunches
        refine .of_change ?_
        show Succeeds _ (launched _).1
        unfold launched
        split
        · next hlaunching =>
          refine ⟨rfl, rfl, ?_⟩
          intro ht
          simp [isTerminated, hlaunching] at ht
        · exact .refl _
      · exact .of_onward (deed.onward _ hbegins hlaunches)

/-- An event of the adapter spares the world. -/
lemma spares_applyDebugEvent (w : World) (s : SessionId) (e : Channel.Event) : w.Spares (w.applyDebugEvent s e).2 := by
  intro hnum
  cases hlive : w.debugger.liveTarget? s with
  | none =>
    simp only [World.applyDebugEvent, hlive]
    exact .refl w
  | some t =>
    have htarget : w.target t.id = t := hnum.target_eq (List.mem_of_find?_eq_some hlive)
    rw [applyDebugEvent_eq hlive htarget]
    exact World.Spares.of_onward (onward_heard _ e.name e.body) hnum

end Debug.Target

namespace World

lemma spares_relocate (w : World) (path : Path) : w.Spares (w.relocate path) := by
  have hdebugger : (w.debugger.relocate w.disk path).2.targets = w.debugger.targets ∧
      (w.debugger.relocate w.disk path).2.nextTarget = w.debugger.nextTarget ∧
      (w.debugger.relocate w.disk path).2.current = w.debugger.current ∧
      (w.debugger.relocate w.disk path).2.sessions = w.debugger.sessions := by
    unfold Debug.Debugger.relocate
    dsimp only
    split
    · exact ⟨rfl, rfl, rfl, rfl⟩
    · exact ⟨rfl, rfl, rfl, rfl⟩
  obtain ⟨htargets, hnext, hcurrent, hsessions⟩ := hdebugger
  unfold relocate
  dsimp only
  split
  · exact .of_eq htargets hnext hcurrent hsessions (.refl _)
  · exact .of_eq htargets hnext hcurrent hsessions (.refl _)

end World

/-! ## Sessions and targets coming and going -/

namespace Debug.Running

open World (Spares)

lemma spares_forget (w : World) (s : SessionId) : w.Spares { w with debugger := w.debugger.forget s } := by
  intro _
  have hkeeps := World.Keeps.refl w
  exact ⟨hkeeps.targets, rfl, fun x hx => (List.mem_filter.mp hx).1, rfl, hkeeps.ages⟩

lemma spares_clear (w : World) : w.Spares { w with debugger := { w.debugger with current := [] } } := by
  intro _
  have hkeeps := World.Keeps.refl w
  exact ⟨hkeeps.targets, rfl, fun _ hx => absurd hx List.not_mem_nil, rfl, hkeeps.ages⟩

/-- All work on sessions and targets that are there spares the world. -/
theorem allowed_spares : AllowedRuns Spares where
  refl := .refl
  net := fun _ _ h => .of_net h.ages
  relocate := World.spares_relocate
  verify := fun _ _ _ => .of_eq rfl rfl rfl rfl (.refl _)
  touches := fun _ h => h.spares
  ends := fun _ _ => .of_onward (Target.onward_terminate _)
  event := Target.spares_applyDebugEvent
  putOff := fun _ _ _ => .of_eq rfl rfl rfl rfl (.refl _)
  forget := spares_forget
  clear := spares_clear
  launches := fun h => h.spares
  introduces := fun _ _ h => .of_net h.ages

end Debug.Running

end Switchboard
