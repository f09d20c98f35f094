import Switchboard.Debug.Running
import Switchboard.Proofs.Debug.Roster

/-!
# Where an expression can be evaluated

* `Target.outline`, `World.outlines`: what the search for a frame goes by;
* `World.Sorted`: targets and threads are in order of their ids;
* `World.Suits`: a target that runs, and a suspended thread of it, as an editor wants them;
* `World.places`: all of these, in the order in which they are searched (`mem_places_iff`, `pairwise_places`);
* `outlines_keepFrames`: to keep frames does not change where an expression can be evaluated.
-/

namespace Switchboard

open Debug

/-! ## Outlines -/

/-- What the search for a frame goes by. -/
structure Debug.Target.Outline where
  id : Nat
  project : String
  state : Target.State
  /-- The threads, and whether they are suspended. -/
  threads : List (Int × Bool)

namespace Debug.Target

/-- The outline of a target. -/
def outline (t : Target) : Outline where
  id := t.id
  project := t.launch.project
  state := t.state
  threads := t.threads.map fun x => (x.id, x.isSuspended)

lemma suspendedThreads_eq (t : Target) :
    t.suspendedThreads = (t.outline.threads.filter fun x => x.2).map fun x => x.1 := by
  simp only [suspendedThreads, outline, List.filter_map, List.map_map, Function.comp_def]

lemma listed_iff (t : Target) : t.Listed ↔ t.outline.threads.Pairwise (·.1 < ·.1) := by
  simp only [Listed, outline, List.pairwise_map]

/-- Frames that are kept leave the outline of their target as it is. -/
lemma outline_keepFrames {t : Target} (ht : t.Listed) (thread : Int) (stop : Nat) (frames : List Stack.Frame) :
    (t.keepFrames thread stop frames).outline = t.outline := by
  unfold keepFrames
  split
  · next x hx =>
    have hsame : ((x.storeFrames stop frames).2.id, (x.storeFrames stop frames).2.isSuspended) = (x.id, x.isSuspended) := by
      unfold DebugThread.storeFrames
      split <;> rfl
    have hthreads := inserts.map_of_find? (f := fun x : DebugThread => (x.id, x.isSuspended)) ht
      ((congrArg t.thread? (Prod.mk.inj hsame).1).trans ((congrArg t.thread? (id_of_thread? hx)).trans hx)) hsame
    simp only [outline, putThread, hthreads]
  · rfl

end Debug.Target

namespace World

/-- The outlines of the targets, in order. -/
def outlines (w : World) : List Target.Outline := w.debugger.targets.map Target.outline

/-- Targets and threads are in order of their ids. -/
structure Sorted (w : World) : Prop where
  targets : w.debugger.targets.Pairwise (·.id < ·.id)
  threads : ∀ t ∈ w.debugger.targets, t.Listed

variable {w w' : World}

lemma outline_target (w : World) (id : Nat) :
    (w.target id).outline = (w.outlines.find? (·.id = id)).getD (default : Target).outline := by
  unfold target Debugger.target Debugger.target? outlines
  rw [List.find?_map]
  exact (Option.getD_map ..).symm

lemma outline_target_congr (h : w'.outlines = w.outlines) (id : Nat) :
    (w'.target id).outline = (w.target id).outline := by
  rw [outline_target, outline_target, h]

namespace Sorted

lemma congr (hw : w.Sorted) (h : w'.outlines = w.outlines) : w'.Sorted := by
  have hiff : ∀ w : World, w.Sorted ↔
      w.outlines.Pairwise (·.id < ·.id) ∧ ∀ o ∈ w.outlines, o.threads.Pairwise (·.1 < ·.1) := by
    intro w
    simp only [outlines, List.pairwise_map, List.forall_mem_map, ← Target.listed_iff]
    exact ⟨fun h => ⟨h.targets, h.threads⟩, fun h => ⟨h.1, h.2⟩⟩
  exact (hiff w').mpr (h ▸ (hiff w).mp hw)

/-- A target is found by its id. -/
lemma target_eq (hw : w.Sorted) {t : Target} (ht : t ∈ w.debugger.targets) : w.target t.id = t := by
  unfold target Debugger.target Debugger.target?
  rw [Keyed.find?_of_mem hw.targets ht]
  rfl

end Sorted

/-! ## Places -/

/-- A target that runs, in the project if one is given, and a suspended thread of it, the one that is asked for if one is.
-/
def Suits (w : World) (project : Option String) (thread : Option Int) (p : Nat × Int) : Prop :=
  ∃ t ∈ w.debugger.targets, t.id = p.1 ∧ t.state = .running ∧ (∀ name, project = some name → t.launch.project = name) ∧
    ∃ x ∈ t.threads, x.id = p.2 ∧ x.isSuspended = true ∧ ∀ i, thread = some i → p.2 = i

/-- The targets that run, in the project if one is given. -/
def candidates (w : World) (project : Option String) : List Nat :=
  (w.debugger.targets.filter fun t => t.state = .running && project.all (· = t.launch.project)).map (·.id)

/-- The suspended threads of a target, or the one of them that is asked for. -/
def stopped (w : World) (thread : Option Int) (id : Nat) : List Int :=
  (w.target id).suspendedThreads.filter fun i => thread.all (· = i)

/-- Targets and threads in which an expression can be evaluated, in the order in which they are searched. -/
def places (w : World) (project : Option String) (thread : Option Int) : List (Nat × Int) :=
  (w.candidates project).flatMap fun id => (w.stopped thread id).map fun i => (id, i)

/-- Order by targets, and then by threads. -/
def Precedes (p q : Nat × Int) : Prop := p.1 < q.1 ∨ p.1 = q.1 ∧ p.2 < q.2

lemma candidates_congr (h : w'.outlines = w.outlines) (project : Option String) :
    w'.candidates project = w.candidates project := by
  have hcandidates : ∀ w : World, w.candidates project =
      (w.outlines.filter fun o => o.state = .running && project.all (· = o.project)).map (·.id) := by
    intro w
    simp only [outlines, List.filter_map, List.map_map, Function.comp_def]
    rfl
  rw [hcandidates, hcandidates, h]

lemma stopped_congr (h : w'.outlines = w.outlines) (thread : Option Int) (id : Nat) :
    w'.stopped thread id = w.stopped thread id := by
  simp only [stopped, Target.suspendedThreads_eq, outline_target_congr h]

lemma mem_candidates_iff {project : Option String} {id : Nat} : id ∈ w.candidates project ↔
    ∃ t ∈ w.debugger.targets, t.id = id ∧ t.state = .running ∧ ∀ name, project = some name → t.launch.project = name := by
  simp only [candidates, List.mem_map, List.mem_filter, Bool.and_eq_true, decide_eq_true_eq, Option.all_eq_true,
    decide_eq_true_eq]
  constructor
  · rintro ⟨t, ⟨ht, hstate, hproject⟩, rfl⟩
    exact ⟨t, ht, rfl, hstate, fun name hname => (hproject name hname).symm⟩
  · rintro ⟨t, ht, rfl, hstate, hproject⟩
    exact ⟨t, ⟨ht, hstate, fun name hname => (hproject name hname).symm⟩, rfl⟩

lemma mem_stopped_iff {thread : Option Int} {id : Nat} {i : Int} : i ∈ w.stopped thread id ↔
    (∃ x ∈ (w.target id).threads, x.id = i ∧ x.isSuspended = true) ∧ ∀ j, thread = some j → i = j := by
  simp only [stopped, Target.suspendedThreads, List.mem_filter, List.mem_map, Option.all_eq_true, decide_eq_true_eq]
  constructor
  · rintro ⟨⟨x, ⟨hx, hsuspended⟩, hid⟩, hthread⟩
    exact ⟨⟨x, hx, hid, hsuspended⟩, fun j hj => (hthread j hj).symm⟩
  · rintro ⟨⟨x, hx, hid, hsuspended⟩, hthread⟩
    exact ⟨⟨x, ⟨hx, hsuspended⟩, hid⟩, fun j hj => (hthread j hj).symm⟩

section Order

variable (hw : w.Sorted) {project : Option String} {thread : Option Int}

include hw

lemma mem_places_iff {p : Nat × Int} : p ∈ w.places project thread ↔ w.Suits project thread p := by
  obtain ⟨id, i⟩ := p
  simp only [places, List.mem_flatMap, List.mem_map, Prod.mk.injEq]
  constructor
  · rintro ⟨_, hid, _, hi, rfl, rfl⟩
    obtain ⟨t, ht, rfl, hstate, hproject⟩ := mem_candidates_iff.mp hid
    obtain ⟨⟨x, hx, hxi, hsuspended⟩, hthread⟩ := mem_stopped_iff.mp hi
    rw [hw.target_eq ht] at hx
    exact ⟨t, ht, rfl, hstate, hproject, x, hx, hxi, hsuspended, hthread⟩
  · rintro ⟨t, ht, rfl, hstate, hproject, x, hx, hxi, hsuspended, hthread⟩
    refine ⟨t.id, mem_candidates_iff.mpr ⟨t, ht, rfl, hstate, hproject⟩, i, mem_stopped_iff.mpr ?_, rfl, rfl⟩
    rw [hw.target_eq ht]
    exact ⟨⟨x, hx, hxi, hsuspended⟩, hthread⟩

lemma pairwise_places : (w.places project thread).Pairwise Precedes := by
  have hcandidates : (w.candidates project).Pairwise (· < ·) :=
    List.pairwise_map.mpr (hw.targets.filter _)
  have hstopped : ∀ id ∈ w.candidates project, (w.stopped thread id).Pairwise (· < ·) := by
    intro id hid
    obtain ⟨t, ht, rfl, -⟩ := mem_candidates_iff.mp hid
    unfold stopped Target.suspendedThreads
    rw [hw.target_eq ht]
    exact (List.pairwise_map.mpr ((hw.threads t ht).filter _)).filter _
  refine List.pairwise_flatMap.mpr ⟨fun id hid => ?_, hcandidates.imp fun hlt p hp q hq => ?_⟩
  · exact List.pairwise_map.mpr ((hstopped id hid).imp fun hlt => .inr ⟨rfl, hlt⟩)
  · obtain ⟨i, -, rfl⟩ := List.mem_map.mp hp
    obtain ⟨j, -, rfl⟩ := List.mem_map.mp hq
    exact .inl hlt

/-- Such a thread is in a stop. -/
lemma exists_currentStop {id : Nat} {i : Int} (hid : id ∈ w.candidates project) (hi : i ∈ w.stopped thread id) :
    ∃ stop, (w.target id).currentStop i = .ok stop := by
  obtain ⟨t, ht, rfl, -⟩ := mem_candidates_iff.mp hid
  obtain ⟨⟨x, hx, rfl, hsuspended⟩, -⟩ := mem_stopped_iff.mp hi
  rw [hw.target_eq ht] at hx ⊢
  have hfound : t.thread? x.id = some x := Keyed.find?_of_mem (hw.threads t ht) hx
  exact ⟨x.stop, by simp [Target.currentStop, hfound, hsuspended]; rfl⟩

/-- Frames that are kept leave all outlines as they are. -/
lemma outlines_keepFrames {id : Nat} (hid : id ∈ w.candidates project) (i : Int) (stop : Nat) (frames : List Stack.Frame) :
    (w.changeTarget id fun t => (t.keepFrames i stop frames, [])).outlines = w.outlines := by
  obtain ⟨t, ht, rfl, -⟩ := mem_candidates_iff.mp hid
  have hsame := Target.outline_keepFrames (hw.threads t ht) i stop frames
  show (w.debugger.targets.map fun u => if u.id = ((w.target t.id).keepFrames i stop frames).id then
    (w.target t.id).keepFrames i stop frames else u).map Target.outline = _
  rw [List.map_map, hw.target_eq ht]
  refine List.map_congr_left fun u hu => ?_
  simp only [Function.comp, Target.id_keepFrames]
  split
  · next hut =>
    obtain rfl : u = t := by rw [← hw.target_eq hu, hut, hw.target_eq ht]
    exact hsame
  · rfl

end Order

end World

end Switchboard
