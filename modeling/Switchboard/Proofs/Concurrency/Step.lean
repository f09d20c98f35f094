import Switchboard.Concurrency.Task
import Mathlib

/-!
# Steps of composed tasks

* `tick?_andThen`, `tick?_zoom`: how single steps act on tasks in sequence and on a part of a larger state;
* `stretch_andThen`, `stretch_zoom`: the same for the work up to the next wait;
* `stretch_of_tick?`: a stretch is made of single steps.
-/

namespace Switchboard.Task

variable {ω σ τ α β : Type}

/-- A step of a sequence is a step of its first part, unless that is done. -/
lemma tick?_andThen {t : Task ω σ α} (ht : t.result? = none) (holds : ω → σ → Bool) (k : α → Task ω σ β) (s : σ) :
    (t.andThen k).tick? holds s = (t.tick? holds s).map fun (t, s) => (t.andThen k, s) := by
  cases t with
  | done a => cases ht
  | access f next => rfl
  | wait w next =>
    simp only [andThen, tick?]
    split <;> rfl

lemma result?_andThen {t : Task ω σ α} (ht : t.result? = none) (k : α → Task ω σ β) : (t.andThen k).result? = none := by
  cases t with
  | done a => cases ht
  | access f next => rfl
  | wait w next => rfl

lemma zoom_andThen (get : τ → σ) (put : σ → τ → τ) (t : Task ω σ α) (k : α → Task ω σ β) :
    (t.andThen k).zoom get put = (t.zoom get put).andThen fun a => (k a).zoom get put := by
  induction t with
  | done a => rfl
  | access f next ih => simp only [andThen, zoom, ih]
  | wait w next ih => simp only [andThen, zoom, ih]

lemma result?_zoom {get : τ → σ} {put : σ → τ → τ} {t : Task ω σ α} : (t.zoom get put).result? = t.result? := by
  cases t <;> rfl

/-- A step on a part is a step of the whole. -/
lemma tick?_zoom {get : τ → σ} {put : σ → τ → τ} (hput : ∀ t, put (get t) t = t) (holds : ω → σ → Bool)
    (t : Task ω σ α) (s : τ) :
    (t.zoom get put).tick? (fun w s => holds w (get s)) s
      = (t.tick? holds (get s)).map fun (t, p) => (t.zoom get put, put p s) := by
  cases t with
  | done a => rfl
  | access f next => rfl
  | wait w next =>
    simp only [zoom, tick?]
    split
    · simp only [Option.map_some, hput]
    · rfl

/-! ## Work for every element -/

lemma forEach_append {κ : Type} (work : κ → Task ω σ Unit) (l m : List κ) :
    forEach work (l ++ m) = (forEach work l).andThen fun _ => forEach work m := by
  induction l with
  | nil => rfl
  | cons x rest ih => rw [List.cons_append, forEach, forEach, ih, andThen_assoc]

lemma forEach_map {ι κ : Type} (work : κ → Task ω σ Unit) (f : ι → κ) (l : List ι) :
    forEach work (l.map f) = forEach (fun x => work (f x)) l := by
  induction l with
  | nil => rfl
  | cons x rest ih => rw [List.map_cons, forEach, forEach, ih]

/-! ## Stretches -/

lemma stretch_modify_bind (f : σ → σ) (k : Unit → Task ω σ α) (s : σ) :
    (Task.modify f >>= k).stretch s = (k ()).stretch (f s) := rfl

lemma stretch_state_bind (k : σ → Task ω σ α) (s : σ) : (Task.state >>= k).stretch s = (k s).stretch s := rfl

/-- A stretch is a single step and the stretch that follows it. -/
lemma stretch_of_tick? {t t' : Task ω σ α} {holds : ω → σ → Bool} {s s' : σ} (ht : t.waitsOn? = none)
    (h : t.tick? holds s = some (t', s')) : t.stretch s = t'.stretch s' := by
  cases t with
  | done a => cases h
  | access f next =>
    obtain ⟨rfl, rfl⟩ := Prod.mk.inj (Option.some.inj h)
    rfl
  | wait w next => cases ht

/-- Where the first part of a sequence is done the rest goes on. -/
lemma stretch_andThen_of_done {t : Task ω σ α} {a : α} {s s' : σ} (h : t.stretch s = (done a, s'))
    (k : α → Task ω σ β) : (t.andThen k).stretch s = (k a).stretch s' := by
  induction t generalizing s with
  | done b =>
    obtain ⟨hb, rfl⟩ := Prod.mk.inj h
    obtain rfl := done.inj hb
    rfl
  | access f next ih => exact ih s h
  | wait w next ih => cases congrArg Prod.fst h

/-- Where the first part of a sequence waits the rest is left to do. -/
lemma stretch_andThen_of_wait {t : Task ω σ α} {w : ω} {next : Task ω σ α} {s s' : σ}
    (h : t.stretch s = (wait w next, s')) (k : α → Task ω σ β) :
    (t.andThen k).stretch s = (wait w (next.andThen k), s') := by
  induction t generalizing s with
  | done b => cases congrArg Prod.fst h
  | access f next ih => exact ih s h
  | wait v rest ih =>
    obtain ⟨hw, rfl⟩ := Prod.mk.inj h
    obtain ⟨rfl, rfl⟩ := wait.inj hw
    rfl

/-- A stretch on a part is a stretch of the whole. -/
lemma stretch_zoom {get : τ → σ} {put : σ → τ → τ} (hput : ∀ t, put (get t) t = t)
    (hget : ∀ s t, get (put s t) = s) (hputput : ∀ s s' t, put s (put s' t) = put s t) (t : Task ω σ α) (x : τ) :
    (t.zoom get put).stretch x = ((t.stretch (get x)).1.zoom get put, put (t.stretch (get x)).2 x) := by
  induction t generalizing x with
  | done a => simp only [zoom, stretch, hput]
  | access f next ih => simp only [zoom, stretch, ih, hget, hputput]
  | wait w next ih => simp only [zoom, stretch, hput]

end Switchboard.Task
