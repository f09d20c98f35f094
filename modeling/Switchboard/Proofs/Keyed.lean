import Mathlib

/-!
# Lists in order of a key

Breakpoints, launch configurations, threads and attributes are each kept in a list in order of a key, and each kind is
put into its list by a function of its own.

* `Inserts`: a function puts an element in by its key, in place of one with the same key;
* `Inserts.mem`, `pairwise`, `find?` and so on: what is in the list then, and what is found in it;
* `Inserts.put_put`, `put_comm`: one element put in after another;
* `find?_of_mem`, `eq_of_find?`: in a list in order of a key everything is found under its key, and that makes up the list;
* `find?_modify`, `find?_without`, `lookup_replace`, `lookup_without`: what is found by key when what is under one key has
  changed or is gone.
-/

namespace Switchboard.Keyed

/-! ## What is put in -/

section Order

variable {α κ : Type} [LinearOrder κ] {key : α → κ}

/-- An element is put in by its key, in place of one with the same key. -/
structure Inserts (key : α → κ) (put : α → List α → List α) : Prop where
  nil : ∀ x, put x [] = [x]
  before : ∀ {x y rest}, key x < key y → put x (y :: rest) = x :: y :: rest
  instead : ∀ {x y rest}, key x = key y → put x (y :: rest) = x :: rest
  after : ∀ {x y rest}, key y < key x → put x (y :: rest) = y :: put x rest

namespace Inserts

variable {put : α → List α → List α} {x z : α} {l : List α}

lemma mem (h : Inserts key put) (hz : z ∈ put x l) : z = x ∨ z ∈ l := by
  induction l with
  | nil =>
    rw [h.nil] at hz
    exact .inl (List.mem_singleton.mp hz)
  | cons y rest ih =>
    rcases lt_trichotomy (key x) (key y) with hlt | heq | hgt
    · rw [h.before hlt] at hz
      exact List.mem_cons.mp hz
    · rw [h.instead heq] at hz
      exact (List.mem_cons.mp hz).imp_right (List.mem_cons_of_mem _)
    · rw [h.after hgt] at hz
      rcases List.mem_cons.mp hz with rfl | hz
      · exact .inr List.mem_cons_self
      · exact (ih hz).imp_right (List.mem_cons_of_mem _)

/-- Under a key that is new nothing is lost. -/
lemma mem_iff (h : Inserts key put) (hnew : ∀ y ∈ l, key y ≠ key x) : z ∈ put x l ↔ z = x ∨ z ∈ l := by
  induction l with
  | nil => rw [h.nil, List.mem_singleton, or_iff_left List.not_mem_nil]
  | cons y rest ih =>
    rcases lt_trichotomy (key x) (key y) with hlt | heq | hgt
    · rw [h.before hlt, List.mem_cons]
    · exact absurd heq.symm (hnew y List.mem_cons_self)
    · rw [h.after hgt, List.mem_cons, ih fun z hz => hnew z (List.mem_cons_of_mem _ hz), List.mem_cons]
      exact or_left_comm

/-- The list stays in order. -/
lemma pairwise (h : Inserts key put) (x : α) (hl : l.Pairwise (key · < key ·)) : (put x l).Pairwise (key · < key ·) := by
  induction l with
  | nil =>
    rw [h.nil]
    exact List.pairwise_singleton _ _
  | cons y rest ih =>
    obtain ⟨hfirst, hrest⟩ := List.pairwise_cons.mp hl
    rcases lt_trichotomy (key x) (key y) with hlt | heq | hgt
    · rw [h.before hlt]
      refine List.pairwise_cons.mpr ⟨fun z hz => ?_, hl⟩
      rcases List.mem_cons.mp hz with rfl | hz
      · exact hlt
      · exact lt_trans hlt (hfirst z hz)
    · rw [h.instead heq]
      exact List.pairwise_cons.mpr ⟨fun z hz => heq ▸ hfirst z hz, hrest⟩
    · rw [h.after hgt]
      refine List.pairwise_cons.mpr ⟨fun z hz => ?_, ih hrest⟩
      rcases h.mem hz with rfl | hz
      · exact hgt
      · exact hfirst z hz

/-- It is found under its key, and all else where it was. -/
lemma find? (h : Inserts key put) (x : α) (l : List α) (k : κ) :
    (put x l).find? (key · = k) = if key x = k then some x else l.find? (key · = k) := by
  induction l with
  | nil =>
    rw [h.nil, List.find?_singleton]
    simp only [decide_eq_true_eq, List.find?_nil]
  | cons y rest ih =>
    rcases lt_trichotomy (key x) (key y) with hlt | heq | hgt
    · rw [h.before hlt, List.find?_cons]
      by_cases hx : key x = k <;> simp [hx]
    · rw [h.instead heq, List.find?_cons, List.find?_cons, ← heq]
      by_cases hx : key x = k <;> simp [hx]
    · rw [h.after hgt, List.find?_cons, ih, List.find?_cons]
      by_cases hy : key y = k
      · have hx : ¬ key x = k := fun hx => ne_of_lt hgt (hy.trans hx.symm)
        simp [hy, hx]
      · simp [hy]

/-- It is seen under its key alone. -/
lemma find?_put (h : Inserts key put) (x : α) (l : List α) :
    (fun k => (put x l).find? (key · = k)) = Function.update (fun k => l.find? (key · = k)) (key x) (some x) := by
  funext k
  rw [h.find?, Function.update_apply]
  exact if_congr eq_comm rfl rfl

/-- One that comes after all others is put at the end. -/
lemma last (h : Inserts key put) (hlast : ∀ y ∈ l, key y < key x) : put x l = l ++ [x] := by
  induction l with
  | nil => exact h.nil x
  | cons y rest ih =>
    rw [h.after (hlast y List.mem_cons_self), ih fun z hz => hlast z (List.mem_cons_of_mem _ hz), List.cons_append]

/-- Under a new key it is not there for what does not take it in. -/
lemma filter (h : Inserts key put) (hnew : ∀ y ∈ l, key y ≠ key x) {p : α → Bool} (hp : p x = false) :
    (put x l).filter p = l.filter p := by
  induction l with
  | nil =>
    rw [h.nil, List.filter_cons_of_neg (Bool.eq_false_iff.mp hp)]
  | cons y rest ih =>
    rcases lt_trichotomy (key x) (key y) with hlt | heq | hgt
    · rw [h.before hlt, List.filter_cons_of_neg (Bool.eq_false_iff.mp hp)]
    · exact absurd heq.symm (hnew y List.mem_cons_self)
    · rw [h.after hgt, List.filter_cons, List.filter_cons, ih fun z hz => hnew z (List.mem_cons_of_mem _ hz)]

/-- Of two elements with the same key the later one stays. -/
lemma put_put (h : Inserts key put) {y : α} (hkey : key x = key y) (l : List α) : put x (put y l) = put x l := by
  induction l with
  | nil => rw [h.nil, h.instead hkey, h.nil]
  | cons z rest ih =>
    rcases lt_trichotomy (key y) (key z) with hlt | heq | hgt
    · rw [h.before hlt, h.instead hkey, h.before (hkey ▸ hlt)]
    · rw [h.instead heq, h.instead hkey, h.instead (hkey.trans heq)]
    · rw [h.after hgt, h.after (hkey ▸ hgt), h.after (hkey ▸ hgt), ih]

/-- Elements with different keys are put in in any order. -/
lemma put_comm (h : Inserts key put) {y : α} (hkey : key x ≠ key y) (l : List α) :
    put x (put y l) = put y (put x l) := by
  wlog hxy : key x < key y generalizing x y
  · exact (this hkey.symm (lt_of_le_of_ne (not_lt.mp hxy) hkey.symm)).symm
  induction l with
  | nil => rw [h.nil, h.nil, h.before hxy, h.after hxy, h.nil]
  | cons z rest ih =>
    rcases lt_trichotomy (key y) (key z) with hlt | heq | hgt
    · rw [h.before hlt, h.before hxy, h.before (hxy.trans hlt), h.after hxy, h.before hlt]
    · rw [h.instead heq, h.before hxy, h.before (heq ▸ hxy), h.after hxy, h.instead heq]
    · rw [h.after hgt]
      rcases lt_trichotomy (key x) (key z) with hlt' | heq' | hgt'
      · rw [h.before hlt', h.before hlt', h.after hxy, h.after hgt]
      · rw [h.instead heq', h.instead heq', h.after hxy]
      · rw [h.after hgt', h.after hgt', h.after hgt, ih]

/-- What looks like the element that it replaces leaves the list looking as it did. -/
lemma map_of_find? {β : Type} (h : Inserts key put) {f : α → β} (hl : l.Pairwise (key · < key ·)) {y : α}
    (hy : l.find? (key · = key x) = some y) (hf : f x = f y) : (put x l).map f = l.map f := by
  induction l with
  | nil => cases hy
  | cons z rest ih =>
    obtain ⟨hfirst, hrest⟩ := List.pairwise_cons.mp hl
    have hkey : key y = key x := by simpa using List.find?_some hy
    rcases List.mem_cons.mp (List.mem_of_find?_eq_some hy) with rfl | hmem
    · rw [h.instead hkey.symm, List.map_cons, List.map_cons, hf]
    · have hlt : key z < key x := hkey ▸ hfirst y hmem
      rw [List.find?_cons_of_neg (by simpa using ne_of_lt hlt)] at hy
      rw [h.after hlt, List.map_cons, List.map_cons, ih hrest hy]

end Inserts

/-- In a list in order of a key everything is found under its key. -/
lemma find?_of_mem {l : List α} (hl : l.Pairwise (key · < key ·)) {x : α} (hx : x ∈ l) :
    l.find? (key · = key x) = some x := by
  induction l with
  | nil => cases hx
  | cons y rest ih =>
    obtain ⟨hfirst, hrest⟩ := List.pairwise_cons.mp hl
    rcases List.mem_cons.mp hx with rfl | hx
    · exact List.find?_cons_of_pos (decide_eq_true rfl)
    · rw [List.find?_cons_of_neg (by simpa using ne_of_lt (hfirst x hx))]
      exact ih hrest hx

/-- What comes before everything in the list is not found in it. -/
lemma find?_eq_none_of_lt {l : List α} {k : κ} (hfirst : ∀ x ∈ l, k < key x) : l.find? (key · = k) = none := by
  rw [List.find?_eq_none]
  intro x hx
  simpa using ne_of_gt (hfirst x hx)

/-- Two lists in order in which the same is found are the same. -/
lemma eq_of_find? {l m : List α} (hl : l.Pairwise (key · < key ·)) (hm : m.Pairwise (key · < key ·))
    (h : ∀ k, l.find? (key · = k) = m.find? (key · = k)) : l = m := by
  induction l generalizing m with
  | nil =>
    cases m with
    | nil => rfl
    | cons y rest => simpa using h (key y)
  | cons x rest ih =>
    obtain ⟨hxfirst, hrest⟩ := List.pairwise_cons.mp hl
    cases m with
    | nil => simpa using h (key x)
    | cons y rest' =>
      obtain ⟨hyfirst, hrest'⟩ := List.pairwise_cons.mp hm
      -- the first elements are found in both lists, so neither of them comes before the other
      have hnot : ¬ key x < key y := fun hlt => by
        have hmissing := find?_eq_none_of_lt (l := y :: rest')
          (List.forall_mem_cons.mpr ⟨hlt, fun z hz => hlt.trans (hyfirst z hz)⟩)
        simpa [hmissing] using h (key x)
      have hnot' : ¬ key y < key x := fun hlt => by
        have hmissing := find?_eq_none_of_lt (l := x :: rest)
          (List.forall_mem_cons.mpr ⟨hlt, fun z hz => hlt.trans (hxfirst z hz)⟩)
        simpa [hmissing] using h (key y)
      have hkey : key x = key y := le_antisymm (not_lt.mp hnot') (not_lt.mp hnot)
      have hsame : x = y := by simpa [hkey] using h (key x)
      subst hsame
      refine congrArg (x :: ·) (ih hrest hrest' fun k => ?_)
      by_cases hk : key x = k
      · subst hk
        rw [find?_eq_none_of_lt hxfirst, find?_eq_none_of_lt hyfirst]
      · simpa [hk] using h k

end Order

/-! ## What is found under a key -/

section Finding

variable {α κ : Type} [DecidableEq κ] {key : α → κ} {k : κ}

/-- A change that keeps a key keeps all of them. -/
lemma key_modify {f : α → α} (hf : ∀ x, key x = k → key (f x) = k) (x : α) : key (if key x = k then f x else x) = key x := by
  split
  · next h => exact (hf x h).trans h.symm
  · rfl

/-- It is seen under that key alone. -/
lemma find?_modify (key : α → κ) {f : α → α} (hf : ∀ x, key x = k → key (f x) = k) (l : List α) :
    (fun i => (l.map fun x => if key x = k then f x else x).find? (key · = i)) =
      Function.update (fun i => l.find? (key · = i)) k ((l.find? (key · = k)).map f) := by
  have hkey : ∀ {i x}, l.find? (key · = i) = some x → key x = i := by
    intro i x hx
    simpa using List.find?_some hx
  funext i
  rw [List.find?_map, Function.update_apply]
  simp only [Function.comp_def, key_modify hf]
  by_cases hi : i = k
  · subst hi
    rw [if_pos rfl]
    exact Option.map_congr fun x hx => if_pos (hkey hx)
  · rw [if_neg hi]
    refine (Option.map_congr fun x hx => if_neg ?_).trans Option.map_id'
    exact fun h => hi ((hkey hx).symm.trans h)

/-- What had a key is gone. -/
lemma find?_without (key : α → κ) (l : List α) (k : κ) :
    (fun i => (l.filter (key · ≠ k)).find? (key · = i)) = Function.update (fun i => l.find? (key · = i)) k none := by
  funext i
  rw [List.find?_filter, Function.update_apply]
  by_cases hi : i = k
  · rw [if_pos hi, List.find?_eq_none]
    intro x _
    simp [hi]
  · rw [if_neg hi]
    refine congrArg (List.find? · l) (funext fun x => ?_)
    by_cases hx : key x = i
    · simp [hx, hi]
    · simp [hx]

end Finding

/-! ## Pairs -/

section Pairs

variable {α κ : Type} [DecidableEq κ]

lemma lookup_eq_find? (l : List (κ × α)) (k : κ) : l.lookup k = (l.find? (·.1 = k)).map (·.2) := by
  induction l with
  | nil => rfl
  | cons x rest ih =>
    rw [List.lookup_cons, List.find?_cons, ih]
    by_cases hx : x.1 = k
    · simp [hx]
    · rw [beq_eq_false_iff_ne.mpr (Ne.symm hx)]
      simp [hx]

/-- What is replaced is seen under its key alone. -/
lemma lookup_replace (l : List (κ × α)) (k : κ) (value : α) :
    ((l.map fun x => if x.1 = k then (k, value) else x).lookup ·) =
      Function.update (l.lookup ·) k ((l.lookup k).map fun _ => value) := by
  have hfind : (fun i => (l.map fun x => if x.1 = k then (k, value) else x).find? (·.1 = i)) =
      Function.update (fun i => l.find? (·.1 = i)) k ((l.find? (·.1 = k)).map fun _ => (k, value)) := by
    refine find?_modify Prod.fst ?_ l
    exact fun _ _ => rfl
  funext i
  rw [lookup_eq_find?, congrFun hfind i, Function.update_apply, Function.update_apply, lookup_eq_find?, lookup_eq_find?]
  split
  · rw [Option.map_map, Option.map_map]
    rfl
  · rfl

lemma lookup_without (l : List (κ × α)) (k : κ) :
    ((l.filter (·.1 ≠ k)).lookup ·) = Function.update (l.lookup ·) k none := by
  funext i
  rw [lookup_eq_find?, congrFun (find?_without Prod.fst l k) i, Function.update_apply, Function.update_apply, lookup_eq_find?]
  split
  · rfl
  · rfl

end Pairs

end Switchboard.Keyed
