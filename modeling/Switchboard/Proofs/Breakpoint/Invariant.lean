import Switchboard.Debug.Editing
import Switchboard.Proofs.Keyed
import Mathlib

/-!
# What holds of every breakpoint catalog

* `Sound`: ids are given once and lie below the next one, no two line breakpoints share a line of a file, and
  the slot names the exception breakpoint;
* `Operation`, `perform`, `run`: everything that is done to a catalog;
* `Sound.perform`, `Sound.run`: every operation keeps `Sound`, whatever list was stored;
* `ExceptionSet`: what setting the flags of the exception breakpoint does;
* `catalog_sound_of_run`: all of it for whole runs, with the freshness of the ids that are given out.

Ids are counted with 64 bits. All statements are about runs in which the counter has not wrapped.
-/

namespace Switchboard.Debug

/-! ## Places -/

namespace Breakpoint

lemma isIn_iff {b : Breakpoint} {path : Path} :
    b.isIn path = true ↔ ∃ p, b.path? = some p ∧ p.components = path.components := by
  unfold isIn
  cases h : b.path? with
  | none => simp
  | some p => simp [Path.same]

lemma isAt_iff {b : Breakpoint} {path : Path} {line : Nat} :
    b.isAt path line = true ↔ b.isIn path = true ∧ b.line? = some line := by
  simp [isAt]

/-- Two spellings of a path are the same place. -/
lemma isIn_congr {p q : Path} (h : p.components = q.components) (b : Breakpoint) :
    b.isIn p = b.isIn q := by
  rw [Bool.eq_iff_iff, isIn_iff, isIn_iff, h]

lemma isAt_of_same {p q : Path} {line : Nat} {b : Breakpoint} (h : p.components = q.components)
    (hb : b.isAt p line = true) : b.isAt q line = true := by
  rw [isAt_iff] at hb ⊢
  rwa [← isIn_congr h]

lemma not_isAt_of_isException {b : Breakpoint} (h : b.isException = true) (path : Path) (line : Nat) :
    b.isAt path line = false := by
  unfold isException at h
  cases hk : b.kind with
  | line project p l column anchor => simp [hk] at h
  | exception caught uncaught => simp [isAt, isIn, path?, hk]

/-! ## Edits keep the id and the place -/

/-- The same id, the same kind of breakpoint and the same place. -/
structure SamePlace (a b : Breakpoint) : Prop where
  id : a.id = b.id
  isException : a.isException = b.isException
  path? : a.path? = b.path?
  line? : a.line? = b.line?
  project? : a.project? = b.project?

namespace SamePlace

variable {a b c : Breakpoint}

lemma refl (b : Breakpoint) : SamePlace b b := ⟨rfl, rfl, rfl, rfl, rfl⟩

lemma of_kind (hid : a.id = b.id) (hkind : a.kind = b.kind) : SamePlace a b := by
  refine ⟨hid, ?_, ?_, ?_, ?_⟩
  · rw [Breakpoint.isException, Breakpoint.isException, hkind]
  · rw [Breakpoint.path?, Breakpoint.path?, hkind]
  · rw [Breakpoint.line?, Breakpoint.line?, hkind]
  · rw [Breakpoint.project?, Breakpoint.project?, hkind]

lemma trans (hab : SamePlace a b) (hbc : SamePlace b c) : SamePlace a c where
  id := hab.id.trans hbc.id
  isException := hab.isException.trans hbc.isException
  path? := hab.path?.trans hbc.path?
  line? := hab.line?.trans hbc.line?
  project? := hab.project?.trans hbc.project?

lemma isIn (h : SamePlace a b) (path : Path) : a.isIn path = b.isIn path := by
  simp only [Breakpoint.isIn, h.path?]

lemma isAt (h : SamePlace a b) (path : Path) (line : Nat) : a.isAt path line = b.isAt path line := by
  simp only [Breakpoint.isAt, h.isIn, h.line?]

end SamePlace

lemma ok_of_bind_eq_ok {ε α β : Type} {x : Except ε α} {f : α → Except ε β} {b : β}
    (h : x >>= f = .ok b) : ∃ a, x = .ok a ∧ f a = .ok b := by
  cases x with
  | error e => cases h
  | ok a => exact ⟨a, rfl, h⟩

lemma samePlace_of_apply {b b' : Breakpoint} {p : Property} {value : String}
    (h : b.apply p value = .ok b') : SamePlace b' b := by
  cases p with
  | clear => simp [apply, throw, throwThe, MonadExceptOf.throw] at h
  | condition | hitCondition | logMessage =>
    simp only [apply, pure, Except.pure, Except.ok.injEq] at h
    exact h ▸ .of_kind rfl rfl
  | enabled | conditionEnabled =>
    obtain ⟨on, -, h⟩ := ok_of_bind_eq_ok h
    simp only [pure, Except.pure, Except.ok.injEq] at h
    exact h ▸ .of_kind rfl rfl
  | caught | uncaught =>
    obtain ⟨on, -, h⟩ := ok_of_bind_eq_ok h
    cases hk : b.kind with
    | line project path line column anchor => simp [hk, throw, throwThe, MonadExceptOf.throw] at h
    | exception caught uncaught =>
      simp only [hk, pure, Except.pure, Except.ok.injEq] at h
      subst h
      constructor <;> simp [isException, path?, line?, project?, hk]

/-- What every single edit keeps is kept by all of them. A `clear` ends the edits; what came before it is dropped with the
breakpoint. -/
lemma applyAll_induction {P : Breakpoint → Prop}
    (hstep : ∀ x y p value, P x → x.apply p value = .ok y → P y) {b b' : Breakpoint} {edits : List (String × String)}
    {cleared : Bool} (hb : P b) (h : b.applyAll edits = .ok (b', cleared)) : P b' := by
  induction edits generalizing b with
  | nil =>
    simp only [applyAll, pure, Except.pure, Except.ok.injEq, Prod.mk.injEq] at h
    exact h.1 ▸ hb
  | cons e rest ih =>
    rw [applyAll] at h
    obtain ⟨p, -, h⟩ := ok_of_bind_eq_ok h
    by_cases hp : p = .clear
    · subst hp
      simp only [pure, Except.pure, Except.ok.injEq, Prod.mk.injEq] at h
      exact h.1 ▸ hb
    · have hbind : (b.apply p e.2 >>= fun next => next.applyAll rest) = .ok (b', cleared) := by
        cases p <;> first | exact h | exact absurd rfl hp
      obtain ⟨next, happly, hrest⟩ := ok_of_bind_eq_ok hbind
      exact ih (hstep b next p e.2 hb happly) hrest

lemma samePlace_of_applyAll {b b' : Breakpoint} {edits : List (String × String)} {cleared : Bool}
    (h : b.applyAll edits = .ok (b', cleared)) : SamePlace b' b :=
  applyAll_induction (P := fun x => SamePlace x b) (fun _ _ _ _ hx hy => (samePlace_of_apply hy).trans hx) (.refl b) h

namespace Catalog

/-! ## Lists ordered by id -/

/-- Breakpoints are put in by their ids. -/
lemma inserts : Keyed.Inserts Breakpoint.id insertOrdered where
  nil _ := rfl
  before hlt := if_pos hlt
  instead heq := by rw [insertOrdered, if_neg heq.not_lt, if_pos heq]
  after hgt := by rw [insertOrdered, if_neg (lt_asymm hgt), if_neg hgt.ne']

/-- Entries are in order of their ids, so no id is given twice. -/
def Listed (c : Catalog) : Prop := c.entries.Pairwise (·.id < ·.id)

namespace Listed

variable {c : Catalog}

lemma eq_of_id_eq (h : c.Listed) {a b : Breakpoint} (ha : a ∈ c.entries) (hb : b ∈ c.entries)
    (hid : a.id = b.id) : a = b := by
  have hnodup : (c.entries.map (·.id)).Nodup := List.pairwise_map.mpr (List.Pairwise.imp Nat.ne_of_lt h)
  exact List.inj_on_of_nodup_map hnodup ha hb hid

/-- Every entry is stored under its own id. -/
lemma get?_eq_some_iff (h : c.Listed) {id : Nat} {b : Breakpoint} :
    c.get? id = some b ↔ b ∈ c.entries ∧ b.id = id := by
  constructor
  · intro hb
    exact ⟨List.mem_of_find?_eq_some hb, by simpa using List.find?_some hb⟩
  · rintro ⟨hb, rfl⟩
    cases hget : c.get? b.id with
    | none => simpa using List.find?_eq_none.mp hget b hb
    | some a =>
      have ha := List.mem_of_find?_eq_some hget
      have hid : a.id = b.id := by simpa using List.find?_some hget
      rw [h.eq_of_id_eq ha hb hid]

end Listed

/-! ## The invariant -/

/-- What holds of a catalog whatever was done to it. -/
structure Sound (c : Catalog) : Prop where
  ordered : c.Listed
  /-- The next id is above all that are taken. -/
  below : ∀ b ∈ c.entries, b.id < c.nextId
  /-- On one line of one file there is at most one line breakpoint. -/
  apart : ∀ a ∈ c.entries, ∀ b ∈ c.entries, ∀ path line, a.isAt path line → b.isAt path line → a = b
  /-- The slot names the exception breakpoint, if there is one. -/
  slot : ∀ id, c.exceptionId = some id ↔ ∃ b ∈ c.entries, b.isException ∧ b.id = id

lemma sound_empty : Sound {} where
  ordered := .nil
  below := by simp
  apart := by simp
  slot := by simp

namespace Sound

variable {c : Catalog}

lemma eq_of_id_eq (h : Sound c) {a b : Breakpoint} (ha : a ∈ c.entries) (hb : b ∈ c.entries)
    (hid : a.id = b.id) : a = b :=
  Listed.eq_of_id_eq h.ordered ha hb hid

lemma get?_eq_some_iff (h : Sound c) {id : Nat} {b : Breakpoint} :
    c.get? id = some b ↔ b ∈ c.entries ∧ b.id = id :=
  Listed.get?_eq_some_iff h.ordered

lemma get?_eq_none_iff {id : Nat} : c.get? id = none ↔ ∀ b ∈ c.entries, b.id ≠ id := by
  simp [get?]

lemma findLine?_eq_none_iff {path : Path} {line : Nat} :
    c.findLine? path line = none ↔ ∀ b ∈ c.entries, ¬ b.isAt path line = true := by
  simp [findLine?]

/-- There is at most one exception breakpoint. -/
lemma eq_of_isException (h : Sound c) {a b : Breakpoint} (ha : a ∈ c.entries) (hb : b ∈ c.entries)
    (hea : a.isException = true) (heb : b.isException = true) : a = b := by
  have hida := (h.slot a.id).mpr ⟨a, ha, hea, rfl⟩
  have hidb := (h.slot b.id).mpr ⟨b, hb, heb, rfl⟩
  exact h.eq_of_id_eq ha hb (Option.some.inj (hida.symm.trans hidb))

lemma exception?_eq_some_iff (h : Sound c) {b : Breakpoint} :
    c.exception? = some b ↔ b ∈ c.entries ∧ b.isException = true := by
  constructor
  · intro hb
    obtain ⟨id, hid, hget⟩ := Option.bind_eq_some_iff.mp hb
    obtain ⟨a, ha, hex, haid⟩ := (h.slot id).mp hid
    obtain ⟨hmem, hbid⟩ := h.get?_eq_some_iff.mp hget
    obtain rfl := h.eq_of_id_eq ha hmem (haid.trans hbid.symm)
    exact ⟨ha, hex⟩
  · rintro ⟨hb, hex⟩
    have hid := (h.slot b.id).mpr ⟨b, hb, hex, rfl⟩
    simpa [exception?, hid] using h.get?_eq_some_iff.mpr ⟨hb, rfl⟩

lemma exceptionId_eq_none (h : Sound c) (hnone : c.exception? = none) : c.exceptionId = none := by
  cases hid : c.exceptionId with
  | none => rfl
  | some id =>
    obtain ⟨b, hb, hex, -⟩ := (h.slot id).mp hid
    rw [h.exception?_eq_some_iff.mpr ⟨hb, hex⟩] at hnone
    cases hnone

end Sound

/-! ## New entries -/

/-- A catalog with one more entry. -/
def put (c : Catalog) (b : Breakpoint) (next : Nat) : Catalog where
  nextId := next
  entries := insertOrdered b c.entries
  exceptionId := if b.isException then some b.id else c.exceptionId

lemma Sound.put {c : Catalog} (h : Sound c) {b : Breakpoint} {next : Nat} (hb : b.id < next)
    (hnext : c.nextId ≤ next) (hid : ∀ a ∈ c.entries, a.id ≠ b.id)
    (hplace : ∀ a ∈ c.entries, ∀ path line, a.isAt path line = true → ¬ b.isAt path line = true)
    (hslot : b.isException = true → c.exceptionId = none) : Sound (c.put b next) := by
  have hmem : ∀ x, x ∈ (c.put b next).entries ↔ x = b ∨ x ∈ c.entries := fun x => inserts.mem_iff hid
  refine ⟨inserts.pairwise b h.ordered, fun x hx => ?_, fun x hx y hy path line hxat hyat => ?_,
    fun id => ?_⟩
  · rcases (hmem x).mp hx with rfl | hx
    · exact hb
    · exact Nat.lt_of_lt_of_le (h.below x hx) hnext
  · rcases (hmem x).mp hx with hxb | hxc <;> rcases (hmem y).mp hy with hyb | hyc
    · rw [hxb, hyb]
    · exact absurd (hxb ▸ hxat) (hplace y hyc path line hyat)
    · exact absurd (hyb ▸ hyat) (hplace x hxc path line hxat)
    · exact h.apart x hxc y hyc path line hxat hyat
  · simp only [hmem]
    by_cases hex : b.isException = true
    · have hold : ∀ x ∈ c.entries, ¬ x.isException = true := fun x hx hxe => by
        have := (h.slot x.id).mpr ⟨x, hx, hxe, rfl⟩
        rw [hslot hex] at this
        cases this
      simp only [Catalog.put, hex, if_true, Option.some.injEq]
      constructor
      · rintro rfl
        exact ⟨b, .inl rfl, hex, rfl⟩
      · rintro ⟨x, rfl | hx, hxe, rfl⟩
        · rfl
        · exact absurd hxe (hold x hx)
    · rw [show (c.put b next).exceptionId = c.exceptionId by simp [Catalog.put, hex], h.slot]
      constructor
      · rintro ⟨x, hx, hxe, rfl⟩
        exact ⟨x, .inr hx, hxe, rfl⟩
      · rintro ⟨x, rfl | hx, hxe, rfl⟩
        · exact absurd hxe hex
        · exact ⟨x, hx, hxe, rfl⟩

/-- A line breakpoint on a line that `findLine?` finds free is at no place that is taken. -/
lemma not_isAt_of_findLine?_eq_none {c : Catalog} {b : Breakpoint} {path : Path} {line : Nat}
    (hpath : b.path? = some path) (hline : b.line? = some line) (hfree : c.findLine? path line = none) :
    ∀ a ∈ c.entries, ∀ p l, a.isAt p l = true → ¬ b.isAt p l = true := by
  intro a ha p l haat hbat
  obtain ⟨hin, hl⟩ := isAt_iff.mp hbat
  obtain ⟨q, hq, hsame⟩ := isIn_iff.mp hin
  obtain rfl : path = q := Option.some.inj (hpath.symm.trans hq)
  obtain rfl : line = l := Option.some.inj (hline.symm.trans hl)
  exact Sound.findLine?_eq_none_iff.mp hfree a ha (isAt_of_same hsame.symm haat)

/-! ## Stored breakpoints -/

/-- A stored breakpoint is either dropped, or its id, its place and its slot are free. -/
lemma restore_cases (c : Catalog) (b : Breakpoint) :
    c.restore b = c ∨
      (c.restore b = c.put b (max c.nextId ((b.id + 1) % idLimit)) ∧ (∀ a ∈ c.entries, a.id ≠ b.id) ∧
        (∀ a ∈ c.entries, ∀ p l, a.isAt p l = true → ¬ b.isAt p l = true) ∧
        (b.isException = true → c.exceptionId = none)) := by
  cases hget : c.get? b.id with
  | some a => exact .inl (by simp [restore, hget])
  | none =>
    have hid := Sound.get?_eq_none_iff.mp hget
    cases hk : b.kind with
    | line project path line column anchor =>
      cases hfind : c.findLine? path line with
      | some a => exact .inl (by simp [restore, hk, hfind])
      | none =>
        have hplace := not_isAt_of_findLine?_eq_none (b := b) (by simp [path?, hk]) (by simp [line?, hk]) hfind
        exact .inr ⟨by simp [restore, put, hk, hfind, hget], hid, hplace, by simp [isException, hk]⟩
    | exception caught uncaught =>
      cases hslot : c.exceptionId with
      | some id => exact .inl (by simp [restore, hk, hslot])
      | none =>
        have hplace : ∀ a ∈ c.entries, ∀ p l, a.isAt p l = true → ¬ b.isAt p l = true := fun a _ p l _ => by
          simp [not_isAt_of_isException (b := b) (by simp [isException, hk])]
        exact .inr ⟨by simp [restore, put, hk, hslot, hget], hid, hplace, fun _ => rfl⟩

lemma Sound.restore {c : Catalog} (h : Sound c) {b : Breakpoint} (hb : b.id + 1 < idLimit) :
    Sound (c.restore b) := by
  rcases restore_cases c b with heq | ⟨heq, hid, hplace, hslot⟩
  · rwa [heq]
  · rw [heq, Nat.mod_eq_of_lt hb]
    exact h.put (by omega) (by omega) hid hplace hslot

lemma mem_restore {c : Catalog} {b x : Breakpoint} (hx : x ∈ c.entries) : x ∈ (c.restore b).entries := by
  rcases restore_cases c b with heq | ⟨heq, hid, -, -⟩
  · rwa [heq]
  · rw [heq]
    exact (inserts.mem_iff hid).mpr (.inr hx)

lemma mem_foldl_restore {l : List Breakpoint} {c : Catalog} {x : Breakpoint} (hx : x ∈ c.entries) :
    x ∈ (l.foldl Catalog.restore c).entries := by
  induction l generalizing c with
  | nil => exact hx
  | cons b rest ih => exact ih (mem_restore hx)

lemma Sound.foldl_restore {stored : List Breakpoint} {c : Catalog} (h : Sound c)
    (hlimit : ∀ b ∈ (stored.foldl Catalog.restore c).entries, b.id + 1 < idLimit) :
    Sound (stored.foldl Catalog.restore c) := by
  induction stored generalizing c with
  | nil => exact h
  | cons b rest ih =>
    refine ih ?_ hlimit
    rcases restore_cases c b with heq | ⟨heq, hid, -, -⟩
    · rwa [heq]
    -- what was taken in stays to the end, so its id is below the limit
    · have hmem : b ∈ (c.restore b).entries := heq ▸ (inserts.mem_iff hid).mpr (.inl rfl)
      have hkept : b ∈ (rest.foldl Catalog.restore (c.restore b)).entries := mem_foldl_restore hmem
      exact h.restore (hlimit b hkept)

/-- The catalog of any stored list is sound: what does not fit is dropped. -/
theorem sound_ofList {stored : List Breakpoint} (h : ∀ b ∈ (ofList stored).entries, b.id + 1 < idLimit) :
    Sound (ofList stored) := sound_empty.foldl_restore h

/-! ## Changed entries -/

lemma Sound.modify {c : Catalog} (h : Sound c) {id : Nat} {f : Breakpoint → Breakpoint}
    (hf : ∀ b ∈ c.entries, b.id = id → (f b).id = id ∧ (f b).isException = b.isException)
    (hplace : ∀ b ∈ c.entries, b.id = id → ∀ path line, (f b).isAt path line = true →
      ∀ a ∈ c.entries, a.isAt path line = true → a.id = id) :
    Sound (c.modify id f) := by
  have hid : ∀ b ∈ c.entries, (if b.id = id then f b else b).id = b.id := fun b hb => by
    by_cases hbid : b.id = id
    · rw [if_pos hbid, (hf b hb hbid).1, hbid]
    · rw [if_neg hbid]
  have hex : ∀ b ∈ c.entries, (if b.id = id then f b else b).isException = b.isException := fun b hb => by
    by_cases hbid : b.id = id
    · rw [if_pos hbid, (hf b hb hbid).2]
    · rw [if_neg hbid]
  refine ⟨?_, fun x hx => ?_, fun x hx y hy path line hxat hyat => ?_, fun i => ?_⟩
  · refine List.pairwise_map.mpr (h.ordered.imp_of_mem fun ha hb hlt => ?_)
    rwa [hid _ ha, hid _ hb]
  · obtain ⟨b, hb, rfl⟩ := List.mem_map.mp hx
    exact (hid b hb).symm ▸ h.below b hb
  · obtain ⟨a, ha, rfl⟩ := List.mem_map.mp hx
    obtain ⟨b, hb, rfl⟩ := List.mem_map.mp hy
    suffices a = b by rw [this]
    by_cases haid : a.id = id <;> by_cases hbid : b.id = id
    · exact h.eq_of_id_eq ha hb (haid.trans hbid.symm)
    · rw [if_pos haid] at hxat
      rw [if_neg hbid] at hyat
      exact absurd (hplace a ha haid path line hxat b hb hyat) hbid
    · rw [if_neg haid] at hxat
      rw [if_pos hbid] at hyat
      exact absurd (hplace b hb hbid path line hyat a ha hxat) haid
    · rw [if_neg haid] at hxat
      rw [if_neg hbid] at hyat
      exact h.apart a ha b hb path line hxat hyat
  · refine (h.slot i).trans ⟨?_, ?_⟩
    · rintro ⟨b, hb, hbex, rfl⟩
      exact ⟨_, List.mem_map.mpr ⟨b, hb, rfl⟩, (hex b hb).trans hbex, hid b hb⟩
    · rintro ⟨x, hx, hxex, rfl⟩
      obtain ⟨b, hb, rfl⟩ := List.mem_map.mp hx
      exact ⟨b, hb, (hex b hb).symm.trans hxex, (hid b hb).symm⟩

/-- A change that leaves the place as it is. -/
lemma Sound.modify_of_samePlace {c : Catalog} (h : Sound c) {id : Nat} {f : Breakpoint → Breakpoint}
    (hf : ∀ b ∈ c.entries, b.id = id → SamePlace (f b) b) : Sound (c.modify id f) := by
  refine h.modify (fun b hb hid => ⟨(hf b hb hid).id.trans hid, (hf b hb hid).isException⟩) ?_
  intro b hb hid path line hat a ha haat
  rw [(hf b hb hid).isAt] at hat
  exact h.apart a ha b hb path line haat hat ▸ hid

/-! ## Operations -/

lemma Sound.addLine {c : Catalog} (h : Sound c) (hroom : c.nextId + 1 < idLimit) (project : String)
    (path : Path) (line : Nat) (column : Option Nat) (anchor : Option Text.Anchor) :
    Sound (c.addLine project path line column anchor).2 := by
  cases hfind : c.findLine? path line with
  | some b => simpa [Catalog.addLine, hfind] using h
  | none =>
    let b : Breakpoint := { id := c.nextId, kind := .line project path line column anchor }
    have heq : (c.addLine project path line column anchor).2 = c.put b (c.nextId + 1) := by
      simp [Catalog.addLine, allocate, Catalog.put, hfind, isException, b, Nat.mod_eq_of_lt hroom]
    rw [heq]
    exact h.put (Nat.lt_succ_self _) (Nat.le_succ _) (fun a ha => Nat.ne_of_lt (h.below a ha))
      (not_isAt_of_findLine?_eq_none rfl rfl hfind) (by simp [isException, b])

lemma Sound.setException {c : Catalog} (h : Sound c) (hroom : c.nextId + 1 < idLimit)
    (caught uncaught : Bool) : Sound (c.setException caught uncaught).2 := by
  cases hex : c.exception? with
  | some b =>
    obtain ⟨hb, hbex⟩ := h.exception?_eq_some_iff.mp hex
    have heq : (c.setException caught uncaught).2
        = c.modify b.id fun b => { b with kind := .exception caught uncaught } := by
      simp [Catalog.setException, hex]
    rw [heq]
    refine h.modify (fun a ha haid => ⟨haid, ?_⟩) fun a _ _ path line hat => ?_
    · rw [h.eq_of_id_eq ha hb haid, hbex]
      rfl
    · simp [isAt, isIn, path?] at hat
  | none =>
    let b : Breakpoint := { id := c.nextId, kind := .exception caught uncaught }
    have heq : (c.setException caught uncaught).2 = c.put b (c.nextId + 1) := by
      simp [Catalog.setException, allocate, Catalog.put, hex, isException, b, Nat.mod_eq_of_lt hroom]
    rw [heq]
    refine h.put (Nat.lt_succ_self _) (Nat.le_succ _) (fun a ha => Nat.ne_of_lt (h.below a ha)) ?_
      fun _ => h.exceptionId_eq_none hex
    intro a _ p l _
    simp [not_isAt_of_isException (b := b) rfl]

lemma Sound.remove {c : Catalog} (h : Sound c) (id : Nat) : Sound (c.remove id).2 := by
  cases hget : c.get? id with
  | none => simpa [Catalog.remove, hget] using h
  | some b =>
    simp only [Catalog.remove, hget]
    refine ⟨h.ordered.filter _, fun x hx => h.below x (List.mem_of_mem_filter hx),
      fun x hx y hy => h.apart x (List.mem_of_mem_filter hx) y (List.mem_of_mem_filter hy), fun i => ?_⟩
    have hslot := h.slot i
    by_cases hid : c.exceptionId = some id
    · simp only [hid, if_true, List.mem_filter, decide_eq_true_eq, reduceCtorEq, false_iff, not_exists]
      rintro x ⟨⟨hx, hne⟩, hex, rfl⟩
      have hxid := hslot.mpr ⟨x, hx, hex, rfl⟩
      exact hne (Option.some.inj (hxid.symm.trans hid))
    · simp only [hid, if_false, hslot, List.mem_filter, decide_eq_true_eq]
      constructor
      · rintro ⟨x, hx, hex, rfl⟩
        refine ⟨x, ⟨hx, fun hxid => hid ?_⟩, hex, rfl⟩
        exact hxid ▸ hslot.mpr ⟨x, hx, hex, rfl⟩
      · rintro ⟨x, ⟨hx, -⟩, hex, rfl⟩
        exact ⟨x, hx, hex, rfl⟩

lemma Sound.clear {c : Catalog} : Sound c.clear.2 where
  ordered := .nil
  below := by simp [Catalog.clear]
  apart := by simp [Catalog.clear]
  slot := by simp [Catalog.clear]

lemma Sound.relocate {c : Catalog} (h : Sound c) (id line : Nat) (anchor : Option Text.Anchor) :
    Sound (c.relocate id line anchor).2 := by
  have hmoved : ∀ b ∈ c.entries, b.id = id →
      (moved line anchor b).id = id ∧ (moved line anchor b).isException = b.isException := fun b _ hid => by
    cases hk : b.kind <;> simp [moved, hk, hid, isException]
  cases hget : c.get? id with
  | none => simpa [Catalog.relocate, hget] using h
  | some b =>
    obtain ⟨hb, rfl⟩ := h.get?_eq_some_iff.mp hget
    cases hk : b.kind with
    | exception caught uncaught => simpa [Catalog.relocate, hget, path?, hk] using h
    | line project path old column anchor' =>
      -- the entry lands on `line` of `path` only
      have hland : ∀ a ∈ c.entries, a.id = b.id → ∀ p l, (moved line anchor a).isAt p l = true →
          path.components = p.components ∧ line = l := by
        intro a ha haid p l hat
        obtain rfl := h.eq_of_id_eq ha hb haid
        obtain ⟨hin, hl⟩ := isAt_iff.mp hat
        obtain ⟨q, hq, hsame⟩ := isIn_iff.mp hin
        simp only [moved, hk, path?, line?, Option.some.injEq] at hq hl
        exact ⟨hq ▸ hsame, hl⟩
      cases hfind : c.findLine? path line with
      | none =>
        simp only [Catalog.relocate, hget, Option.bind_some, path?, hk, hfind]
        refine h.modify hmoved fun a ha haid p l hat d hd hdat => ?_
        obtain ⟨hsame, rfl⟩ := hland a ha haid p l hat
        exact absurd (isAt_of_same hsame.symm hdat) (Sound.findLine?_eq_none_iff.mp hfind d hd)
      | some other =>
        by_cases hother : other.id = b.id
        · simp only [Catalog.relocate, hget, Option.bind_some, path?, hk, hfind, hother, ne_eq, not_true,
            if_false]
          refine h.modify hmoved fun a ha haid p l hat d hd hdat => ?_
          obtain ⟨hsame, rfl⟩ := hland a ha haid p l hat
          have hmem := List.mem_of_find?_eq_some hfind
          have hoat := List.find?_some hfind
          rw [h.apart d hd other hmem path line (isAt_of_same hsame.symm hdat) hoat, hother]
        · simpa [Catalog.relocate, hget, path?, hk, hfind, hother] using h

lemma Sound.applyVerification {c : Catalog} (h : Sound c) (ids : List Nat)
    (responses : List BreakpointResponse) : Sound (c.applyVerification ids responses).2 := by
  induction ids generalizing c responses with
  | nil => simpa [Catalog.applyVerification] using h
  | cons id ids ih =>
    cases responses with
    | nil => simpa [Catalog.applyVerification] using h
    | cons r rs =>
      have hrecorded : Sound (c.modify id fun b => { b with verification := some (.ofResponse r) }) :=
        h.modify_of_samePlace fun b _ _ => .of_kind rfl rfl
      rw [Catalog.applyVerification]
      dsimp only
      split
      · split
        · exact ih h rs
        · exact ih hrecorded rs
      · exact ih h rs

/-- What a list of edits makes of a catalog: nothing if one of them is refused. -/
def edited (c : Catalog) (id : Nat) (edits : List (String × String)) : Catalog :=
  match c.get? id with
  | none => c
  | some b =>
    match b.applyAll edits with
    | .error _ => c
    | .ok (_, true) => (c.remove id).2
    | .ok (b, false) => c.modify id fun _ => b

lemma breakpoints_applyEdits (id : Nat) (edits : List (String × String)) (w : World) :
    (Editing.applyEdits id edits w).2.debugger.breakpoints = w.debugger.breakpoints.edited id edits := by
  unfold Editing.applyEdits edited
  dsimp only
  cases hget : w.debugger.breakpoints.get? id with
  | none => rfl
  | some b =>
    dsimp only
    cases happly : b.applyAll edits with
    | error e => rfl
    | ok r =>
      obtain ⟨b', cleared⟩ := r
      cases cleared <;> rfl

lemma Sound.edited {c : Catalog} (h : Sound c) (id : Nat) (edits : List (String × String)) :
    Sound (c.edited id edits) := by
  unfold Catalog.edited
  cases hget : c.get? id with
  | none => exact h
  | some b =>
    obtain ⟨hb, rfl⟩ := h.get?_eq_some_iff.mp hget
    dsimp only
    cases happly : b.applyAll edits with
    | error e => exact h
    | ok r =>
      obtain ⟨b', cleared⟩ := r
      cases cleared with
      | true => exact h.remove b.id
      | false =>
        refine h.modify_of_samePlace fun a ha haid => ?_
        exact h.eq_of_id_eq ha hb haid ▸ samePlace_of_applyAll happly

/-! ## Runs -/

/-- What is done to a catalog. -/
inductive Operation where
  | addLine (project : String) (path : Path) (line : Nat) (column : Option Nat) (anchor : Option Text.Anchor)
  | setException (caught uncaught : Bool)
  | remove (id : Nat)
  | clear
  | relocate (id line : Nat) (anchor : Option Text.Anchor)
  | applyVerification (ids : List Nat) (responses : List BreakpointResponse)
  | edit (id : Nat) (edits : List (String × String))
deriving DecidableEq

/-- The id of the breakpoint that an operation makes, if it makes one, and the catalog after it. -/
def perform (c : Catalog) : Operation → Option Nat × Catalog
  | .addLine project path line column anchor => c.addLine project path line column anchor
  | .setException caught uncaught =>
    let ((id, created), c) := c.setException caught uncaught
    (if created then some id else none, c)
  | .remove id => (none, (c.remove id).2)
  | .clear => (none, c.clear.2)
  | .relocate id line anchor => (none, (c.relocate id line anchor).2)
  | .applyVerification ids responses => (none, (c.applyVerification ids responses).2)
  | .edit id edits => (none, c.edited id edits)

/-- One operation after the other. -/
def run (c : Catalog) (ops : List Operation) : Catalog := ops.foldl (fun c op => (c.perform op).2) c

lemma run_append (c : Catalog) (ops more : List Operation) : c.run (ops ++ more) = (c.run ops).run more :=
  List.foldl_append ..

/-- The counter has not come to its end before any of the operations. -/
def Room : Catalog → List Operation → Prop
  | _, [] => True
  | c, op :: ops => c.nextId + 1 < idLimit ∧ Room (c.perform op).2 ops

instance decidableRoom : (c : Catalog) → (ops : List Operation) → Decidable (c.Room ops)
  | _, [] => inferInstanceAs (Decidable True)
  | c, op :: ops =>
    have := decidableRoom (c.perform op).2 ops
    inferInstanceAs (Decidable (_ ∧ _))

lemma room_append {c : Catalog} {ops more : List Operation} :
    c.Room (ops ++ more) ↔ c.Room ops ∧ (c.run ops).Room more := by
  induction ops generalizing c with
  | nil => simp [Room, Catalog.run]
  | cons op ops ih =>
    rw [List.cons_append, Room, Room, ih, and_assoc]
    rfl

lemma Sound.perform {c : Catalog} (h : Sound c) (hroom : c.nextId + 1 < idLimit) (op : Operation) :
    Sound (c.perform op).2 := by
  cases op with
  | addLine project path line column anchor => exact h.addLine hroom project path line column anchor
  | setException caught uncaught => exact h.setException hroom caught uncaught
  | remove id => exact h.remove id
  | clear => exact .clear
  | relocate id line anchor => exact h.relocate id line anchor
  | applyVerification ids responses => exact h.applyVerification ids responses
  | edit id edits => exact h.edited id edits

/-- What every operation keeps, a run keeps. -/
lemma run_induction {P : Catalog → Prop}
    (hstep : ∀ d op, P d → d.nextId + 1 < idLimit → P (d.perform op).2) {c : Catalog} (hc : P c)
    {ops : List Operation} (hroom : c.Room ops) : P (c.run ops) := by
  induction ops generalizing c with
  | nil => exact hc
  | cons op ops ih => exact ih (hstep c op hc hroom.1) hroom.2

theorem Sound.run {c : Catalog} (h : Sound c) {ops : List Operation} (hroom : c.Room ops) : Sound (c.run ops) :=
  run_induction (fun _ op hd hlt => hd.perform hlt op) h hroom

/-! ## The counter -/

@[simp] lemma nextId_modify (c : Catalog) (id : Nat) (f : Breakpoint → Breakpoint) :
    (c.modify id f).nextId = c.nextId := rfl

@[simp] lemma nextId_remove (c : Catalog) (id : Nat) : (c.remove id).2.nextId = c.nextId := by
  unfold remove
  split <;> rfl

lemma nextId_applyVerification (c : Catalog) (ids : List Nat) (responses : List BreakpointResponse) :
    (c.applyVerification ids responses).2.nextId = c.nextId := by
  induction ids generalizing c responses with
  | nil => simp [applyVerification]
  | cons id ids ih =>
    cases responses with
    | nil => simp [applyVerification]
    | cons r rs =>
      rw [applyVerification]
      dsimp only
      split
      · split
        · exact ih c rs
        · exact (ih _ rs).trans (nextId_modify ..)
      · exact ih c rs

/-- An operation that makes a breakpoint gives it the next id and counts on; any other leaves the counter. -/
lemma nextId_perform (c : Catalog) (op : Operation) :
    ((c.perform op).1 = none ∧ (c.perform op).2.nextId = c.nextId) ∨
      ((c.perform op).1 = some c.nextId ∧ (c.perform op).2.nextId = (c.nextId + 1) % idLimit) := by
  cases op with
  | addLine project path line column anchor =>
    cases hfind : c.findLine? path line with
    | some b => exact .inl (by simp [Catalog.perform, Catalog.addLine, hfind])
    | none => exact .inr (by simp [Catalog.perform, Catalog.addLine, allocate, hfind])
  | setException caught uncaught =>
    cases hex : c.exception? with
    | some b => exact .inl (by simp [Catalog.perform, Catalog.setException, hex])
    | none => exact .inr (by simp [Catalog.perform, Catalog.setException, allocate, hex])
  | remove id => exact .inl ⟨rfl, nextId_remove c id⟩
  | clear => exact .inl ⟨rfl, rfl⟩
  | relocate id line anchor =>
    refine .inl ⟨rfl, ?_⟩
    simp only [Catalog.perform, Catalog.relocate]
    split
    · rfl
    · split
      · split <;> rfl
      · rfl
  | applyVerification ids responses => exact .inl ⟨rfl, nextId_applyVerification c ids responses⟩
  | edit id edits =>
    refine .inl ⟨rfl, ?_⟩
    simp only [Catalog.perform, Catalog.edited]
    split
    · rfl
    · split
      · rfl
      · exact nextId_remove c id
      · rfl

lemma nextId_le_perform {c : Catalog} (hroom : c.nextId + 1 < idLimit) (op : Operation) :
    c.nextId ≤ (c.perform op).2.nextId := by
  rcases nextId_perform c op with ⟨-, h⟩ | ⟨-, h⟩
  · exact Nat.le_of_eq h.symm
  · rw [h, Nat.mod_eq_of_lt hroom]
    exact Nat.le_succ _

lemma nextId_le_run {c : Catalog} {ops : List Operation} (hroom : c.Room ops) : c.nextId ≤ (c.run ops).nextId :=
  run_induction (P := fun d => c.nextId ≤ d.nextId)
    (fun _ op hle hlt => Nat.le_trans hle (nextId_le_perform hlt op)) (Nat.le_refl _) hroom

/-! ## The exception breakpoint -/

lemma Sound.get?_eq_of_mem_iff {c d : Catalog} (hc : Sound c) (hd : Sound d) {id : Nat}
    (h : ∀ b, b.id = id → (b ∈ d.entries ↔ b ∈ c.entries)) : d.get? id = c.get? id := by
  refine Option.ext fun b => ?_
  rw [hd.get?_eq_some_iff, hc.get?_eq_some_iff]
  exact and_congr_left fun hid => h b hid

/-- What setting the flags makes of a catalog: the one exception breakpoint has them, whether it was there
or is made, and nothing else changes. -/
structure ExceptionSet (c : Catalog) (caught uncaught : Bool) (id : Nat) (created : Bool) (d : Catalog) :
    Prop where
  slot : d.exceptionId = some id
  flags : (d.get? id).map (·.kind) = some (.exception caught uncaught)
  only : ∀ b ∈ d.entries, b.isException → b.id = id
  others : ∀ other, other ≠ id → d.get? other = c.get? other
  updated : created = false ↔ c.exceptionId = some id
  made : created = true ↔ c.exceptionId = none

lemma Sound.exceptionSet {c : Catalog} (h : Sound c) (hroom : c.nextId + 1 < idLimit) (caught uncaught : Bool) :
    ExceptionSet c caught uncaught (c.setException caught uncaught).1.1 (c.setException caught uncaught).1.2
      (c.setException caught uncaught).2 := by
  have hd := h.setException hroom caught uncaught
  cases hex : c.exception? with
  | some b =>
    obtain ⟨hb, hbex⟩ := h.exception?_eq_some_iff.mp hex
    have hslot : c.exceptionId = some b.id := (h.slot b.id).mpr ⟨b, hb, hbex, rfl⟩
    have heq : c.setException caught uncaught
        = ((b.id, false), c.modify b.id fun b => { b with kind := .exception caught uncaught }) := by
      simp [Catalog.setException, hex]
    rw [heq] at hd ⊢
    have hmem : { b with kind := .exception caught uncaught }
        ∈ (c.modify b.id fun b => { b with kind := .exception caught uncaught }).entries :=
      List.mem_map.mpr ⟨b, hb, if_pos rfl⟩
    refine ⟨hslot, ?_, fun a ha haex => ?_, fun other hother => ?_, by simp [hslot], by simp [hslot]⟩
    · rw [hd.get?_eq_some_iff.mpr ⟨hmem, rfl⟩]
      rfl
    · have haslot := (hd.slot a.id).mpr ⟨a, ha, haex, rfl⟩
      exact Option.some.inj (haslot.symm.trans hslot)
    · refine h.get?_eq_of_mem_iff hd fun a haid => ?_
      constructor
      · intro ha
        obtain ⟨a', ha', rfl⟩ := List.mem_map.mp ha
        by_cases hid : a'.id = b.id
        · rw [if_pos hid] at haid
          exact absurd (haid.symm.trans hid) hother
        · rwa [if_neg hid]
      · intro ha
        exact List.mem_map.mpr ⟨a, ha, if_neg fun hid => hother (haid.symm.trans hid)⟩
  | none =>
    have hslot := h.exceptionId_eq_none hex
    let b : Breakpoint := { id := c.nextId, kind := .exception caught uncaught }
    have heq : c.setException caught uncaught = ((c.nextId, true), c.put b (c.nextId + 1)) := by
      simp [Catalog.setException, allocate, Catalog.put, hex, isException, b, Nat.mod_eq_of_lt hroom]
    rw [heq] at hd ⊢
    have hmem : ∀ x, x ∈ (c.put b (c.nextId + 1)).entries ↔ x = b ∨ x ∈ c.entries := fun x =>
      inserts.mem_iff fun a ha => Nat.ne_of_lt (h.below a ha)
    refine ⟨rfl, ?_, fun a ha haex => ?_, fun other hother => ?_, by simp [hslot], by simp [hslot]⟩
    · rw [hd.get?_eq_some_iff.mpr ⟨(hmem b).mpr (.inl rfl), rfl⟩]
      rfl
    · have haslot := (hd.slot a.id).mpr ⟨a, ha, haex, rfl⟩
      exact Option.some.inj (haslot.symm.trans rfl)
    · refine h.get?_eq_of_mem_iff hd fun a haid => ?_
      rw [hmem]
      exact or_iff_right fun hab => hother (haid.symm.trans (congrArg Breakpoint.id hab))

/-! ## The invariant of runs -/

/-- Two line breakpoints on one line of one file, however its path is spelled, are the same one. -/
lemma Sound.eq_of_same_line {c : Catalog} (h : Sound c) {a b : Breakpoint} (ha : a ∈ c.entries)
    (hb : b ∈ c.entries) {p q : Path} {line : Nat} (hp : a.path? = some p) (hq : b.path? = some q)
    (hpq : p.components = q.components) (hal : a.line? = some line) (hbl : b.line? = some line) : a = b :=
  h.apart a ha b hb p line (isAt_iff.mpr ⟨isIn_iff.mpr ⟨p, hp, rfl⟩, hal⟩)
    (isAt_iff.mpr ⟨isIn_iff.mpr ⟨q, hq, hpq.symm⟩, hbl⟩)

/-- An id that is given out is above all that were in use at any earlier point of the run. -/
lemma Sound.id_lt_of_perform {c : Catalog} (h : Sound c) {before rest : List Operation}
    (hroom : c.Room (before ++ rest)) {op : Operation} {id : Nat}
    (hid : ((c.run (before ++ rest)).perform op).1 = some id) {b : Breakpoint}
    (hb : b ∈ (c.run before).entries) : b.id < id := by
  obtain ⟨hbefore, hrest⟩ := room_append.mp hroom
  have hlt : b.id < (c.run before).nextId := (h.run hbefore).below b hb
  have hle : (c.run before).nextId ≤ (c.run (before ++ rest)).nextId := by
    rw [run_append]
    exact nextId_le_run hrest
  rcases nextId_perform (c.run (before ++ rest)) op with ⟨hnone, -⟩ | ⟨hsome, -⟩
  · rw [hnone] at hid
    cases hid
  · obtain rfl : (c.run (before ++ rest)).nextId = id := Option.some.inj (hsome.symm.trans hid)
    exact Nat.lt_of_lt_of_le hlt hle

/-- Whatever list was stored and whatever is done to the catalog made of it, as long as the counter of ids has
not come to its end: every entry is stored under its own id, which lies below the next one; no two line
breakpoints share a line of a file, however its path is spelled; there is at most one exception breakpoint, and
the slot names it; setting its flags updates it or makes it, and changes nothing else; and the id of a
breakpoint that is made was never in use before. -/
theorem catalog_sound_of_run (stored : List Breakpoint) (ops : List Operation)
    (hstored : ∀ b ∈ (ofList stored).entries, b.id + 1 < idLimit) (hroom : (ofList stored).Room ops) :
    let c := (ofList stored).run ops
    (∀ id b, c.get? id = some b ↔ b ∈ c.entries ∧ b.id = id) ∧
      (∀ b ∈ c.entries, b.id < c.nextId) ∧
      (∀ a ∈ c.entries, ∀ b ∈ c.entries, ∀ p q line, a.path? = some p → b.path? = some q →
        p.components = q.components → a.line? = some line → b.line? = some line → a = b) ∧
      (∀ a ∈ c.entries, ∀ b ∈ c.entries, a.isException → b.isException → a = b) ∧
      (∀ id, c.exceptionId = some id ↔ ∃ b ∈ c.entries, b.isException ∧ b.id = id) ∧
      (c.nextId + 1 < idLimit → ∀ caught uncaught, ExceptionSet c caught uncaught
        (c.setException caught uncaught).1.1 (c.setException caught uncaught).1.2
        (c.setException caught uncaught).2) ∧
      (∀ op id, (c.perform op).1 = some id → ∀ before, before <+: ops →
        ∀ b ∈ ((ofList stored).run before).entries, b.id ≠ id) := by
  have hstart := sound_ofList hstored
  have hend := hstart.run hroom
  refine ⟨fun id b => hend.get?_eq_some_iff, hend.below, ?_, ?_, hend.slot, ?_, ?_⟩
  · intro a ha b hb p q line hp hq hpq hal hbl
    exact hend.eq_of_same_line ha hb hp hq hpq hal hbl
  · intro a ha b hb hae hbe
    exact hend.eq_of_isException ha hb hae hbe
  · intro hlt caught uncaught
    exact hend.exceptionSet hlt caught uncaught
  · rintro op id hid before ⟨rest, rfl⟩ b hb
    exact Nat.ne_of_lt (hstart.id_lt_of_perform hroom hid hb)

/-- A stored list with one id twice, one line under two spellings of its path and two exception breakpoints. -/
def untidy : List Breakpoint :=
  [{ id := 4, kind := .line "p" ⟨"/a/b.py"⟩ 3 none none },
    { id := 7, kind := .line "p" ⟨"/a/./b.py"⟩ 3 none none },
    { id := 4, kind := .line "p" ⟨"/a/c.py"⟩ 3 none none },
    { id := 5, kind := .exception true false }, { id := 6, kind := .exception false true }]

/-- The entry of line three is moved away, its place is taken, and it is refused the way back. -/
theorem catalog_sound_of_run_untidy :
    let ops := [.relocate 4 9 none, .addLine "p" ⟨"/a//b.py"⟩ 3 none none, .relocate 4 3 none, .remove 5]
    let c := (ofList untidy).run ops
    c.entries.map (fun b => (b.id, b.line?)) = [(4, some 9), (6, some 3)] ∧
      (∀ id, c.exceptionId = some id ↔ ∃ b ∈ c.entries, b.isException ∧ b.id = id) ∧
      (c.perform (.setException true true)).1 = some 7 ∧ ∀ b ∈ (ofList untidy).entries, b.id ≠ 7 := by
  intro ops c
  have h := catalog_sound_of_run untidy ops (by decide +kernel) (by decide +kernel)
  have hnew : (c.perform (.setException true true)).1 = some 7 := by decide +kernel
  exact ⟨by decide +kernel, h.2.2.2.2.1, hnew, h.2.2.2.2.2.2 _ 7 hnew [] List.nil_prefix⟩

end Catalog

end Breakpoint

end Switchboard.Debug
