import Switchboard.Proofs.Breakpoint.Topics

/-!
# Breakpoints on the way to their anchors

* `goal?`: the line to which the anchor of a breakpoint resolves now;
* `Catalog.landed`: what becomes of a breakpoint that is sent there;
* `Awaits`: breakpoints that are yet to be sent, one after the other (`get?_split`, `fst_followAll`);
* `Clear`: goals that are not in each other's way; `Settled`: what has been sent so far is where it should be;
* `relocate_arrives_iff`: when all breakpoints of a file arrive.

Breakpoints are sent in the order of their lines, and none is sent to a line that is taken. One whose goal is the
line of a breakpoint further down is refused, although that line is free in the end.
-/

namespace Switchboard.Debug

namespace Breakpoint

/-! ## Goals -/

/-- The anchor of a line breakpoint. -/
def anchor? (b : Breakpoint) : Option Text.Anchor :=
  match b.kind with
  | .line _ _ _ _ anchor => anchor
  | .exception _ _ => none

/-- The line to which its anchor resolves. -/
def goal? (f : Text.Lines) (drift : Int) (b : Breakpoint) : Option Nat := b.anchor?.bind (currentLine? f drift)

/-- Where a breakpoint should be: at its goal, or where it is if it has none. -/
def due? (f : Text.Lines) (drift : Int) (b : Breakpoint) : Option Nat := b.goal? f drift <|> b.line?

namespace Catalog

/-- A line of a file is taken. -/
def Taken (c : Catalog) (path : Path) (line : Nat) : Prop := ∃ b ∈ c.entries, b.isAt path line = true

lemma taken_iff {c : Catalog} {path : Path} {line : Nat} :
    c.Taken path line ↔ (c.findLine? path line).isSome = true := by
  rw [findLine?, List.find?_isSome]
  rfl

lemma taken_congr {p q : Path} (h : p.components = q.components) (c : Catalog) (line : Nat) :
    c.Taken p line ↔ c.Taken q line :=
  ⟨fun ⟨b, hb, hat⟩ => ⟨b, hb, isAt_of_same h hat⟩, fun ⟨b, hb, hat⟩ => ⟨b, hb, isAt_of_same h.symm hat⟩⟩

/-- What becomes of a breakpoint that is sent to where its anchor is. -/
def landed (f : Text.Lines) (drift : Int) (c : Catalog) (b : Breakpoint) : Breakpoint :=
  match b.kind with
  | .exception _ _ => b
  | .line project path line column none => { b with kind := .line project path line column (anchorIn? f line column) }
  | .line project path _ column (some a) =>
    match currentLine? f drift a with
    | none => b
    | some now => if (c.findLine? path now).isSome then b else { b with kind := .line project path now column (some a) }

section Landed

variable (f : Text.Lines) (drift : Int) (c : Catalog) (b : Breakpoint)

lemma landed_place : (c.landed f drift b).id = b.id ∧ (c.landed f drift b).path? = b.path? := by
  unfold landed
  split
  · exact ⟨rfl, rfl⟩
  · next hk => simp [path?, hk]
  · next hk =>
    split
    · exact ⟨rfl, rfl⟩
    · split
      · exact ⟨rfl, rfl⟩
      · simp [path?, hk]

@[simp] lemma id_landed : (c.landed f drift b).id = b.id := (landed_place f drift c b).1

@[simp] lemma isIn_landed (path : Path) : (c.landed f drift b).isIn path = b.isIn path := by
  rw [isIn, isIn, (landed_place f drift c b).2]

/-- A breakpoint lands on its goal if that is free, and stays where it is otherwise. -/
lemma line?_landed {path : Path} (hin : b.isIn path = true) :
    (∀ n, b.goal? f drift = some n → ¬ c.Taken path n → (c.landed f drift b).line? = some n) ∧
      (∀ n, b.goal? f drift = some n → c.Taken path n → (c.landed f drift b).line? = b.line?) ∧
      (b.goal? f drift = none → (c.landed f drift b).line? = b.line?) := by
  obtain ⟨p, hp, hsame⟩ := isIn_iff.mp hin
  unfold landed
  cases hk : b.kind with
  | exception caught uncaught => simp [path?, hk] at hp
  | line project q line column anchor =>
    obtain rfl : q = p := by simpa [path?, hk] using hp
    cases anchor with
    | none => simp [goal?, anchor?, line?, hk]
    | some a =>
      simp only [goal?, anchor?, hk, Option.bind_some]
      cases hnow : currentLine? f drift a with
      | none => simp
      | some now =>
        simp only [Option.some.injEq, reduceCtorEq, false_implies, and_true]
        constructor
        · rintro n rfl hfree
          rw [← taken_congr hsame, taken_iff] at hfree
          rw [if_neg hfree]
          rfl
        · rintro n rfl htaken
          rw [← taken_congr hsame, taken_iff] at htaken
          rw [if_pos htaken]

/-- A breakpoint that was anchored keeps its goal. -/
lemma goal?_landed {a : Text.Anchor} (ha : b.anchor? = some a) :
    (c.landed f drift b).goal? f drift = b.goal? f drift := by
  unfold landed
  cases hk : b.kind with
  | exception caught uncaught => rfl
  | line project path line column anchor =>
    obtain rfl : anchor = some a := by simpa [anchor?, hk] using ha
    dsimp only
    split
    · rfl
    · split
      · rfl
      · simp [goal?, anchor?, hk]

end Landed

/-! ## One step -/

namespace Sound

variable {c : Catalog} {b : Breakpoint} {f : Text.Lines} {drift : Int}

/-- Only the entry of the id is changed. -/
lemma modify_eq (h : Sound c) (hb : b ∈ c.entries) (g : Breakpoint → Breakpoint) :
    c.modify b.id g = c.modify b.id fun _ => g b := by
  rw [Catalog.modify, Catalog.modify]
  congr 1
  refine List.map_congr_left fun x hx => ?_
  by_cases hid : x.id = b.id
  · rw [if_pos hid, if_pos hid, h.eq_of_id_eq hx hb hid]
  · rw [if_neg hid, if_neg hid]

lemma modify_self (h : Sound c) (hb : b ∈ c.entries) : (c.modify b.id fun _ => b) = c := by
  rw [← h.modify_eq hb fun x => x, Catalog.modify]
  simp

/-- A breakpoint is sent to a line: refused if another one is there. -/
lemma relocate_eq (h : Sound c) (hb : b ∈ c.entries) {path : Path} (hp : b.path? = some path) (line : Nat)
    (anchor : Option Text.Anchor) :
    c.relocate b.id line anchor =
      if ∃ x ∈ c.entries, x.isAt path line = true ∧ x.id ≠ b.id then (false, c)
      else (true, c.modify b.id fun _ => moved line anchor b) := by
  have hget : (c.get? b.id).bind Breakpoint.path? = some path := by
    rw [h.get?_eq_some_iff.mpr ⟨hb, rfl⟩]
    exact hp
  rw [← h.modify_eq hb]
  simp only [Catalog.relocate, hget]
  cases hfind : c.findLine? path line with
  | none =>
    rw [if_neg]
    rintro ⟨x, hx, hat, -⟩
    exact findLine?_eq_none_iff.mp hfind x hx hat
  | some other =>
    have hmem := List.mem_of_find?_eq_some hfind
    have hat : other.isAt path line = true := by simpa using List.find?_some hfind
    by_cases hid : other.id = b.id
    · rw [if_neg]
      · simp [hid]
      · rintro ⟨x, hx, hxat, hne⟩
        exact hne ((h.apart x hx other hmem path line hxat hat).symm ▸ hid)
    · rw [if_pos ⟨other, hmem, hat, hid⟩]
      simp [hid]

/-- On its own line a breakpoint is let in. -/
lemma relocate_own (h : Sound c) (hb : b ∈ c.entries) {path : Path} {line : Nat} (hp : b.path? = some path)
    (hl : b.line? = some line) (anchor : Option Text.Anchor) :
    c.relocate b.id line anchor = (true, c.modify b.id fun _ => moved line anchor b) := by
  have hat : b.isAt path line = true := isAt_iff.mpr ⟨isIn_iff.mpr ⟨path, hp, rfl⟩, hl⟩
  rw [h.relocate_eq hb hp, if_neg]
  rintro ⟨x, hx, hxat, hne⟩
  exact hne (congrArg Breakpoint.id (h.apart x hx b hb path line hxat hat))

/-- To another line it is let if nobody is there. -/
lemma relocate_away (h : Sound c) (hb : b ∈ c.entries) {path : Path} {line now : Nat} (hp : b.path? = some path)
    (hl : b.line? = some line) (hne : now ≠ line) (anchor : Option Text.Anchor) :
    c.relocate b.id now anchor =
      if (c.findLine? path now).isSome then (false, c) else (true, c.modify b.id fun _ => moved now anchor b) := by
  rw [h.relocate_eq hb hp]
  refine if_congr ?_ rfl rfl
  rw [← taken_iff]
  constructor
  · rintro ⟨x, hx, hxat, -⟩
    exact ⟨x, hx, hxat⟩
  · rintro ⟨x, hx, hxat⟩
    refine ⟨x, hx, hxat, fun hid => ?_⟩
    obtain rfl := h.eq_of_id_eq hx hb hid
    exact hne (Option.some.inj ((isAt_iff.mp hxat).2.symm.trans hl))

/-- One breakpoint follows its anchor: it becomes what it lands as, and is given if it is on another line then. -/
lemma follow_eq (h : Sound c) (hb : b ∈ c.entries) :
    c.follow f drift b =
      (if (c.landed f drift b).line? = b.line? then none else some (c.landed f drift b),
        c.modify b.id fun _ => c.landed f drift b) := by
  -- a breakpoint that lands as it is changes nothing
  have hstay : c.landed f drift b = b →
      (none, c) = (if (c.landed f drift b).line? = b.line? then none else some (c.landed f drift b),
        c.modify b.id fun _ => c.landed f drift b) := fun hland => by rw [hland, if_pos rfl, h.modify_self hb]
  unfold Catalog.follow
  cases hk : b.kind with
  | exception caught uncaught => exact hstay (by simp [landed, hk])
  | line project path line column anchor =>
    have hp : b.path? = some path := by simp [path?, hk]
    have hl : b.line? = some line := by simp [line?, hk]
    cases anchor with
    | none =>
      cases hanchor : anchorIn? f line column with
      | none =>
        have hland : c.landed f drift b = b := by
          cases b
          obtain rfl : _ = _ := hk
          simp [landed, hanchor]
        simp only [hanchor]
        exact hstay hland
      | some a =>
        have hland : c.landed f drift b = moved line (some a) b := by simp [landed, hk, hanchor, moved]
        have hsame : (moved line (some a) b).line? = b.line? := by simp [moved, line?, hk]
        simp only [hanchor]
        rw [h.relocate_own hb hp hl, hland, if_pos hsame]
    | some a =>
      cases hnow : currentLine? f drift a with
      | none =>
        simp only [hnow]
        exact hstay (by simp [landed, hk, hnow])
      | some now =>
        simp only [hnow]
        by_cases hsame : now = line
        · have hat : b.isAt path now = true := isAt_iff.mpr ⟨isIn_iff.mpr ⟨path, hp, rfl⟩, hsame ▸ hl⟩
          rw [if_pos hsame]
          exact hstay (by simp [landed, hk, hnow, taken_iff.mp ⟨b, hb, hat⟩])
        · rw [if_neg hsame, h.relocate_away hb hp hl hsame]
          by_cases htaken : (c.findLine? path now).isSome = true
          · rw [if_pos htaken]
            exact hstay (by simp [landed, hk, hnow, htaken])
          · have hland : c.landed f drift b = moved now none b := by simp [landed, hk, hnow, htaken, moved]
            have hsound := h.relocate b.id now none
            rw [h.relocate_away hb hp hl hsame, if_neg htaken] at hsound
            have hget : (c.modify b.id fun _ => moved now none b).get? b.id = some (moved now none b) :=
              hsound.get?_eq_some_iff.mpr ⟨List.mem_map.mpr ⟨b, hb, if_pos rfl⟩, by simp [moved, hk]⟩
            have hother : ¬ (moved now none b).line? = b.line? := by simp [moved, line?, hk, hsame]
            rw [if_neg htaken, hland, if_neg hother]
            simp only [if_true, hget]

lemma follow (h : Sound c) (f : Text.Lines) (drift : Int) (b : Breakpoint) : Sound (c.follow f drift b).2 := by
  unfold Catalog.follow
  split
  · exact h
  · split
    · exact h.relocate ..
    · exact h
  · split
    · exact h
    · split
      · exact h
      · exact h.relocate ..

end Sound

/-! ## One after the other -/

/-- Breakpoints of a catalog that are yet to be sent to their anchors. -/
structure Awaits (c : Catalog) (l : List Breakpoint) : Prop where
  sound : Sound c
  mem : ∀ x ∈ l, x ∈ c.entries
  ids : l.Pairwise (·.id ≠ ·.id)

section Run

variable {f : Text.Lines} {drift : Int} {c : Catalog} {b : Breakpoint} {p l : List Breakpoint}

namespace Awaits

/-- Sending one changes that one only. -/
lemma mem_follow (h : Awaits c (b :: l)) (f : Text.Lines) (drift : Int) {x : Breakpoint} :
    x ∈ (c.follow f drift b).2.entries ↔ x = c.landed f drift b ∨ x ∈ c.entries ∧ x.id ≠ b.id := by
  have hb := h.mem b (List.mem_cons_self ..)
  rw [h.sound.follow_eq hb, Catalog.modify, List.mem_map]
  constructor
  · rintro ⟨y, hy, rfl⟩
    by_cases hid : y.id = b.id
    · exact .inl (if_pos hid)
    · rw [if_neg hid]
      exact .inr ⟨hy, hid⟩
  · rintro (rfl | ⟨hx, hid⟩)
    · exact ⟨b, hb, if_pos rfl⟩
    · exact ⟨x, hx, if_neg hid⟩

lemma next (h : Awaits c (b :: l)) (f : Text.Lines) (drift : Int) : Awaits (c.follow f drift b).2 l where
  sound := h.sound.follow f drift b
  mem x hx := by
    have hid : b.id ≠ x.id := List.rel_of_pairwise_cons h.ids hx
    exact (h.mem_follow f drift).mpr (.inr ⟨h.mem x (List.mem_cons_of_mem _ hx), hid.symm⟩)
  ids := h.ids.of_cons

lemma rest (h : Awaits c (p ++ l)) (f : Text.Lines) (drift : Int) : Awaits (followAll f drift p c).2 l := by
  induction p generalizing c with
  | nil => exact h
  | cons b p ih => exact ih (h.next f drift)

/-- When all were sent the catalog is sound. -/
lemma sound_followAll (h : Awaits c l) (f : Text.Lines) (drift : Int) : Sound (followAll f drift l c).2 :=
  (rest (l := []) ((List.append_nil l).symm ▸ h) f drift).sound

lemma get?_follow (h : Awaits c (b :: l)) (f : Text.Lines) (drift : Int) :
    (c.follow f drift b).2.get? b.id = some (c.landed f drift b) :=
  (h.next f drift).sound.get?_eq_some_iff.mpr ⟨(h.mem_follow f drift).mpr (.inl rfl), id_landed ..⟩

/-- Those of other ids stay as they are. -/
lemma get?_followAll (h : Awaits c l) (f : Text.Lines) (drift : Int) {id : Nat} (hid : ∀ x ∈ l, x.id ≠ id) :
    (followAll f drift l c).2.get? id = c.get? id := by
  induction l generalizing c with
  | nil => rfl
  | cons b l ih =>
    have hb : b.id ≠ id := hid b (List.mem_cons_self ..)
    refine (ih (h.next f drift) fun x hx => hid x (List.mem_cons_of_mem _ hx)).trans ?_
    refine h.sound.get?_eq_of_mem_iff (h.next f drift).sound fun x hx => ?_
    rw [h.mem_follow]
    constructor
    · rintro (rfl | ⟨hmem, -⟩)
      · exact absurd ((id_landed ..).symm.trans hx) hb
      · exact hmem
    · exact fun hmem => .inr ⟨hmem, fun heq => hb (heq.symm.trans hx)⟩

end Awaits

lemma followAll_append : (followAll f drift (p ++ l) c).2 = (followAll f drift l (followAll f drift p c).2).2 := by
  induction p generalizing c with
  | nil => rfl
  | cons b p ih => exact ih

/-- A breakpoint ends as what it lands as when it is its turn. -/
lemma Awaits.get?_split (h : Awaits c (p ++ b :: l)) (f : Text.Lines) (drift : Int) :
    (followAll f drift (p ++ b :: l) c).2.get? b.id = some ((followAll f drift p c).2.landed f drift b) := by
  have hturn := h.rest f drift
  have hlater : ∀ x ∈ l, x.id ≠ b.id := fun x hx => (List.rel_of_pairwise_cons hturn.ids hx).symm
  rw [followAll_append]
  exact ((hturn.next f drift).get?_followAll f drift hlater).trans (hturn.get?_follow f drift)

/-- A breakpoint stays on its line or gets to its goal. -/
lemma Awaits.stays_or_arrives (h : Awaits c l) (f : Text.Lines) (drift : Int) (hb : b ∈ l) {path : Path}
    (hin : b.isIn path = true) :
    ((followAll f drift l c).2.get? b.id).bind line? = b.line? ∨
      b.goal? f drift ≠ none ∧ ((followAll f drift l c).2.get? b.id).bind line? = b.goal? f drift := by
  obtain ⟨p, r, rfl⟩ := List.append_of_mem hb
  rw [h.get?_split f drift, Option.bind_some]
  obtain ⟨hfree, htaken, hnone⟩ := line?_landed f drift (followAll f drift p c).2 b hin
  cases hgoal : b.goal? f drift with
  | none => exact .inl (hnone hgoal)
  | some n =>
    by_cases hoccupied : (followAll f drift p c).2.Taken path n
    · exact .inl (htaken n hgoal hoccupied)
    · exact .inr ⟨by simp, hfree n hgoal hoccupied⟩

/-- The breakpoints that are given are those whose line has changed, as they are then. -/
lemma Awaits.fst_followAll (h : Awaits c l) (f : Text.Lines) (drift : Int) :
    (followAll f drift l c).1 =
      l.filterMap fun x => ((followAll f drift l c).2.get? x.id).filter fun y => decide (y.line? ≠ x.line?) := by
  induction l generalizing c with
  | nil => rfl
  | cons b l ih =>
    -- those that follow have other ids, so in the end the breakpoint is what it has become in its turn
    have hget : (followAll f drift (b :: l) c).2.get? b.id = some (c.landed f drift b) :=
      Awaits.get?_split (p := []) h f drift
    have hgiven : (c.follow f drift b).1 =
        ((followAll f drift (b :: l) c).2.get? b.id).filter fun y => decide (y.line? ≠ b.line?) := by
      rw [h.sound.follow_eq (h.mem b (List.mem_cons_self ..)), hget]
      by_cases hsame : (c.landed f drift b).line? = b.line? <;> simp [Option.filter, hsame]
    have hlist : (followAll f drift (b :: l) c).1 =
        (c.follow f drift b).1.toList ++ (followAll f drift l (c.follow f drift b).2).1 := rfl
    rw [hlist, hgiven, ih (h.next f drift), List.filterMap_cons]
    cases ((followAll f drift (b :: l) c).2.get? b.id).filter fun y => decide (y.line? ≠ b.line?) <;> rfl

/-- Sending a breakpoint moves it, unless its goal is taken. -/
lemma Awaits.fst_follow_eq_none_iff (h : Awaits c (b :: l)) (f : Text.Lines) (drift : Int) {path : Path}
    (hin : b.isIn path = true) :
    (c.follow f drift b).1 = none ↔ ∀ n, b.goal? f drift = some n → c.Taken path n := by
  have hb := h.mem b (List.mem_cons_self ..)
  obtain ⟨hfree, htaken, hnone⟩ := line?_landed f drift c b hin
  have hstay : (c.follow f drift b).1 = none ↔ (c.landed f drift b).line? = b.line? := by
    rw [h.sound.follow_eq hb]
    by_cases hsame : (c.landed f drift b).line? = b.line? <;> simp [hsame]
  rw [hstay]
  constructor
  · intro hsame n hn
    by_contra hopen
    exact hopen ⟨b, hb, isAt_iff.mpr ⟨hin, hsame.symm.trans (hfree n hn hopen)⟩⟩
  · intro hall
    cases hgoal : b.goal? f drift with
    | none => exact hnone hgoal
    | some n => exact htaken n hgoal (hall n hgoal)

/-- If a breakpoint is not moved, the same lines are taken. -/
lemma Awaits.taken_follow (h : Awaits c (b :: l)) (hstay : (c.follow f drift b).1 = none) (path : Path) (n : Nat) :
    (c.follow f drift b).2.Taken path n ↔ c.Taken path n := by
  have hb := h.mem b (List.mem_cons_self ..)
  have hline : (c.landed f drift b).line? = b.line? := by
    rw [h.sound.follow_eq hb] at hstay
    by_contra hne
    rw [if_neg hne] at hstay
    cases hstay
  have hplace : (c.landed f drift b).isAt path n = b.isAt path n := by rw [isAt, isAt, isIn_landed, hline]
  constructor
  · rintro ⟨x, hx, hat⟩
    rcases (h.mem_follow f drift).mp hx with rfl | ⟨hmem, -⟩
    · exact ⟨b, hb, hplace.symm.trans hat⟩
    · exact ⟨x, hmem, hat⟩
  · rintro ⟨x, hx, hat⟩
    by_cases hid : x.id = b.id
    · obtain rfl := h.sound.eq_of_id_eq hx hb hid
      exact ⟨_, (h.mem_follow f drift).mpr (.inl rfl), hplace.trans hat⟩
    · exact ⟨x, (h.mem_follow f drift).mpr (.inr ⟨hx, hid⟩), hat⟩

/-- Nothing is moved if and only if every goal is taken. -/
lemma Awaits.fst_followAll_eq_nil_iff (h : Awaits c l) {path : Path} (hin : ∀ x ∈ l, x.isIn path = true) :
    (followAll f drift l c).1 = [] ↔ ∀ x ∈ l, ∀ n, x.goal? f drift = some n → c.Taken path n := by
  induction l generalizing c with
  | nil => simp [followAll]
  | cons b l ih =>
    have ih := ih (h.next f drift) fun x hx => hin x (List.mem_cons_of_mem _ hx)
    have hlist : (followAll f drift (b :: l) c).1 =
        (c.follow f drift b).1.toList ++ (followAll f drift l (c.follow f drift b).2).1 := rfl
    have hb := h.fst_follow_eq_none_iff f drift (hin b (List.mem_cons_self ..))
    rw [hlist, List.append_eq_nil_iff, Option.toList_eq_nil_iff, ih, List.forall_mem_cons, ← hb]
    refine and_congr_right fun hstay => ?_
    simp only [h.taken_follow hstay]

/-- The breakpoints of a catalog stay in their files under their ids. -/
lemma Awaits.mem_followAll (h : Awaits c l) {x : Breakpoint} (hx : x ∈ (followAll f drift l c).2.entries) :
    ∃ a ∈ c.entries, a.id = x.id ∧ ∀ path, a.isIn path = x.isIn path := by
  induction l generalizing c with
  | nil => exact ⟨x, hx, rfl, fun _ => rfl⟩
  | cons b l ih =>
    obtain ⟨a, ha, hid, hin⟩ := ih (h.next f drift) hx
    rcases (h.mem_follow f drift).mp ha with rfl | ⟨hmem, -⟩
    · rw [id_landed] at hid
      exact ⟨b, h.mem b (List.mem_cons_self ..), hid, fun path => (isIn_landed ..).symm.trans (hin path)⟩
    · exact ⟨a, hmem, hid, hin⟩

end Run

/-! ## Who arrives -/

/-- Goals that are not in each other's way: no two are one line, and none is the line of a breakpoint that has no
goal. -/
structure Clear (f : Text.Lines) (drift : Int) (l : List Breakpoint) : Prop where
  apart : ∀ a ∈ l, ∀ b ∈ l, a.goal? f drift ≠ none → a.goal? f drift = b.goal? f drift → a = b
  free : ∀ a ∈ l, ∀ b ∈ l, a.goal? f drift ≠ none → b.goal? f drift = none → a.goal? f drift ≠ b.line?

section Arrival

variable {f : Text.Lines} {drift : Int} {c : Catalog} {path : Path} {a b : Breakpoint} {p r : List Breakpoint}

lemma line?_of_isIn (h : b.isIn path = true) : ∃ n, b.line? = some n := by
  obtain ⟨q, hq, -⟩ := isIn_iff.mp h
  cases hk : b.kind with
  | line project place line column anchor => exact ⟨line, by simp [line?, hk]⟩
  | exception caught uncaught => simp [path?, hk] at hq

lemma Sound.awaits (h : Sound c) (path : Path) : Awaits c (c.forFile path) where
  sound := h
  mem _ hx := (mem_forFile.mp hx).1
  ids := by
    refine (h.pairwise_forFile path).imp_of_mem fun {x y} hx hy hlt hid => ?_
    obtain ⟨hxc, hxin⟩ := mem_forFile.mp hx
    obtain rfl := h.eq_of_id_eq hxc (mem_forFile.mp hy).1 hid
    obtain ⟨n, hn⟩ := line?_of_isIn hxin
    exact Nat.lt_irrefl n (hlt n n hn hn)

/-- No two breakpoints of a file should be on one line. -/
lemma Clear.eq_of_due? (h : Clear f drift (c.forFile path)) (hs : Sound c) (ha : a ∈ c.forFile path)
    (hb : b ∈ c.forFile path) {n : Nat} (han : a.due? f drift = some n) (hbn : b.due? f drift = some n) : a = b := by
  unfold due? at han hbn
  cases hga : a.goal? f drift <;> cases hgb : b.goal? f drift <;> simp only [hga, hgb, Option.orElse_eq_orElse,
    Option.orElse_eq_or, Option.none_or, Option.some_or, Option.some.injEq] at han hbn
  case none.none =>
    obtain ⟨hac, hain⟩ := mem_forFile.mp ha
    obtain ⟨hbc, hbin⟩ := mem_forFile.mp hb
    exact hs.apart a hac b hbc path n (isAt_iff.mpr ⟨hain, han⟩) (isAt_iff.mpr ⟨hbin, hbn⟩)
  case none.some m =>
    exact absurd (hgb.trans ((congrArg some hbn).trans han.symm)) (h.free b hb a ha (by simp [hgb]) hga)
  case some.none m =>
    exact absurd (hga.trans ((congrArg some han).trans hbn.symm)) (h.free a ha b hb (by simp [hga]) hgb)
  case some.some m k =>
    exact h.apart a ha b hb (by simp [hga]) (by rw [hga, hgb, han, hbn])

/-- The breakpoints of a file that were sent are where they should be; the others are as they were. -/
def Settled (f : Text.Lines) (drift : Int) (path : Path) (p r : List Breakpoint) (c : Catalog) : Prop :=
  ∀ y ∈ c.entries, y.isIn path = true → y ∈ r ∨ ∃ x ∈ p, y.id = x.id ∧ y.line? = x.due? f drift

/-- One more is where it should be, if its goal is not the line of a later one. -/
lemma Settled.landed_due {d : Catalog} (hd : Settled f drift path p (b :: r) d) (hs : Sound c)
    (hall : c.forFile path = p ++ b :: r) (hclear : Clear f drift (c.forFile path))
    (hlater : ∀ x ∈ r, b.goal? f drift ≠ x.line?) : (d.landed f drift b).line? = b.due? f drift := by
  have hb : b ∈ c.forFile path := by simp [hall]
  obtain ⟨hfree, htaken, hnone⟩ := line?_landed f drift d b (mem_forFile.mp hb).2
  cases hgoal : b.goal? f drift with
  | none => simpa [due?, hgoal] using hnone hgoal
  | some n =>
    have hdue : b.due? f drift = some n := by simp [due?, hgoal]
    rw [hdue]
    by_cases hoccupied : d.Taken path n
    · rw [htaken n hgoal hoccupied]
      -- the one on its line can only be itself
      obtain ⟨y, hy, hat⟩ := hoccupied
      obtain ⟨hin, hline⟩ := isAt_iff.mp hat
      rcases hd y hy hin with hmem | ⟨x, hx, -, hxline⟩
      · rcases List.mem_cons.mp hmem with rfl | hmem
        · exact hline
        · exact absurd (hgoal.trans hline.symm) (hlater y hmem)
      · have hxdue : x.due? f drift = some n := hxline.symm.trans hline
        obtain rfl := hclear.eq_of_due? hs (by simp [hall, hx]) hb hxdue hdue
        have hids := (hs.awaits path).ids
        rw [hall] at hids
        exact absurd rfl ((List.pairwise_append.mp hids).2.2 x hx x (List.mem_cons_self ..))
    · exact hfree n hgoal hoccupied

/-- As long as no goal is the line of a later breakpoint, each one that is sent gets where it should be. -/
lemma Sound.settled (hs : Sound c) (hclear : Clear f drift (c.forFile path))
    (horder : (c.forFile path).Pairwise fun a x => a.goal? f drift ≠ x.line?) (hall : c.forFile path = p ++ r) :
    Settled f drift path p r (followAll f drift p c).2 := by
  -- by induction on how many were sent; the list that is left shrinks as the other one grows
  induction p using List.reverseRecOn generalizing r with
  | nil =>
    intro y hy hin
    have hmem : y ∈ c.forFile path := mem_forFile.mpr ⟨hy, hin⟩
    rw [hall] at hmem
    exact .inl hmem
  | append_singleton p b ih =>
    rw [List.append_assoc, List.singleton_append] at hall
    have hturn : Awaits (followAll f drift p c).2 (b :: r) := by
      have hawaits := hs.awaits path
      rw [hall] at hawaits
      exact hawaits.rest f drift
    have hlater : ∀ x ∈ r, b.goal? f drift ≠ x.line? := by
      rw [hall] at horder
      exact fun x hx => List.rel_of_pairwise_cons (List.pairwise_append.mp horder).2.1 hx
    intro y hy hin
    rw [followAll_append] at hy
    rcases (hturn.mem_follow f drift).mp hy with rfl | ⟨hmem, hid⟩
    · exact .inr ⟨b, by simp, id_landed .., (ih hall).landed_due hs hall hclear hlater⟩
    · rcases ih hall y hmem hin with hy | ⟨x, hx, hxy⟩
      · rcases List.mem_cons.mp hy with rfl | hy
        · exact absurd rfl hid
        · exact .inl hy
      · exact .inr ⟨x, by simp [hx], hxy⟩

/-- One whose goal is the line of a later breakpoint stays on its line, which is another one. -/
lemma Sound.blocked (hs : Sound c) (hall : c.forFile path = p ++ a :: r) (hb : b ∈ r)
    (hgoal : a.goal? f drift = b.line?) :
    ((followAll f drift p c).2.landed f drift a).line? = a.line? ∧ a.line? ≠ b.line? := by
  have hawaits := hs.awaits path
  rw [hall] at hawaits
  have hturn := hawaits.rest f drift
  obtain ⟨hac, hain⟩ := mem_forFile.mp (show a ∈ c.forFile path by simp [hall])
  obtain ⟨hbc, hbin⟩ := mem_forFile.mp (show b ∈ c.forFile path by simp [hall, hb])
  obtain ⟨n, hn⟩ := line?_of_isIn hbin
  have hbat : b.isAt path n = true := isAt_iff.mpr ⟨hbin, hn⟩
  constructor
  · -- the later one is still where it was
    have htaken : (followAll f drift p c).2.Taken path n := ⟨b, hturn.mem b (List.mem_cons_of_mem _ hb), hbat⟩
    exact (line?_landed f drift _ a hain).2.1 n (hgoal.trans hn) htaken
  · intro hsame
    have heq := hs.apart a hac b hbc path n (isAt_iff.mpr ⟨hain, hsame.trans hn⟩) hbat
    exact List.rel_of_pairwise_cons hturn.ids hb (congrArg Breakpoint.id heq)

/-- All breakpoints of a file get to their goals if and only if none of these is the line of a later breakpoint. -/
lemma Sound.arrive_iff (hs : Sound c) (hclear : Clear f drift (c.forFile path)) :
    (∀ x ∈ c.forFile path, x.goal? f drift ≠ none →
        ((followAll f drift (c.forFile path) c).2.get? x.id).bind line? = x.goal? f drift) ↔
      (c.forFile path).Pairwise fun a x => a.goal? f drift ≠ x.line? := by
  have hsplit : ∀ p b r, c.forFile path = p ++ b :: r →
      ((followAll f drift (c.forFile path) c).2.get? b.id).bind line? =
        ((followAll f drift p c).2.landed f drift b).line? := by
    intro p b r hall
    have hawaits := hs.awaits path
    rw [hall] at hawaits ⊢
    rw [hawaits.get?_split f drift, Option.bind_some]
  constructor
  · intro harrive
    refine List.pairwise_iff_forall_sublist.mpr fun {a x} hsub hgoal => ?_
    -- two breakpoints in the order of the list: the second one is yet to be sent when the first one is
    obtain ⟨s, t, hst, has, hxt⟩ := List.cons_sublist_iff.mp hsub
    obtain ⟨p, q, rfl⟩ := List.append_of_mem has
    have hall : c.forFile path = p ++ a :: (q ++ t) := by simp [hst]
    have hx : x ∈ q ++ t := by simp [List.singleton_sublist.mp hxt]
    obtain ⟨hstay, hother⟩ := hs.blocked hall hx hgoal
    have hxall : x ∈ c.forFile path := by simp [hall, List.mem_append.mp hx]
    obtain ⟨n, hn⟩ := line?_of_isIn (mem_forFile.mp hxall).2
    have harrived := harrive a (by simp [hall]) (by simp [hgoal, hn])
    rw [hsplit p a _ hall, hstay] at harrived
    exact hother (harrived.trans hgoal)
  · intro horder x hx hgoal
    obtain ⟨p, r, hall⟩ := List.append_of_mem hx
    have hlater : ∀ y ∈ r, x.goal? f drift ≠ y.line? := by
      rw [hall] at horder
      exact fun y hy => List.rel_of_pairwise_cons (List.pairwise_append.mp horder).2.1 hy
    rw [hsplit p x r hall, (hs.settled hclear horder hall).landed_due hs hall hclear hlater]
    obtain ⟨n, hn⟩ := Option.ne_none_iff_exists'.mp hgoal
    simp [due?, hn]

/-- After all have got to their goals, a goal that is free can only be that of a breakpoint that was anchored just
then. -/
lemma Sound.taken_of_arrived (hs : Sound c)
    (harrive : ∀ x ∈ c.forFile path, x.goal? f drift ≠ none →
      ((followAll f drift (c.forFile path) c).2.get? x.id).bind line? = x.goal? f drift)
    {y : Breakpoint} (hy : y ∈ (followAll f drift (c.forFile path) c).2.forFile path) {n : Nat}
    (hn : y.goal? f drift = some n) :
    (followAll f drift (c.forFile path) c).2.Taken path n ∨ ∃ x ∈ c.forFile path, x.id = y.id ∧ x.anchor? = none := by
  have hawaits := hs.awaits path
  have hsound := hawaits.sound_followAll f drift
  obtain ⟨hyd, hyin⟩ := mem_forFile.mp hy
  obtain ⟨x, hxc, hid, hin⟩ := hawaits.mem_followAll hyd
  have hx : x ∈ c.forFile path := mem_forFile.mpr ⟨hxc, (hin path).trans hyin⟩
  have hget : (followAll f drift (c.forFile path) c).2.get? x.id = some y :=
    hsound.get?_eq_some_iff.mpr ⟨hyd, hid.symm⟩
  cases hanchor : x.anchor? with
  | none => exact .inr ⟨x, hx, hid, hanchor⟩
  | some a =>
    -- one that was anchored before has kept its goal, and is there
    obtain ⟨p, r, hall⟩ := List.append_of_mem hx
    have hland : y = (followAll f drift p c).2.landed f drift x := by
      rw [hall] at hawaits hget
      exact Option.some.inj (hget.symm.trans (hawaits.get?_split f drift))
    have hgoal : x.goal? f drift = some n := by rw [← hn, hland, goal?_landed f drift _ x hanchor]
    have hline := harrive x hx (by simp [hgoal])
    rw [hget, Option.bind_some, hgoal] at hline
    exact .inl ⟨y, hyd, isAt_iff.mpr ⟨hyin, hline⟩⟩

end Arrival

end Catalog

end Breakpoint

/-! ## Relocation -/

open Breakpoint.Catalog (ofList idLimit Clear)

namespace Debugger

/-- The file that shows where the anchors in a file are: the one of the project of its first breakpoint. -/
def shown? (b : Debugger) (d : Disk) (path : Path) : Option Text.Lines :=
  ((b.breakpoints.forFile path).head?.bind Breakpoint.project?).bind fun project => b.linesOf? d project path

lemma relocate_eq {b : Debugger} {d : Disk} {path : Path} {f : Text.Lines} (h : b.shown? d path = some f) :
    let sent := Breakpoint.Catalog.followAll f (b.driftOf path) (b.breakpoints.forFile path) b.breakpoints
    b.relocate d path = (sent.1, { b with breakpoints := sent.2 }) := by
  intro sent
  unfold shown? at h
  unfold relocate
  dsimp only
  rw [h]

/-- The breakpoints of a file are sent to their goals, which are not in each other's way. Those that are given are
those whose line has changed. Each stays on its line or gets to its goal, and breakpoints of other files are as they
were. All get to their goals if and only if none of these is the line of a breakpoint further down. Sending them again
moves nothing exactly if every goal is taken by then; when all have got to their goals, a goal that is free can only be
that of a breakpoint that was anchored just then. -/
theorem relocate_arrives_iff (b : Debugger) (disk : Disk) (path : Path) (f : Text.Lines) (stored : List Breakpoint)
    (ops : List Breakpoint.Catalog.Operation) (hstored : ∀ x ∈ (ofList stored).entries, x.id + 1 < idLimit)
    (hroom : (ofList stored).Room ops) (hcatalog : b.breakpoints = (ofList stored).run ops)
    (hshown : b.shown? disk path = some f) (hclear : Clear f (b.driftOf path) (b.breakpoints.forFile path)) :
    let all := b.breakpoints.forFile path
    let goal := Breakpoint.goal? f (b.driftOf path)
    let after := (b.relocate disk path).2
    let lineOf := fun x : Breakpoint => (after.breakpoints.get? x.id).bind Breakpoint.line?
    (b.relocate disk path).1 = all.filterMap (fun x =>
        (after.breakpoints.get? x.id).filter fun y => decide (y.line? ≠ x.line?)) ∧
      (∀ x ∈ all, lineOf x = x.line? ∨ goal x ≠ none ∧ lineOf x = goal x) ∧
      (∀ x ∈ b.breakpoints.entries, x.isIn path = false → after.breakpoints.get? x.id = some x) ∧
      ((∀ x ∈ all, goal x ≠ none → lineOf x = goal x) ↔ all.Pairwise fun x y => goal x ≠ y.line?) ∧
      (∀ later, after.shown? later path = some f →
        ((after.relocate later path).1 = [] ↔
          ∀ y ∈ after.breakpoints.forFile path, ∀ n, goal y = some n → after.breakpoints.Taken path n)) ∧
      ((∀ x ∈ all, goal x ≠ none → lineOf x = goal x) →
        ∀ y ∈ after.breakpoints.forFile path, ∀ n, goal y = some n →
          after.breakpoints.Taken path n ∨ ∃ x ∈ all, x.id = y.id ∧ x.anchor? = none) := by
  intro all goal after lineOf
  have hs : Breakpoint.Catalog.Sound b.breakpoints := by
    rw [hcatalog]
    exact (Breakpoint.Catalog.sound_ofList hstored).run hroom
  have hawaits := hs.awaits path
  have hrelocate := relocate_eq hshown
  have hafter : after.breakpoints =
      (Breakpoint.Catalog.followAll f (b.driftOf path) all b.breakpoints).2 := by
    simp only [after, hrelocate, all]
  have hdrift : after.driftOf path = b.driftOf path := by simp only [after, hrelocate, driftOf]
  refine ⟨?_, ?_, ?_, ?_, ?_, ?_⟩
  · rw [hafter, hrelocate]
    exact hawaits.fst_followAll f (b.driftOf path)
  · intro x hx
    simp only [lineOf, hafter]
    exact hawaits.stays_or_arrives f (b.driftOf path) hx (Breakpoint.Catalog.mem_forFile.mp hx).2
  · intro x hx hout
    have hother : ∀ y ∈ all, y.id ≠ x.id := by
      intro y hy hid
      obtain ⟨hyc, hyin⟩ := Breakpoint.Catalog.mem_forFile.mp hy
      obtain rfl := hs.eq_of_id_eq hyc hx hid
      rw [hout] at hyin
      cases hyin
    rw [hafter, hawaits.get?_followAll f (b.driftOf path) hother]
    exact hs.get?_eq_some_iff.mpr ⟨hx, rfl⟩
  · simp only [lineOf, hafter]
    exact hs.arrive_iff hclear
  · intro later hlater
    have hsound : Breakpoint.Catalog.Sound after.breakpoints := by
      rw [hafter]
      exact hawaits.sound_followAll f (b.driftOf path)
    rw [relocate_eq hlater, hdrift]
    exact (hsound.awaits path).fst_followAll_eq_nil_iff fun y hy => (Breakpoint.Catalog.mem_forFile.mp hy).2
  · intro harrive y hy n hn
    simp only [lineOf, hafter] at harrive
    rw [hafter] at hy ⊢
    exact hs.taken_of_arrived harrive hy hn

/-- The file in which two lines were a block. -/
def blockPath : Path := ⟨"/b.py"⟩

/-- A line was put above the block. -/
def shiftedDisk : Disk := { entries := [(["b.py"], .file "a\nb\nccc\nd\n".toUTF8)] }

/-- A breakpoint on each line of the block, with their anchors. -/
def blockSet : List Breakpoint.Catalog.Operation :=
  [.addLine "p" blockPath 2 none (some ⟨4⟩), .addLine "p" blockPath 3 none (some ⟨8⟩)]

/-- The first breakpoint of the block is refused the line of the second one, which moves on. -/
theorem relocate_arrives_iff_shifted :
    let b : Debugger := { breakpoints := (ofList []).run blockSet }
    let goal := Breakpoint.goal? ⟨[2, 2, 4, 2, 0]⟩ 0
    let all := b.breakpoints.forFile blockPath
    let after := (b.relocate shiftedDisk blockPath).2
    all.map (fun x => (x.line?, goal x)) = [(some 2, some 3), (some 3, some 4)] ∧
      after.breakpoints.entries.map (·.line?) = [some 2, some 4] ∧
      ¬ ∀ x ∈ all, goal x ≠ none → (after.breakpoints.get? x.id).bind Breakpoint.line? = goal x := by
  intro b goal all after
  have hall : b.breakpoints.forFile blockPath = b.breakpoints.entries :=
    List.mergeSort_of_pairwise (by decide +kernel)
  have hshown : b.shown? shiftedDisk blockPath = some ⟨[2, 2, 4, 2, 0]⟩ := by
    rw [shown?, hall]
    decide +kernel
  have hclear : Clear ⟨[2, 2, 4, 2, 0]⟩ 0 (b.breakpoints.forFile blockPath) := by
    rw [hall]
    exact ⟨by decide +kernel, by decide +kernel⟩
  have h := relocate_arrives_iff b shiftedDisk blockPath ⟨[2, 2, 4, 2, 0]⟩ [] blockSet (by decide +kernel)
    (by decide +kernel) rfl hshown hclear
  refine ⟨?_, ?_, fun harrive => absurd (h.2.2.2.1.mp harrive) ?_⟩
  · rw [show all = b.breakpoints.entries from hall]
    decide +kernel
  · rw [show after = _ from congrArg Prod.snd (relocate_eq hshown), hall]
    decide +kernel
  · rw [hall]
    decide +kernel

end Debugger

end Switchboard.Debug
