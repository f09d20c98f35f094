import Switchboard.Proofs.Breakpoint.Following
import Switchboard.Proofs.Text.Positions

/-!
# Breakpoints of a file that is not edited

* `lineOn`: the line on which the place of a breakpoint is; `lineOn_ne_iff`: it is another line right after a break only;
* `currentLine?_of_anchorIn?`: that is where the anchor of the place resolves to;
* `Put`: a breakpoint that was put on a line while the file had its text; `Put.landed`: it remains so;
* `Catalog.line?_landed_ne_iff_of_put`: when it leaves its line;
* `Debugger.mem_relocate_iff`: which breakpoints a relocation gives.
-/

namespace Switchboard.Debug

namespace Breakpoint

/-! ## Places -/

/-- The line on which the place of a line and column is, all of them counted from one: right after the break of a line
this is the next line. -/
def lineOn (f : Text.Lines) (line : Nat) (column : Option Nat) : Nat :=
  let p := Text.Position.ofOneBased line (column.getD 1)
  if f.Overhangs p then p.line + 2 else p.line + 1

variable {f : Text.Lines} {line : Nat} {column : Option Nat}

/-- A place is on its own line, unless there is no such line or it is right after the break. -/
lemma lineOn_ne_iff : lineOn f line column ≠ line ↔ line = 0 ∨ f.Overhangs (.ofOneBased line (column.getD 1)) := by
  have hline : (Text.Position.ofOneBased line (column.getD 1)).line = line - 1 := rfl
  unfold lineOn
  dsimp only
  split
  · next hover =>
    refine iff_of_true ?_ (.inr hover)
    omega
  · next hover =>
    rw [or_iff_left hover, hline]
    omega

/-- The anchor of a place resolves to the line on which the place is. -/
lemma currentLine?_of_anchorIn? (hf : f.Broken) {a : Text.Anchor} (h : anchorIn? f line column = some a) :
    currentLine? f 0 a = if lineOn f line column < lineLimit then some (lineOn f line column) else none := by
  unfold anchorIn? at h
  cases hoffset : f.offsetOf (.ofOneBased line (column.getD 1)) with
  | error e => simp [hoffset] at h
  | ok offset =>
    obtain ⟨hsize, hposition⟩ := Text.Lines.positionOf_offsetOf hf hoffset
    obtain rfl : a = ⟨offset⟩ := by
      simpa [hoffset, Text.Lines.anchorAt, Nat.min_eq_left hsize] using h.symm
    have hdrifted : driftedOffset? f 0 ⟨offset⟩ = some offset := by
      simp [driftedOffset?, Text.Lines.resolve?, hsize]
    rw [currentLine?, hdrifted, Option.bind_some, hposition]
    unfold lineOn
    dsimp only
    split <;> rfl

/-! ## Breakpoints that were put on a line -/

/-- A breakpoint that was put on a line of a file that has had its text since then: it has no anchor yet, or it has the
one of its place, and with that it is still there or was sent to where the place is. -/
inductive Put (f : Text.Lines) (path : Path) (line : Nat) (column : Option Nat) (b : Breakpoint) : Prop where
  | waits (project : String) : b.kind = .line project path line column none → Put f path line column b
  | stands (project : String) (a : Text.Anchor) : b.kind = .line project path line column (some a) →
    anchorIn? f line column = some a → Put f path line column b
  | sent (project : String) (a : Text.Anchor) : b.kind = .line project path (lineOn f line column) column (some a) →
    anchorIn? f line column = some a → Put f path line column b

namespace Put

variable {path : Path} {b : Breakpoint}

lemma of_kind {project : String} {anchor : Option Text.Anchor} (hkind : b.kind = .line project path line column anchor)
    (hanchor : ∀ a, anchor = some a → anchorIn? f line column = some a) : Put f path line column b := by
  cases anchor with
  | none => exact .waits project hkind
  | some a => exact .stands project a hkind (hanchor a rfl)

lemma congr {b' : Breakpoint} (h : Put f path line column b) (hkind : b'.kind = b.kind) : Put f path line column b' := by
  cases h with
  | waits project h => exact .waits project (hkind.trans h)
  | stands project a h ha => exact .stands project a (hkind.trans h) ha
  | sent project a h ha => exact .sent project a (hkind.trans h) ha

lemma path?_eq (h : Put f path line column b) : b.path? = some path := by
  cases h with
  | waits project h => simp [path?, h]
  | stands project a h ha => simp [path?, h]
  | sent project a h ha => simp [path?, h]

lemma isException_eq (h : Put f path line column b) : b.isException = false := by
  cases h with
  | waits project h => simp [isException, h]
  | stands project a h ha => simp [isException, h]
  | sent project a h ha => simp [isException, h]

lemma isIn_iff (h : Put f path line column b) (q : Path) : b.isIn q = true ↔ path.same q = true := by
  rw [isIn, h.path?_eq]

/-- It is on its line, or on the one on which its place is. -/
lemma line?_eq (h : Put f path line column b) : b.line? = some line ∨ b.line? = some (lineOn f line column) := by
  cases h with
  | waits project h => exact .inl (by simp [line?, h])
  | stands project a h ha => exact .inl (by simp [line?, h])
  | sent project a h ha => exact .inr (by simp [line?, h])

/-- Sent to where its anchor is, it is still one that was put on that line. -/
lemma landed (hf : f.Broken) (h : Put f path line column b) (c : Catalog) : Put f path line column (c.landed f 0 b) := by
  cases h with
  | waits project h =>
    have hkind : (c.landed f 0 b).kind = .line project path line column (anchorIn? f line column) := by
      simp [Catalog.landed, h]
    exact of_kind hkind fun a ha => ha
  | stands project a h ha =>
    simp only [Catalog.landed, h, currentLine?_of_anchorIn? hf ha]
    split
    · exact .stands project a h ha
    · next now hnow =>
      split
      · exact .stands project a h ha
      · refine .sent project a ?_ ha
        obtain rfl : lineOn f line column = now := by simpa using (Option.ite_none_right_eq_some.mp hnow).2
        rfl
  | sent project a h ha =>
    simp only [Catalog.landed, h, currentLine?_of_anchorIn? hf ha]
    split
    · exact .sent project a h ha
    · next now hnow =>
      split
      · exact .sent project a h ha
      · refine .sent project a ?_ ha
        obtain rfl : lineOn f line column = now := by simpa using (Option.ite_none_right_eq_some.mp hnow).2
        rfl

end Put

/-! ## Who is moved -/

namespace Catalog

variable {drift : Int} {c : Catalog} {path q : Path} {b : Breakpoint}

/-- Sent to its anchor a breakpoint leaves its line if the line of the anchor is free. -/
lemma line?_landed_ne_iff (hb : b ∈ c.entries) (hin : b.isIn q = true) :
    (c.landed f drift b).line? ≠ b.line? ↔ ∃ now, b.goal? f drift = some now ∧ ¬ c.Taken q now := by
  obtain ⟨hfree, htaken, hnone⟩ := line?_landed f drift c b hin
  constructor
  · intro hmoved
    cases hgoal : b.goal? f drift with
    | none => exact absurd (hnone hgoal) hmoved
    | some now => exact ⟨now, rfl, fun htake => hmoved (htaken now hgoal htake)⟩
  · rintro ⟨now, hgoal, hopen⟩ hsame
    exact hopen ⟨b, hb, isAt_iff.mpr ⟨hin, hsame.symm.trans (hfree now hgoal hopen)⟩⟩

/-- One that was put on a line leaves it only for the line on which its place is, once it is anchored. -/
lemma line?_landed_ne_iff_of_put (hf : f.Broken) (h : Put f path line column b) (hb : b ∈ c.entries)
    (hin : b.isIn q = true) :
    (c.landed f 0 b).line? ≠ b.line? ↔
      lineOn f line column ≠ line ∧ lineOn f line column < lineLimit ∧ b.line? = some line ∧ b.anchor? ≠ none ∧
        ¬ c.Taken q (lineOn f line column) := by
  rw [line?_landed_ne_iff hb hin]
  have hown : ∀ at_, b.line? = some at_ → c.Taken q at_ := fun at_ hat => ⟨b, hb, isAt_iff.mpr ⟨hin, hat⟩⟩
  cases h with
  | waits project hk => simp [goal?, anchor?, hk]
  | stands project a hk ha =>
    have hline : b.line? = some line := by simp [line?, hk]
    have hanchor : b.anchor? = some a := by simp [anchor?, hk]
    simp only [goal?, hanchor, Option.bind_some, currentLine?_of_anchorIn? hf ha, Option.ite_none_right_eq_some,
      Option.some.injEq, hline, true_and, ne_eq, reduceCtorEq, not_false_eq_true]
    constructor
    · rintro ⟨now, ⟨hlimit, rfl⟩, hopen⟩
      exact ⟨fun hsame => hopen (hown _ (hline.trans (congrArg some hsame.symm))), hlimit, hopen⟩
    · rintro ⟨-, hlimit, hopen⟩
      exact ⟨_, ⟨hlimit, rfl⟩, hopen⟩
  | sent project a hk ha =>
    have hline : b.line? = some (lineOn f line column) := by simp [line?, hk]
    constructor
    · rintro ⟨now, hgoal, hopen⟩
      have hnow : now = lineOn f line column := by
        simp only [goal?, anchor?, hk, Option.bind_some, currentLine?_of_anchorIn? hf ha,
          Option.ite_none_right_eq_some, Option.some.injEq] at hgoal
        exact hgoal.2.symm
      exact absurd (hown _ (hnow ▸ hline)) hopen
    · rintro ⟨hne, -, hthere, -⟩
      exact absurd (Option.some.inj (hline.symm.trans hthere)) hne

end Catalog

end Breakpoint

/-! ## Relocation -/

namespace Debugger

open Breakpoint.Catalog (Sound followAll)

variable {b : Debugger} {d : Disk} {q : Path} {f : Text.Lines}

lemma relocate_eq_of_none (h : b.shown? d q = none) : b.relocate d q = ([], b) := by
  unfold shown? at h
  unfold relocate
  dsimp only
  rw [h]

/-- After a relocation a breakpoint of the file is what it landed as in its turn. -/
lemma get?_relocate (hs : Sound b.breakpoints) (h : b.shown? d q = some f) {before after : List Breakpoint}
    {x : Breakpoint} (hall : b.breakpoints.forFile q = before ++ x :: after) :
    (b.relocate d q).2.breakpoints.get? x.id
      = some ((followAll f (b.driftOf q) before b.breakpoints).2.landed f (b.driftOf q) x) := by
  have hawaits := hs.awaits q
  rw [relocate_eq h, hall]
  rw [hall] at hawaits
  exact hawaits.get?_split f (b.driftOf q)

lemma sound_relocate (hs : Sound b.breakpoints) (h : b.shown? d q = some f) :
    Sound (b.relocate d q).2.breakpoints := by
  rw [relocate_eq h]
  exact (hs.awaits q).sound_followAll f (b.driftOf q)

/-- A relocation gives the breakpoints of the file whose line is another one then. -/
lemma mem_relocate_iff (hs : Sound b.breakpoints) (h : b.shown? d q = some f) (id : Nat) :
    (∃ y ∈ (b.relocate d q).1, y.id = id) ↔
      ∃ x ∈ b.breakpoints.forFile q, x.id = id ∧
        ∃ y, (b.relocate d q).2.breakpoints.get? id = some y ∧ y.line? ≠ x.line? := by
  have hsound := sound_relocate hs h
  have hgiven : (b.relocate d q).1 = (b.breakpoints.forFile q).filterMap fun x =>
      ((b.relocate d q).2.breakpoints.get? x.id).filter fun y => decide (y.line? ≠ x.line?) := by
    rw [relocate_eq h]
    exact (hs.awaits q).fst_followAll f (b.driftOf q)
  simp only [hgiven, List.mem_filterMap, Option.filter_eq_some_iff, decide_eq_true_eq]
  constructor
  · rintro ⟨y, ⟨x, hx, hget, hmoved⟩, rfl⟩
    obtain ⟨-, hid⟩ := hsound.get?_eq_some_iff.mp hget
    exact ⟨x, hx, hid.symm, y, hid ▸ hget, hmoved⟩
  · rintro ⟨x, hx, rfl, y, hget, hmoved⟩
    exact ⟨y, ⟨x, hx, hget, hmoved⟩, (hsound.get?_eq_some_iff.mp hget).2⟩

/-- After a relocation each breakpoint is one of before with the same id; one of another file is as it was. -/
lemma exists_mem_of_relocate (hs : Sound b.breakpoints) (h : b.shown? d q = some f) {y : Breakpoint}
    (hy : y ∈ (b.relocate d q).2.breakpoints.entries) :
    ∃ x ∈ b.breakpoints.entries, x.id = y.id ∧ (x.isIn q = false → y = x) := by
  have hawaits := hs.awaits q
  have hsound := sound_relocate hs h
  have hget : (b.relocate d q).2.breakpoints.get? y.id = some y := hsound.get?_eq_some_iff.mpr ⟨hy, rfl⟩
  rw [relocate_eq h] at hy hget
  obtain ⟨x, hx, hid, hin⟩ := hawaits.mem_followAll hy
  refine ⟨x, hx, hid, fun hout => ?_⟩
  have hother : ∀ a ∈ b.breakpoints.forFile q, a.id ≠ y.id := by
    intro a ha haid
    obtain ⟨hac, hain⟩ := Breakpoint.Catalog.mem_forFile.mp ha
    obtain rfl := hs.eq_of_id_eq hac hx (haid.trans hid.symm)
    exact absurd hain (by simp [hout])
  rw [hawaits.get?_followAll f _ hother] at hget
  exact hs.eq_of_id_eq (hs.get?_eq_some_iff.mp hget).1 hx hid.symm

end Debugger

end Switchboard.Debug
