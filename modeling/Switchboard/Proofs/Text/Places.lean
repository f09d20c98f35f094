import Switchboard.Proofs.Text.Breaks

/-!
# Places in a text

* `Stands`: what is before a position that is on a line or right after it;
* `AfterBreak`: the position right after the break of a line;
* `Lines.offsetOf_eq_ok_iff`: which positions have an offset, and that it counts what is before them;
* `Lines.offsetOf_kept_iff`: the position of that offset is the same one, unless it is right after a break;
* `Lines.exists_position`, `Lines.precedes_of_lt`: every offset of a text has a position, and later ones have later ones;
* `Lines.one_position_each`: offsets, positions and anchors of a text.
-/

namespace Switchboard.Text

/-- One position comes before another one, by lines and then by columns. -/
def Position.Precedes (p q : Position) : Prop := p.line < q.line ∨ p.line = q.line ∧ p.col < q.col

/-- What is before a position on a line, its break included, or right after that. -/
def Stands (lines : List Line) (p : Position) (before : List Char) : Prop :=
  ∃ line, lines[p.line]? = some line ∧ p.col ≤ line.length ∧
    before = (lines.take p.line).flatMap Line.chars ++ line.chars.take p.col

/-- The position right after the break of a line. -/
def AfterBreak (lines : List Line) (p : Position) : Prop :=
  ∃ line, lines[p.line]? = some line ∧ line.ending.isSome = true ∧ p.col = line.length

/-! ## Where an offset falls -/

/-- An offset falls on a line, before its end unless it is the last one. -/
lemma exists_locate_split {l : List Nat} (hl : l ≠ []) {offset : Nat} (h : offset ≤ totalLength l) :
    ∃ k n col, l[k]? = some n ∧ offset = totalLength (l.take k) + col ∧ col ≤ n ∧ (col = n → l.length = k + 1) := by
  induction l generalizing offset with
  | nil => exact absurd rfl hl
  | cons a rest ih =>
    by_cases hfirst : offset < a ∨ rest = []
    · refine ⟨0, a, offset, rfl, (Nat.zero_add offset).symm, ?_, fun hend => ?_⟩
      · rcases hfirst with hlt | rfl
        · exact hlt.le
        · simpa [totalLength] using h
      · have hrest : rest = [] := hfirst.resolve_left (by omega)
        simp [hrest]
    · obtain ⟨hge, hrest⟩ := not_or.mp hfirst
      have hleft : offset - a ≤ totalLength rest := by
        simp only [totalLength] at h
        omega
      obtain ⟨k, n, col, hk, hoffset, hcol, hlast⟩ := ih hrest hleft
      refine ⟨k + 1, n, col, hk, ?_, hcol, fun hend => by rw [List.length_cons, hlast hend]⟩
      simp only [List.take_succ_cons, totalLength]
      omega

namespace Lines

variable {f : Lines} {p q : Position} {offset offset' : Nat}

lemma offsetOf_eq_ok_iff_start : f.offsetOf p = .ok offset ↔
    ∃ n, f.lengths[p.line]? = some n ∧ p.col ≤ n ∧ offset = f.start p.line + p.col := by
  unfold offsetOf
  cases hline : f.lengths[p.line]? with
  | none => simp [throw, throwThe, MonadExceptOf.throw]
  | some n =>
    by_cases hcol : p.col ≤ n
    · simp [hcol, pure, Except.pure, eq_comm]
    · simp [hcol, throw, throwThe, MonadExceptOf.throw]

/-- What has no offset is refused by name. -/
lemma offsetOf_eq_error (h : ∀ offset, f.offsetOf p ≠ .ok offset) : f.offsetOf p = .error (.position p) := by
  cases hline : f.lengths[p.line]? with
  | none => simp [offsetOf, hline, throw, throwThe, MonadExceptOf.throw]
  | some n =>
    have hcol : ¬ p.col ≤ n := fun hcol => h _ (offsetOf_eq_ok_iff_start.mpr ⟨n, hline, hcol, rfl⟩)
    simp [offsetOf, hline, hcol, throw, throwThe, MonadExceptOf.throw]

/-- A line ends where the next one starts, or before. -/
lemma start_add_le {k k' n : Nat} (hk : f.lengths[k]? = some n) (h : k < k') : f.start k + n ≤ f.start k' := by
  have hle := totalLength_take_add_le (l := f.lengths.take k') (k := k) (n := n) (by rw [List.getElem?_take_of_lt h, hk])
  rwa [List.take_take, Nat.min_eq_left h.le] at hle

/-- Of two offsets the later one has the later position. -/
lemma precedes_of_lt (hp : f.offsetOf p = .ok offset) (hq : f.offsetOf q = .ok offset') (h : offset < offset') :
    p.Precedes q := by
  obtain ⟨n, hn, hcol, rfl⟩ := offsetOf_eq_ok_iff_start.mp hp
  obtain ⟨m, hm, hcol', rfl⟩ := offsetOf_eq_ok_iff_start.mp hq
  rcases Nat.lt_trichotomy p.line q.line with hlt | heq | hgt
  · exact .inl hlt
  · rw [heq] at h
    exact .inr ⟨heq, by omega⟩
  · -- the other position would be on an earlier line, and so would its offset
    have hle := start_add_le hm hgt
    omega

/-- Every offset of a text has a position, and that is where it is. -/
lemma exists_position (hf : f.Broken) (hlines : f.lengths ≠ []) (h : offset ≤ f.size) :
    ∃ p, f.positionOf offset = .ok p ∧ p.line < f.count ∧ f.offsetOf p = .ok offset ∧ ¬ f.Overhangs p := by
  obtain ⟨k, n, col, hk, rfl, hcol, hlast⟩ := exists_locate_split hlines h
  have hoffset : f.offsetOf ⟨k, col⟩ = .ok (f.start k + col) := offsetOf_eq_ok_iff_start.mpr ⟨n, hk, hcol, rfl⟩
  have hreal : ¬ f.Overhangs ⟨k, col⟩ := by
    rintro ⟨hend, hmore⟩
    have hlength := hlast (Option.some.inj (hend.symm.trans hk))
    exact absurd hmore (by simp [count, hlength])
  have hposition := (positionOf_offsetOf hf hoffset).2
  rw [if_neg hreal] at hposition
  exact ⟨⟨k, col⟩, hposition, (List.getElem?_eq_some_iff.mp hk).1, hoffset, hreal⟩

/-- Behind the end there are no positions. -/
lemma positionOf_of_size_lt (h : f.size < offset) : f.positionOf offset = .error (.offset offset) := by
  rw [positionOf, if_neg (Nat.not_le.mpr h)]
  rfl

lemma le_size_of_positionOf (hp : f.positionOf offset = .ok p) : offset ≤ f.size := by
  by_contra hlt
  rw [positionOf_of_size_lt (Nat.lt_of_not_le hlt)] at hp
  cases hp

/-- What has a position is the offset of that position. -/
lemma offsetOf_positionOf (hf : f.Broken) (hlines : f.lengths ≠ []) (hp : f.positionOf offset = .ok p) :
    f.offsetOf p = .ok offset := by
  obtain ⟨q, hq, -, hoffset, -⟩ := exists_position hf hlines (le_size_of_positionOf hp)
  obtain rfl := Except.ok.inj (hp.symm.trans hq)
  exact hoffset

/-! ## The text and its lines -/

lemma totalLength_map_length (lines : List Line) :
    totalLength (lines.map Line.length) = (lines.flatMap Line.chars).length := by
  induction lines with
  | nil => rfl
  | cons line rest ih =>
    rw [List.map_cons, totalLength, ih, List.flatMap_cons, List.length_append]
    rfl

section Text

variable {text : String} {lines : List Line} (h : BreaksInto text.toList lines)
include h

lemma lengths_ofText : (ofText text).lengths = lines.map Line.length := lineLengths_of_breaksInto h

lemma start_ofText (k : Nat) : (ofText text).start k = ((lines.take k).flatMap Line.chars).length := by
  rw [start, lengths_ofText h, ← List.map_take, totalLength_map_length]

lemma overhangs_ofText_iff : (ofText text).Overhangs p ↔ AfterBreak lines p := by
  rw [Overhangs, count, lengths_ofText h, List.length_map, List.getElem?_map, Option.map_eq_some_iff]
  constructor
  · rintro ⟨⟨line, hline, hcol⟩, hmore⟩
    exact ⟨line, hline, (h.isSome_ending_iff hline).mpr hmore, hcol.symm⟩
  · rintro ⟨line, hline, hending, hcol⟩
    exact ⟨⟨line, hline, hcol.symm⟩, (h.isSome_ending_iff hline).mp hending⟩

/-- What is before a position is the beginning of the text. -/
lemma prefix_of_stands {before : List Char} (hp : Stands lines p before) : before <+: text.toList := by
  obtain ⟨line, hline, -, rfl⟩ := hp
  have hsplit : lines = lines.take p.line ++ line :: lines.drop (p.line + 1) := by
    obtain ⟨hlt, rfl⟩ := List.getElem?_eq_some_iff.mp hline
    rw [List.getElem_cons_drop, List.take_append_drop]
  rw [← h.flatMap_chars]
  conv_rhs => rw [hsplit, List.flatMap_append, List.flatMap_cons]
  exact (List.prefix_append_right_inj _).mpr ((List.take_prefix _ _).trans (List.prefix_append _ _))

lemma length_of_stands {before : List Char} (hp : Stands lines p before) :
    before.length = (ofText text).start p.line + p.col := by
  obtain ⟨line, -, hcol, rfl⟩ := hp
  rw [start_ofText h, List.length_append, List.length_take, ← Line.length, Nat.min_eq_left hcol]

/-- A position has an offset exactly if it is on a line or right after one, and the offset counts what is before it. -/
lemma offsetOf_eq_ok_iff : (ofText text).offsetOf p = .ok offset ↔
    offset ≤ text.length ∧ Stands lines p (text.toList.take offset) := by
  rw [offsetOf_eq_ok_iff_start, lengths_ofText h]
  constructor
  · rintro ⟨n, hn, hcol, rfl⟩
    obtain ⟨line, hline, rfl⟩ := Option.map_eq_some_iff.mp (List.getElem?_map .. ▸ hn)
    have hstands : Stands lines p _ := ⟨line, hline, hcol, rfl⟩
    have hbefore := prefix_of_stands h hstands
    have hlength := length_of_stands h hstands
    rw [← hlength, ← String.length_toList, ← List.prefix_iff_eq_take.mp hbefore]
    exact ⟨hbefore.length_le, hstands⟩
  · rintro ⟨hle, hstands⟩
    have hlength := length_of_stands h hstands
    rw [List.length_take, String.length_toList, Nat.min_eq_left hle] at hlength
    obtain ⟨line, hline, hcol, -⟩ := hstands
    exact ⟨line.length, by rw [List.getElem?_map, hline]; rfl, hcol, hlength⟩

lemma size_ofText : (ofText text).size = text.length := by
  rw [size, lengths_ofText h, totalLength_map_length, h.flatMap_chars, String.length_toList]

/-- Two positions have one offset only if one of them is right after a break and the other one begins the next line. -/
lemma eq_or_afterBreak (hp : (ofText text).offsetOf p = .ok offset)
    (hq : (ofText text).offsetOf q = .ok offset) :
    p = q ∨ AfterBreak lines p ∧ q = ⟨p.line + 1, 0⟩ ∨ AfterBreak lines q ∧ p = ⟨q.line + 1, 0⟩ := by
  have hplace := (positionOf_offsetOf (broken_ofText text) hp).2
  rw [(positionOf_offsetOf (broken_ofText text) hq).2] at hplace
  have hplace := Except.ok.inj hplace
  split at hplace
  · next hover =>
    have hq := (overhangs_ofText_iff h).mp hover
    split at hplace
    · next hover' =>
      -- right after the breaks of two lines: it is the same line, as the next one is
      have hline : q.line = p.line := Nat.succ.inj (congrArg Position.line hplace)
      have hcol : some q.col = some p.col := hover.1.symm.trans (hline ▸ hover'.1)
      exact .inl (congrArg₂ Position.mk hline.symm (Option.some.inj hcol).symm)
    · exact .inr (.inr ⟨hq, hplace.symm⟩)
  · split at hplace
    · next hover => exact .inr (.inl ⟨(overhangs_ofText_iff h).mp hover, hplace⟩)
    · exact .inl hplace.symm

end Text

/-- A position has an offset if it is on one of the lines or right after it, the break included, and the offset counts what
is before it. The position of that offset is the same one, unless it is right after the break of a line: then it is the
beginning of the next line, and only such two positions have the same offset. -/
theorem offsetOf_kept_iff (text : String) :
    let f := ofText text
    ∃ lines, (∀ other, BreaksInto text.toList other ↔ other = lines) ∧
      (∀ p offset, f.offsetOf p = .ok offset ↔ offset ≤ text.length ∧ Stands lines p (text.toList.take offset)) ∧
      (∀ p, (∀ line, lines[p.line]? = some line → line.length < p.col) → f.offsetOf p = .error (.position p)) ∧
      (∀ p offset, f.offsetOf p = .ok offset →
        (f.positionOf offset = .ok p ↔ ¬ AfterBreak lines p) ∧
          (AfterBreak lines p → f.positionOf offset = .ok ⟨p.line + 1, 0⟩)) ∧
      ∀ p q offset, f.offsetOf p = .ok offset → f.offsetOf q = .ok offset →
        p = q ∨ AfterBreak lines p ∧ q = ⟨p.line + 1, 0⟩ ∨ AfterBreak lines q ∧ p = ⟨q.line + 1, 0⟩ := by
  obtain ⟨lines, h⟩ := exists_breaksInto text.toList
  refine ⟨lines, fun other => ⟨fun hother => hother.unique h, fun heq => heq ▸ h⟩,
    fun p offset => offsetOf_eq_ok_iff h, fun p hpast => offsetOf_eq_error fun offset hp => ?_, fun p offset hp => ?_,
    fun p q offset => eq_or_afterBreak h⟩
  · obtain ⟨-, line, hline, hcol, -⟩ := (offsetOf_eq_ok_iff h).mp hp
    exact absurd hcol (Nat.not_le.mpr (hpast line hline))
  have hplace := (positionOf_offsetOf (broken_ofText text) hp).2
  rw [hplace, ← overhangs_ofText_iff h]
  by_cases hover : (ofText text).Overhangs p
  · rw [if_pos hover]
    refine ⟨iff_of_false (fun heq => ?_) (not_not_intro hover), fun _ => rfl⟩
    exact Nat.succ_ne_self p.line (congrArg Position.line (Except.ok.inj heq))
  · rw [if_neg hover]
    exact ⟨iff_of_true rfl hover, fun hother => absurd hother hover⟩

/-- A column right after the break of the first line is taken, and leads to the second line. -/
theorem not_kept_after_crlf : (ofText "ab\r\ncd").offsetOf ⟨0, 4⟩ = .ok 4 ∧
    (ofText "ab\r\ncd").positionOf 4 ≠ .ok ⟨0, 4⟩ ∧ (ofText "ab\r\ncd").positionOf 4 = .ok ⟨1, 0⟩ := by
  obtain ⟨lines, hlines, -, -, hplace, -⟩ := offsetOf_kept_iff "ab\r\ncd"
  have hbreaks : BreaksInto "ab\r\ncd".toList [⟨['a', 'b'], some .crlf⟩, ⟨['c', 'd'], none⟩] := by
    have hplain : ∀ a b : Char, isLineBreak a = false → isLineBreak b = false → Plain [a, b] :=
      fun a b ha hb => (plain_nil.cons hb).cons ha
    have hlast := BreaksInto.last (hplain 'c' 'd' (by decide) (by decide))
    exact .line .crlf (hplain 'a' 'b' (by decide) (by decide)) (fun h => nomatch h) hlast
  obtain rfl := (hlines _).mp hbreaks
  have hoffset : (ofText "ab\r\ncd").offsetOf ⟨0, 4⟩ = .ok 4 := by decide +kernel
  have hafter : AfterBreak [⟨['a', 'b'], some .crlf⟩, ⟨['c', 'd'], none⟩] ⟨0, 4⟩ :=
    ⟨_, rfl, rfl, rfl⟩
  exact ⟨hoffset, fun hkept => (hplace _ _ hoffset).1.mp hkept hafter, (hplace _ _ hoffset).2 hafter⟩

/-- Every offset of a text, its end included, has one position: it is on a line, what is before it is what the offset
counts, and its offset and the offset of the anchor are that offset. Later offsets have later positions. Behind the end
there are no positions, and anchors are at the end. -/
theorem one_position_each (text : String) :
    let f := ofText text
    ∃ lines, (∀ other, BreaksInto text.toList other ↔ other = lines) ∧ f.count = lines.length ∧
      (∀ offset ≤ text.length, ∃ p, f.positionOf offset = .ok p ∧ p.line < f.count ∧ ¬ AfterBreak lines p ∧
        Stands lines p (text.toList.take offset) ∧ f.offsetOf p = .ok offset ∧
        f.resolve? (f.anchorAt offset) = some offset) ∧
      (∀ offset offset' p q, offset < offset' → f.positionOf offset = .ok p → f.positionOf offset' = .ok q →
        p.Precedes q) ∧
      ∀ offset > text.length, f.positionOf offset = .error (.offset offset) ∧ f.anchorAt offset = ⟨text.length⟩ := by
  obtain ⟨lines, h⟩ := exists_breaksInto text.toList
  have hsize := size_ofText h
  have hbroken := broken_ofText text
  have hlengths : (ofText text).lengths ≠ [] := by simpa [lengths_ofText h] using h.ne_nil
  refine ⟨lines, fun other => ⟨fun hother => hother.unique h, fun heq => heq ▸ h⟩, ?_, fun offset hle => ?_,
    fun offset offset' p q hlt hp hq => ?_, fun offset hlt => ⟨positionOf_of_size_lt (hsize.symm ▸ hlt), ?_⟩⟩
  · rw [count, lengths_ofText h, List.length_map]
  · obtain ⟨p, hp, hline, hoffset, hreal⟩ := exists_position hbroken hlengths (hsize.symm ▸ hle)
    refine ⟨p, hp, hline, mt (overhangs_ofText_iff h).mpr hreal, ((offsetOf_eq_ok_iff h).mp hoffset).2, hoffset, ?_⟩
    rw [anchorAt, resolve?, hsize, Nat.min_eq_left hle, if_pos hle]
  · have hoffset := offsetOf_positionOf hbroken hlengths hp
    have hoffset' := offsetOf_positionOf hbroken hlengths hq
    exact precedes_of_lt hoffset hoffset' hlt
  · rw [anchorAt, hsize, Nat.min_eq_right (Nat.le_of_lt hlt)]

/-- Between the two characters of a break is the first line still. -/
example : (ofText "a\r\nb\r").positionOf 2 = .ok ⟨0, 2⟩ ∧ (ofText "a\r\nb\r").positionOf 5 = .ok ⟨2, 0⟩ := by
  decide +kernel

end Lines

end Switchboard.Text
