import Mathlib.Tactic
import Switchboard.Text.Lines

/-!
# Offsets of positions and positions of offsets

* `Lines.Broken`: every line but the last one has a break;
* `Lines.Overhangs`: the place right after the break of a line, which is the start of the next one;
* `Lines.positionOf_offsetOf`: the position of the offset of a position is that position, unless it overhangs.
-/

namespace Switchboard.Text

/-! ## Lines with their breaks -/

/-- No line but the last one is without characters, as each has its break. -/
def Filled (lengths : List Nat) : Prop := ∀ k n, lengths[k]? = some n → k + 1 < lengths.length → 0 < n

lemma filled_singleton (n : Nat) : Filled [n] := fun k m _ hlast => by simp at hlast

lemma Filled.cons {n : Nat} {l : List Nat} (hn : 0 < n) (h : Filled l) : Filled (n :: l) := by
  intro k m hm hlast
  cases k with
  | zero =>
    obtain rfl : n = m := by simpa using hm
    exact hn
  | succ k => exact h k m hm (Nat.lt_of_succ_lt_succ hlast)

lemma Filled.tail {n : Nat} {l : List Nat} (h : Filled (n :: l)) : Filled l :=
  fun k m hm hlast => h (k + 1) m hm (Nat.succ_lt_succ hlast)

lemma Filled.head {a b : Nat} {l : List Nat} (h : Filled (a :: b :: l)) : 0 < a := h 0 a rfl (by simp)

/-- Where a text is cut there was a break. -/
lemma filled_lineLengths (current : Nat) (cs : List Char) : Filled (lineLengths current cs) := by
  fun_induction lineLengths current cs with
  | case1 current => exact filled_singleton current
  | case2 current rest ih => exact ih.cons (Nat.succ_pos _)
  | case3 current c rest _ hbreak ih => exact ih.cons (Nat.succ_pos _)
  | case4 current c rest _ hbreak ih => exact ih

lemma totalLength_take_add_le {l : List Nat} {k n : Nat} (h : l[k]? = some n) :
    totalLength (l.take k) + n ≤ totalLength l := by
  induction l generalizing k with
  | nil => cases h
  | cons a l ih =>
    cases k with
    | zero =>
      obtain rfl : a = n := by simpa using h
      simp [totalLength]
    | succ k =>
      have hrest := ih (k := k) (by simpa using h)
      simp only [List.take_succ_cons, totalLength]
      omega

namespace Lines

/-- The start of a text is on its first line. -/
lemma locate_zero (line : Nat) {l : List Nat} (h : Filled l) : locate line 0 l = ⟨line, 0⟩ := by
  match l with
  | [] | [_] => rfl
  | a :: b :: rest => simp [locate, h.head]

/-- The character in a column of a line is found there; what comes after the break of the line is found at the start of
the next line, if there is one. -/
lemma locate_take {line k n col : Nat} {l : List Nat} (hl : Filled l) (hk : l[k]? = some n) (hcol : col ≤ n) :
    locate line (totalLength (l.take k) + col) l
      = if col = n ∧ k + 1 < l.length then ⟨line + k + 1, 0⟩ else ⟨line + k, col⟩ := by
  induction l generalizing line k with
  | nil => cases hk
  | cons a rest ih =>
    cases rest with
    | nil =>
      obtain rfl : k = 0 := by
        have := (List.getElem?_eq_some_iff.mp hk).1
        simpa using this
      simp [locate, totalLength]
    | cons b rest =>
      cases k with
      | zero =>
        obtain rfl : a = n := by simpa using hk
        by_cases hend : col = a
        · subst hend
          simp [locate, totalLength, locate_zero _ hl.tail]
        · have hlt : col < a := Nat.lt_of_le_of_ne hcol hend
          simp [locate, totalLength, hlt, hend]
      | succ k =>
        have hbefore : ¬ a + totalLength ((b :: rest).take k) + col < a := by omega
        have hoffset : a + totalLength ((b :: rest).take k) + col - a
            = totalLength ((b :: rest).take k) + col := by omega
        rw [List.take_succ_cons, totalLength, locate, if_neg hbefore, hoffset,
          ih hl.tail (by simpa using hk)]
        · simp only [List.length_cons, Nat.add_lt_add_iff_right, Nat.add_assoc, Nat.add_comm 1]
        · exact List.cons_ne_nil _ _

/-- A text in which every line but the last one ends with a break. -/
def Broken (f : Lines) : Prop := Filled f.lengths

lemma broken_ofText (text : String) : (ofText text).Broken := filled_lineLengths 0 text.toList

/-- The place right after the break of a line, which is the start of the next one. -/
def Overhangs (f : Lines) (p : Position) : Prop := f.lengths[p.line]? = some p.col ∧ p.line + 1 < f.count

instance (f : Lines) (p : Position) : Decidable (f.Overhangs p) := by
  unfold Overhangs
  infer_instance

/-- The position of the offset of a position is the position itself, except right after a line break. -/
theorem positionOf_offsetOf {f : Lines} (hf : f.Broken) {p : Position} {offset : Nat} (h : f.offsetOf p = .ok offset) :
    offset ≤ f.size ∧ f.positionOf offset = .ok (if f.Overhangs p then ⟨p.line + 1, 0⟩ else p) := by
  unfold offsetOf at h
  cases hline : f.lengths[p.line]? with
  | none => simp [hline, throw, throwThe, MonadExceptOf.throw] at h
  | some n =>
    simp only [hline] at h
    by_cases hcol : p.col ≤ n
    · rw [if_pos hcol] at h
      obtain rfl := Except.ok.inj h
      have hsize : f.start p.line + p.col ≤ f.size :=
        (Nat.add_le_add_left hcol _).trans (totalLength_take_add_le hline)
      refine ⟨hsize, ?_⟩
      rw [positionOf, if_pos hsize, start, locate_take hf hline hcol]
      simp only [Overhangs, hline, Option.some.injEq, Nat.zero_add, eq_comm (a := n)]
      rfl
    · rw [if_neg hcol] at h
      cases h

end Lines

end Switchboard.Text
