import Switchboard.Text.Blank
import Mathlib

/-!
# Texts trimmed, cut and read as numbers

* `Text.trim_append`: what is blank at the end does not count;
* `Text.cutAt_append`: a text is cut at the first occurrence;
* `Text.splitChars_append`: the pieces of a text are those before and those after a place where it is cut;
* `Text.IsNumber`, `Text.unsigned?_eq_some`: which texts are read as numbers.
-/

namespace Switchboard.Text

/-! ## Trimming -/

lemma trimEndOf_append {p : Char → Bool} {cs : List Char} (h : ∀ c ∈ cs, p c = true) (s : String) :
    trimEndOf p (s ++ String.ofList cs) = trimEndOf p s := by
  have hdrop : ∀ c ∈ cs.reverse, p c = true := by simpa using h
  rw [trimEndOf, String.toList_append, String.toList_ofList, List.reverse_append,
    List.dropWhile_append_of_pos hdrop, trimEndOf]

/-- Nothing is trimmed behind a character that is kept. -/
lemma trimEndOf_kept {p : Char → Bool} {c : Char} (h : p c = false) (s t : String) :
    trimEndOf p (s ++ String.singleton c ++ t) = s ++ String.singleton c ++ trimEndOf p t := by
  have hdrop (cs : List Char) : (cs ++ [c] ++ s.toList.reverse).dropWhile p
      = cs.dropWhile p ++ [c] ++ s.toList.reverse := by
    induction cs with
    | nil => simp [h]
    | cons d cs ih =>
      by_cases hd : p d = true
      · simpa [hd] using ih
      · simp [hd]
  apply String.toList_inj.mp
  have hlists := congrArg List.reverse (hdrop t.toList.reverse)
  simpa [trimEndOf] using hlists

/-- What is cut off at the end. -/
lemma exists_trimEndOf (p : Char → Bool) (s : String) :
    ∃ cs : List Char, (∀ c ∈ cs, p c = true) ∧ s = trimEndOf p s ++ String.ofList cs := by
  refine ⟨(s.toList.reverse.takeWhile p).reverse, ?_, ?_⟩
  · intro c hc
    exact List.mem_takeWhile_imp (List.mem_reverse.mp hc)
  · rw [trimEndOf, ← String.ofList_append, ← List.reverse_append, List.takeWhile_append_dropWhile, List.reverse_reverse,
      String.ofList_toList]

lemma trimEndOf_eq_empty {p : Char → Bool} {s : String} : trimEndOf p s = "" ↔ ∀ c ∈ s.toList, p c = true := by
  constructor
  · intro h
    obtain ⟨cs, hcs, hs⟩ := exists_trimEndOf p s
    rw [hs, h]
    simpa using hcs
  · intro h
    have hempty := trimEndOf_append h ""
    rw [String.ofList_toList, String.empty_append] at hempty
    rw [hempty]
    rfl

/-- Blanks at the end do not count. -/
lemma trim_append {cs : List Char} (h : ∀ c ∈ cs, isBlank c = true) (s : String) :
    trim (s ++ String.ofList cs) = trim s := by
  have hstart : trimStartOf isBlank (s ++ String.ofList cs) = trimStartOf isBlank s ++ String.ofList cs
      ∨ trimStartOf isBlank (s ++ String.ofList cs) = "" ∧ trimStartOf isBlank s = "" := by
    by_cases hs : ∀ c ∈ s.toList, isBlank c = true
    · right
      constructor
      · simp [trimStartOf, List.dropWhile_append_of_pos hs, List.dropWhile_eq_nil_iff.mpr h]
      · simp [trimStartOf, List.dropWhile_eq_nil_iff.mpr hs]
    · left
      have hne : s.toList.dropWhile isBlank ≠ [] := fun hnil => hs (List.dropWhile_eq_nil_iff.mp hnil)
      apply String.toList_inj.mp
      simp [trimStartOf, List.dropWhile_append, hne]
  rcases hstart with heq | ⟨heq, hs⟩
  · rw [trim, heq, trimEndOf_append h, trim]
  · rw [trim, heq, trim, hs]

/-- What is trimmed off the end by something else is blank anyway. -/
lemma trim_trimEndOf {p : Char → Bool} (hp : ∀ c, p c = true → isBlank c = true) (s : String) :
    trim (trimEndOf p s) = trim s := by
  obtain ⟨cs, hcs, hs⟩ := exists_trimEndOf p s
  have hblank : ∀ c ∈ cs, isBlank c = true := fun c hc => hp c (hcs c hc)
  calc
    trim (trimEndOf p s) = trim (trimEndOf p s ++ String.ofList cs) := (trim_append hblank _).symm
    _ = trim s := by rw [← hs]

/-- A blank at the beginning does not count. -/
lemma trim_cons {c : Char} (h : isBlank c = true) (s : String) : trim (String.singleton c ++ s) = trim s := by
  have hstart : trimStartOf isBlank (String.singleton c ++ s) = trimStartOf isBlank s := by simp [trimStartOf, h]
  rw [trim, hstart, trim]

lemma trim_of_no_blank {s : String} (h : ∀ c ∈ s.toList, isBlank c = false) : trim s = s := by
  have hkeep (cs : List Char) (hcs : ∀ c ∈ cs, isBlank c = false) : cs.dropWhile isBlank = cs := by
    cases cs with
    | nil => rfl
    | cons c cs => rw [List.dropWhile_cons_of_neg (by simp [hcs c List.mem_cons_self])]
  have hreverse : ∀ c ∈ s.toList.reverse, isBlank c = false := by simpa using h
  rw [trim, trimStartOf, hkeep _ h, String.ofList_toList, trimEndOf, hkeep _ hreverse, List.reverse_reverse,
    String.ofList_toList]

/-! ## Cutting -/

lemma cutAt_append {c : Char} {s : String} (h : c ∉ s.toList) (t : String) :
    cutAt c (s ++ String.singleton c ++ t) = some (s, t) := by
  have hpass : ∀ d ∈ s.toList, decide (d ≠ c) = true := by
    intro d hd
    exact decide_eq_true fun heq => h (heq ▸ hd)
  have htext : (s ++ String.singleton c ++ t).toList = s.toList ++ c :: t.toList := by simp
  unfold cutAt
  simp only [htext, List.dropWhile_append_of_pos hpass, List.takeWhile_append_of_pos hpass]
  simp

lemma cutAt_eq_none {c : Char} {s : String} (h : c ∉ s.toList) : cutAt c s = none := by
  have hpass : ∀ d ∈ s.toList, decide (d ≠ c) = true := by
    intro d hd
    exact decide_eq_true fun heq => h (heq ▸ hd)
  unfold cutAt
  simp only [List.dropWhile_eq_nil_iff.mpr hpass]

/-- The first occurrence of a character. -/
lemma exists_of_mem {c : Char} {s : String} (h : c ∈ s.toList) :
    ∃ before after : String, c ∉ before.toList ∧ s = before ++ String.singleton c ++ after := by
  obtain ⟨before, after, hs, hbefore⟩ := List.eq_append_cons_of_mem h
  refine ⟨String.ofList before, String.ofList after, by simpa using hbefore, ?_⟩
  apply String.toList_inj.mp
  simp [hs]

/-! ## Pieces -/

section Pieces

variable {p : Char → Bool}

lemma splitChars_of_none {cs : List Char} (h : ∀ c ∈ cs, p c = false) (current : List Char) :
    splitChars p current cs = [current.reverse ++ cs] := by
  induction cs generalizing current with
  | nil => simp [splitChars]
  | cons c rest ih =>
    have hc : p c = false := h c List.mem_cons_self
    have hrest := ih (fun d hd => h d (List.mem_cons_of_mem c hd)) (c :: current)
    rw [splitChars, hc, if_neg Bool.false_ne_true, hrest]
    simp

lemma splitChars_append {c : Char} (hc : p c = true) (xs ys current : List Char) :
    splitChars p current (xs ++ c :: ys) = splitChars p current xs ++ splitChars p [] ys := by
  induction xs generalizing current with
  | nil => simp [splitChars, hc]
  | cons x rest ih =>
    rw [List.cons_append, splitChars, splitChars, ih, ih]
    split
    · rfl
    · rfl

lemma splitChars_ne_nil (current cs : List Char) : splitChars p current cs ≠ [] := by
  induction cs generalizing current with
  | nil => exact List.cons_ne_nil _ _
  | cons c rest ih =>
    rw [splitChars]
    split
    · exact List.cons_ne_nil _ _
    · exact ih _

end Pieces

/-! ## Numbers -/

/-- Decimal digits with an optional plus sign, and the number they say. -/
def IsNumber (limit : Nat) (s : String) (n : Nat) : Prop :=
  ∃ digits, (s.toList = digits ∨ s.toList = '+' :: digits) ∧ digits ≠ [] ∧ (∀ c ∈ digits, c.isDigit = true) ∧
    Nat.ofDigitChars 10 digits 0 = n ∧ n < limit

lemma foldl_digits (ds : List Char) (n : Nat) :
    ds.foldl (fun n c => n * 10 + (c.toNat - 48)) n = Nat.ofDigitChars 10 ds n := by
  induction ds generalizing n with
  | nil => rfl
  | cons c ds ih =>
    rw [List.foldl_cons, ih, Nat.mul_comm]
    rfl

/-- A number is read behind its plus sign. -/
lemma unsigned?_eq (limit : Nat) (s : String) :
    ∃ digits, (s.toList = '+' :: digits ∨ s.toList = digits ∧ digits.head? ≠ some '+') ∧
      unsigned? limit s
        = if digits ≠ [] ∧ digits.all Char.isDigit = true then
            if Nat.ofDigitChars 10 digits 0 < limit then some (Nat.ofDigitChars 10 digits 0) else none
          else none := by
  unfold unsigned?
  simp only [foldl_digits]
  split
  · next rest hs => exact ⟨rest, .inl hs, rfl⟩
  · next hplain =>
    refine ⟨s.toList, .inr ⟨rfl, fun hhead => ?_⟩, rfl⟩
    obtain ⟨rest, hs⟩ := List.head?_eq_some_iff.mp hhead
    exact hplain rest hs

lemma unsigned?_eq_some {limit n : Nat} {s : String} : unsigned? limit s = some n ↔ IsNumber limit s n := by
  obtain ⟨digits, hs, hread⟩ := unsigned?_eq limit s
  rw [hread]
  constructor
  · intro h
    split at h
    · next hdigits =>
      split at h
      · next hlt =>
        obtain rfl := Option.some.inj h
        exact ⟨digits, hs.symm.imp_left And.left, hdigits.1, List.all_eq_true.mp hdigits.2, rfl, hlt⟩
      · cases h
    · cases h
  · rintro ⟨others, hothers, hne, hall, rfl, hlt⟩
    -- a plus sign is no digit, so there is one way only to leave it out
    have hsame : others = digits := by
      rcases hs with hplus | ⟨hplain, hhead⟩
      · rcases hothers with h | h
        · have hdigit := hall '+' (by rw [← h, hplus]; exact List.mem_cons_self)
          exact absurd hdigit (by decide)
        · exact (List.cons.inj (h.symm.trans hplus)).2
      · rcases hothers with h | h
        · exact h.symm.trans hplain
        · rw [← hplain, h] at hhead
          exact absurd rfl hhead
    subst hsame
    rw [if_pos ⟨hne, List.all_eq_true.mpr hall⟩, if_pos hlt]

lemma isDigit_of_mem_toString {n : Nat} {c : Char} (h : c ∈ (toString n).toList) : c.isDigit = true := by
  rw [Nat.toString_eq_ofList_toDigits, String.toList_ofList] at h
  exact Nat.isDigit_of_mem_toDigits (by decide) (by decide) h

lemma isBlank_of_isDigit {c : Char} (h : c.isDigit = true) : isBlank c = false := by
  have hrange : 48 ≤ c.toNat ∧ c.toNat ≤ 57 := by
    simpa [Char.isDigit, UInt32.le_iff_toNat_le] using h
  simp only [isBlank, Bool.or_eq_false_iff, Bool.and_eq_false_iff, decide_eq_false_iff_not]
  omega

/-- A number is read as itself. -/
lemma isNumber_toString {limit n : Nat} (h : n < limit) : IsNumber limit (toString n) n := by
  have hdigits : (toString n).toList = Nat.toDigits 10 n := by
    rw [Nat.toString_eq_ofList_toDigits, String.toList_ofList]
  refine ⟨Nat.toDigits 10 n, .inl hdigits, Nat.toDigits_ne_nil, ?_, Nat.ofDigitChars_ten_toDigits, h⟩
  intro c hc
  exact isDigit_of_mem_toString (hdigits ▸ hc)

end Switchboard.Text
