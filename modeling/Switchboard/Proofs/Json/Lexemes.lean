import Switchboard.Json.Record
import Mathlib

/-!
# Strings and numbers read back

* `Reader.Ends`: what may follow a number, so that it ends there;
* `Reader.string_quoted`: a quoted string is read as itself;
* `Reader.number_int`: an integer is read as itself.
-/

namespace Switchboard.Json

namespace Reader

/-! ## Blanks -/

lemma skip_of_blank {gap : List Char} (h : ∀ c ∈ gap, isBlank c = true) (cs : List Char) :
    skip (gap ++ cs) = skip cs :=
  List.dropWhile_append_of_pos h

lemma skip_cons {c : Char} (h : isBlank c = false) (cs : List Char) : skip (c :: cs) = c :: cs := by
  rw [skip, List.dropWhile_cons_of_neg (by simp [h])]

/-- What may follow a number. -/
def Ends (rest : List Char) : Prop :=
  ∀ c, rest.head? = some c → c.isDigit = false ∧ c ≠ '.' ∧ c ≠ 'e' ∧ c ≠ 'E'

lemma Ends.nil : Ends [] := nofun

lemma Ends.cons {c : Char} {rest : List Char} (h : c.isDigit = false ∧ c ≠ '.' ∧ c ≠ 'e' ∧ c ≠ 'E') :
    Ends (c :: rest) := by
  intro d hd
  rw [← Option.some.inj hd]
  exact h

lemma Ends.comma (rest : List Char) : Ends (',' :: rest) := .cons (by decide)

/-- Blanks may follow a number. -/
lemma Ends.gap {gap rest : List Char} (h : ∀ c ∈ gap, isBlank c = true) (hrest : Ends rest) : Ends (gap ++ rest) := by
  cases gap with
  | nil => exact hrest
  | cons c gap =>
    have hc : isBlank c = true := h c List.mem_cons_self
    simp only [isBlank, Bool.or_eq_true, decide_eq_true_eq] at hc
    rcases hc with ((rfl | rfl) | rfl) | rfl
    · exact .cons (by decide)
    · exact .cons (by decide)
    · exact .cons (by decide)
    · exact .cons (by decide)

/-! ## Strings -/

lemma hexDigit?_hexDigit : ∀ n < 16, hexDigit? (Writer.hexDigit n) = some n := by decide

/-- A character that is written is read as itself. -/
lemma string_escape (acc : List Char) (c : Char) (rest : List Char) :
    string acc (Writer.escape c ++ rest) = string (c :: acc) rest := by
  unfold Writer.escape
  split
  · rfl
  · rfl
  · rfl
  · rfl
  · rfl
  · rfl
  · rfl
  · split
    · -- a control character, of which only the last two digits are not zero
      have hzero : hexDigit? '0' = some 0 := rfl
      have hhigh := hexDigit?_hexDigit (c.toNat / 16) (by omega)
      have hlow := hexDigit?_hexDigit (c.toNat % 16) (Nat.mod_lt _ (by decide))
      have hunit : hexUnit? '0' '0' (Writer.hexDigit (c.toNat / 16)) (Writer.hexDigit (c.toNat % 16))
          = some c.toNat := by
        simp only [hexUnit?, hzero, hhigh, hlow]
        show some _ = some _
        congr 1
        omega
      have hnotLow : isLowSurrogate c.toNat = false := by
        simp only [isLowSurrogate, Bool.and_eq_false_iff, decide_eq_false_iff_not]
        omega
      have hnotHigh : isHighSurrogate c.toNat = false := by
        simp only [isHighSurrogate, Bool.and_eq_false_iff, decide_eq_false_iff_not]
        omega
      show string acc ('\\' :: 'u' :: '0' :: '0' :: _ :: _ :: rest) = _
      rw [string]
      simp only [hunit, hnotLow, hnotHigh]
      simp [Char.ofNat_toNat]
    · show string acc (c :: rest) = _
      rw [string.eq_def]
      split <;> simp_all

/-- A quoted string is read as itself. -/
lemma string_quoted (acc cs rest : List Char) :
    string acc (cs.flatMap Writer.escape ++ '"' :: rest) = some (String.ofList (acc.reverse ++ cs), rest) := by
  induction cs generalizing acc with
  | nil =>
    rw [List.append_nil]
    rfl
  | cons c cs ih =>
    rw [List.flatMap_cons, List.append_assoc, string_escape, ih, List.reverse_cons, List.append_assoc]
    rfl

/-! ## Numbers -/

lemma digits_append {ds rest : List Char} (hds : ∀ c ∈ ds, c.isDigit = true) (hrest : Ends rest) :
    digits (ds ++ rest) = (ds, rest) := by
  have hstop : rest.takeWhile Char.isDigit = [] ∧ rest.dropWhile Char.isDigit = rest := by
    cases rest with
    | nil => exact ⟨rfl, rfl⟩
    | cons c rest =>
      have hc : c.isDigit = false := (hrest c rfl).1
      simp [hc]
  rw [digits, List.takeWhile_append_of_pos hds, List.dropWhile_append_of_pos hds, hstop.1, hstop.2, List.append_nil]

lemma le_ofDigitChars (ds : List Char) (n : Nat) : n ≤ Nat.ofDigitChars 10 ds n := by
  induction ds generalizing n with
  | nil => exact Nat.le_refl n
  | cons c ds ih =>
    have hnext := ih (10 * n + (c.toNat - '0'.toNat))
    exact Nat.le_trans (by omega) hnext

/-- Digits of a number that fits are all taken. -/
lemma accumulate_eq {ds : List Char} {significand : Nat} (h : Nat.ofDigitChars 10 ds significand ≤ maxInteger)
    (taken : Nat) :
    accumulate significand taken ds = (Nat.ofDigitChars 10 ds significand, taken + ds.length, []) := by
  induction ds generalizing significand taken with
  | nil => rfl
  | cons c ds ih =>
    have hnext : significand * 10 + digit c = 10 * significand + (c.toNat - '0'.toNat) := by
      rw [Nat.mul_comm]
      rfl
    have hrest : Nat.ofDigitChars 10 ds (significand * 10 + digit c) ≤ maxInteger := by
      rw [hnext]
      exact h
    have hfits := Nat.le_trans (le_ofDigitChars ds _) hrest
    rw [accumulate, if_pos hfits, ih hrest, hnext, List.length_cons, Nat.add_assoc, Nat.add_comm 1]
    rfl

/-- Only zero begins with a zero. -/
lemma head?_toDigits {n : Nat} (h : 0 < n) : (Nat.toDigits 10 n).head? ≠ some '0' := by
  induction n using Nat.strong_induction_on with
  | _ n ih =>
    by_cases hlt : n < 10
    · rw [Nat.toDigits_of_lt_base hlt]
      interval_cases n <;> decide
    · have hge : 10 ≤ n := Nat.not_lt.mp hlt
      have hne : Nat.toDigits 10 (n / 10) ≠ [] := Nat.toDigits_ne_nil
      rw [Nat.toDigits_of_base_le (by decide) hge, List.head?_append_of_ne_nil _ hne]
      exact ih (n / 10) (by omega) (by omega)

lemma integerDigits?_toDigits (n : Nat) {rest : List Char} (hrest : Ends rest) :
    integerDigits? (Nat.toDigits 10 n ++ rest) = some (Nat.toDigits 10 n, rest) := by
  have hdigits : ∀ c ∈ Nat.toDigits 10 n, c.isDigit = true :=
    fun c hc => Nat.isDigit_of_mem_toDigits (by decide) (by decide) hc
  rw [integerDigits?, digits_append hdigits hrest]
  split
  · next heq => exact absurd (Prod.mk.inj heq).1 Nat.toDigits_ne_nil
  · next heq =>
    obtain ⟨hzero, -⟩ := Prod.mk.inj heq
    by_cases hlt : n < 10
    · have hlength := congrArg List.length hzero
      simp [Nat.toDigits_of_lt_base hlt] at hlength
    · exact absurd (by rw [hzero]; rfl) (head?_toDigits (n := n) (by omega))
  · rfl

/-- An integer after its sign. -/
lemma unsigned_toDigits (negative : Bool) {n : Nat} (hn : n ≤ maxInteger) {rest : List Char} (hrest : Ends rest)
    (hsign : negative = true → 0 < n ∧ n ≤ 0x8000000000000000) :
    unsigned negative (Nat.toDigits 10 n ++ rest) = some (.int (if negative then -(n : Int) else n), rest) := by
  have hvalue : Nat.ofDigitChars 10 (Nat.toDigits 10 n) 0 = n := Nat.ofDigitChars_ten_toDigits
  have hsmall : Nat.ofDigitChars 10 (Nat.toDigits 10 n) 0 ≤ maxInteger := by
    rw [hvalue]
    exact hn
  have hall := accumulate_eq hsmall 0
  have hexponent : exponentPart rest = some (none, rest) := by
    cases rest with
    | nil => rfl
    | cons c rest =>
      obtain ⟨-, -, he, hE⟩ := hrest c rfl
      simp [exponentPart, he, hE]
  rw [unsigned, integerDigits?_toDigits n hrest]
  simp only [Option.bind_eq_bind, Option.bind_some, hall, hvalue]
  split
  · exact absurd rfl (hrest '.' rfl).2.1
  · simp only [hexponent, Option.bind_some]
    cases negative with
    | false => rfl
    | true =>
      obtain ⟨hpos, hle⟩ := hsign rfl
      have hno : ¬ (n = 0 ∨ 0x8000000000000000 < n) := by omega
      simp [hno]

lemma number_int {i : Int} (hlow : -0x8000000000000000 ≤ i) (hhigh : i ≤ maxInteger) {rest : List Char}
    (hrest : Ends rest) : number ((toString i).toList ++ rest) = some (.int i, rest) := by
  cases i with
  | ofNat n =>
    have htext : (toString (Int.ofNat n)).toList = Nat.toDigits 10 n := by
      show (Nat.repr n).toList = _
      simp [Nat.repr]
    have hn : n ≤ maxInteger := Int.ofNat_le.mp hhigh
    have hread := unsigned_toDigits false hn hrest nofun
    rw [htext, number]
    · exact hread
    · -- the first character is a digit
      intro more heq
      have hhead : '-' ∈ Nat.toDigits 10 n := by
        cases hdigits : Nat.toDigits 10 n with
        | nil => exact absurd hdigits Nat.toDigits_ne_nil
        | cons c ds =>
          rw [hdigits] at heq
          rw [(List.cons.inj heq).1]
          exact List.mem_cons_self
      have hdigit := Nat.isDigit_of_mem_toDigits (by decide) (by decide) hhead
      exact absurd hdigit (by decide)
  | negSucc n =>
    have htext : (toString (Int.negSucc n)).toList = '-' :: Nat.toDigits 10 (n + 1) := by
      show ("-" ++ Nat.repr (n + 1)).toList = _
      simp [Nat.repr]
    have hle : n + 1 ≤ 0x8000000000000000 := by omega
    have hmax : n + 1 ≤ maxInteger := Nat.le_trans hle (by decide)
    rw [htext, List.cons_append, number]
    exact unsigned_toDigits true hmax hrest fun _ => ⟨Nat.succ_pos n, hle⟩

end Reader

end Switchboard.Json
