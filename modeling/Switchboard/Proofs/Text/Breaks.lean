import Switchboard.Proofs.Text.Positions

/-!
# The lines of a text

* `Break`: the eight ways in which a line ends; CR and LF next to each other are one break;
* `Line`: characters without a break, and how they end;
* `BreaksInto`: a text and its lines, said without counting (`exists_breaksInto`, `BreaksInto.unique`);
* `lineLengths_of_breaksInto`: the lengths that are kept of a text are those of its lines;
* `BreaksInto.isSome_ending_iff`: every line but the last one has a break.
-/

namespace Switchboard.Text

/-! ## Breaks -/

/-- What ends a line. -/
inductive Break where
  | lf
  | crlf
  | cr
  | vt
  | ff
  | nel
  | ls
  | ps
deriving DecidableEq, Repr

/-- The characters of a break. -/
def Break.chars : Break → List Char
  | lf => ['\n']
  | crlf => ['\r', '\n']
  | cr => ['\r']
  | vt => ['\x0b']
  | ff => ['\x0c']
  | nel => ['\u0085']
  | ls => ['\u2028']
  | ps => ['\u2029']

lemma Break.isLineBreak_of_mem {b : Break} {c : Char} (h : c ∈ b.chars) : isLineBreak c = true := by
  cases b <;> simp only [chars, List.mem_cons, List.not_mem_nil, or_false] at h
  case crlf => rcases h with rfl | rfl <;> rfl
  all_goals subst h; rfl

/-- A character that breaks a line is a break by itself. -/
lemma exists_break {c : Char} (h : isLineBreak c = true) : ∃ b : Break, b.chars = [c] := by
  have hcode : ∀ {d : Char}, c.toNat = d.toNat → [d] = [c] := fun h => by rw [Char.toNat_inj.mp h]
  simp only [isLineBreak, Bool.or_eq_true, Bool.and_eq_true, decide_eq_true_eq] at h
  rcases h with (((h | h) | h) | h)
  · have hcases : c.toNat = 0x0A ∨ c.toNat = 0x0B ∨ c.toNat = 0x0C ∨ c.toNat = 0x0D := by omega
    rcases hcases with h | h | h | h
    · exact ⟨.lf, hcode h⟩
    · exact ⟨.vt, hcode h⟩
    · exact ⟨.ff, hcode h⟩
    · exact ⟨.cr, hcode h⟩
  · exact ⟨.nel, hcode h⟩
  · exact ⟨.ls, hcode h⟩
  · exact ⟨.ps, hcode h⟩

/-- Some characters among which no line ends. -/
def Plain (cs : List Char) : Prop := ∀ c ∈ cs, ∀ b : Break, c ∉ b.chars

lemma plain_nil : Plain [] := fun _ h => nomatch h

lemma Plain.cons {c : Char} {cs : List Char} (hc : isLineBreak c = false) (h : Plain cs) : Plain (c :: cs) := by
  intro d hd b hb
  rcases List.mem_cons.mp hd with rfl | hd
  · exact absurd (Break.isLineBreak_of_mem hb) (by simp [hc])
  · exact h d hd b hb

lemma Plain.isLineBreak_eq {c : Char} {cs : List Char} (h : Plain (c :: cs)) : isLineBreak c = false := by
  by_contra hbreak
  obtain ⟨b, hb⟩ := exists_break (Bool.eq_true_of_not_eq_false hbreak)
  exact h c List.mem_cons_self b (hb ▸ List.mem_singleton_self c)

lemma Plain.tail {c : Char} {cs : List Char} (h : Plain (c :: cs)) : Plain cs :=
  fun d hd => h d (List.mem_cons_of_mem c hd)

/-! ## Lines -/

/-- A line of a text: its characters, and its break unless the text ends there. -/
structure Line where
  content : List Char
  ending : Option Break
deriving DecidableEq, Repr

/-- All characters of a line, its break included. -/
def Line.chars (l : Line) : List Char := l.content ++ (l.ending.map Break.chars).getD []

/-- The number of characters of a line, its break included. -/
def Line.length (l : Line) : Nat := l.chars.length

/-- A text and its lines: each line but the last one ends with the first break in what is left of the text. A CR that
ends a line by itself has no LF behind it, as the two are one break. -/
inductive BreaksInto : List Char → List Line → Prop where
  | last {content : List Char} (plain : Plain content) : BreaksInto content [⟨content, none⟩]
  | line {content rest : List Char} {lines : List Line} (b : Break) (plain : Plain content)
      (whole : b = .cr → rest.head? ≠ some '\n') (after : BreaksInto rest lines) :
      BreaksInto (content ++ (b.chars ++ rest)) (⟨content, some b⟩ :: lines)

/-- A character that breaks nothing belongs to the first line. -/
lemma BreaksInto.cons {c : Char} {cs : List Char} {lines : List Line} (hc : isLineBreak c = false)
    (h : BreaksInto cs lines) : ∃ lines', BreaksInto (c :: cs) lines' := by
  cases h with
  | last plain => exact ⟨_, .last (plain.cons hc)⟩
  | line b plain whole after => exact ⟨_, .line b (plain.cons hc) whole after⟩

/-- Every text has its lines. -/
lemma exists_breaksInto (cs : List Char) : ∃ lines, BreaksInto cs lines := by
  -- the cuts of the text, whatever was read of the line before
  suffices h : ∀ current, ∃ lines, BreaksInto cs lines from h 0
  intro current
  fun_induction lineLengths current cs with
  | case1 => exact ⟨_, .last plain_nil⟩
  | case2 current rest ih =>
    obtain ⟨lines, h⟩ := ih
    exact ⟨_, .line .crlf plain_nil (fun h => absurd h (by decide)) h⟩
  | case3 current c rest hpair hbreak ih =>
    obtain ⟨lines, h⟩ := ih
    obtain ⟨b, hb⟩ := exists_break hbreak
    have hwhole : b = .cr → rest.head? ≠ some '\n' := by
      rintro rfl hhead
      obtain ⟨after, rfl⟩ := List.head?_eq_some_iff.mp hhead
      exact hpair after (List.singleton_inj.mp hb).symm rfl
    have hline := BreaksInto.line b plain_nil hwhole h
    rw [hb] at hline
    exact ⟨_, hline⟩
  | case4 current c rest _ hbreak ih =>
    obtain ⟨lines, h⟩ := ih
    exact h.cons (Bool.eq_false_iff.mpr hbreak)

/-! ## A text has its lines in one way only -/

/-- What is before the first break of a text is its first line. -/
lemma takeWhile_content {content rest : List Char} (h : Plain content) (b : Break) :
    (content ++ (b.chars ++ rest)).takeWhile (fun c => !isLineBreak c) = content := by
  induction content with
  | nil => cases b <;> rfl
  | cons c content ih => simp [h.isLineBreak_eq, ih h.tail]

lemma not_plain_break {content rest : List Char} (b : Break) : ¬ Plain (content ++ (b.chars ++ rest)) := by
  intro h
  obtain ⟨c, hc⟩ := List.exists_mem_of_ne_nil b.chars (by cases b <;> simp [Break.chars])
  exact h c (List.mem_append_right _ (List.mem_append_left _ hc)) b hc

/-- What a text begins with tells which break it is, as a CR with an LF behind it is not one by itself. -/
lemma Break.chars_append_inj {b b' : Break} {rest rest' : List Char} (hb : b = .cr → rest.head? ≠ some '\n')
    (hb' : b' = .cr → rest'.head? ≠ some '\n') (h : b.chars ++ rest = b'.chars ++ rest') : b = b' ∧ rest = rest' := by
  cases b <;> cases b' <;> simp only [chars, List.cons_append, List.nil_append, List.cons.injEq] at h
  case crlf.cr =>
    obtain ⟨-, rfl⟩ := h
    exact absurd rfl (hb' rfl)
  case cr.crlf =>
    obtain ⟨-, rfl⟩ := h
    exact absurd rfl (hb rfl)
  all_goals simp_all

/-- There is only one way to break a text into lines. -/
lemma BreaksInto.unique {cs : List Char} {lines lines' : List Line} (h : BreaksInto cs lines)
    (h' : BreaksInto cs lines') : lines = lines' := by
  induction h generalizing lines' with
  | @last content plain =>
    generalize htext : content = cs at h'
    cases h' with
    | last => rfl
    | line b => exact absurd (htext ▸ plain) (not_plain_break b)
  | line b plain whole _ ih =>
    generalize htext : _ ++ (b.chars ++ _) = cs at h'
    cases h' with
    | last plain' => exact absurd (htext ▸ plain') (not_plain_break b)
    | line b' plain' whole' after' =>
      have hcontent := congrArg (List.takeWhile fun c => !isLineBreak c) htext
      rw [takeWhile_content plain, takeWhile_content plain'] at hcontent
      subst hcontent
      obtain ⟨rfl, rfl⟩ := Break.chars_append_inj whole whole' (List.append_cancel_left htext)
      rw [ih after']

/-! ## Their lengths -/

lemma lineLengths_plain {content : List Char} (h : Plain content) (n : Nat) (cs : List Char) :
    lineLengths n (content ++ cs) = lineLengths (n + content.length) cs := by
  induction content generalizing n with
  | nil => rfl
  | cons c content ih =>
    have hc := h.isLineBreak_eq
    rw [List.cons_append, lineLengths, if_neg (by simp [hc]), ih h.tail, List.length_cons]
    · congr 1
      omega
    · rintro _ rfl -
      exact absurd hc (by decide)

lemma lineLengths_break {b : Break} {rest : List Char} (whole : b = .cr → rest.head? ≠ some '\n') (n : Nat) :
    lineLengths n (b.chars ++ rest) = (n + b.chars.length) :: lineLengths 0 rest := by
  cases b with
  | cr =>
    rw [Break.chars, List.singleton_append, lineLengths, if_pos (by decide)]
    · rfl
    · rintro after - rfl
      exact whole rfl rfl
  | _ => rfl

/-- The lengths that are kept of a text are those of its lines. -/
lemma lineLengths_of_breaksInto {cs : List Char} {lines : List Line} (h : BreaksInto cs lines) :
    lineLengths 0 cs = lines.map Line.length := by
  induction h with
  | @last content plain =>
    have hlength := lineLengths_plain plain 0 []
    rw [List.append_nil] at hlength
    simp [hlength, lineLengths, Line.length, Line.chars]
  | line b plain whole _ ih =>
    rw [lineLengths_plain plain, lineLengths_break whole, ih]
    simp [Line.length, Line.chars]

namespace BreaksInto

variable {cs : List Char} {lines : List Line}

/-- The lines hold the whole text. -/
lemma flatMap_chars (h : BreaksInto cs lines) : lines.flatMap Line.chars = cs := by
  induction h with
  | last plain => simp [Line.chars]
  | line b plain whole _ ih => simp [Line.chars, ih]

lemma ne_nil (h : BreaksInto cs lines) : lines ≠ [] := by
  cases h <;> exact List.cons_ne_nil _ _

/-- Every line but the last one has a break. -/
lemma isSome_ending_iff (h : BreaksInto cs lines) {k : Nat} {line : Line} (hk : lines[k]? = some line) :
    line.ending.isSome = true ↔ k + 1 < lines.length := by
  induction h generalizing k with
  | last plain =>
    cases k with
    | zero =>
      obtain rfl := Option.some.inj hk
      simp
    | succ k => simp at hk
  | @line content rest lines b plain whole after ih =>
    cases k with
    | zero =>
      obtain rfl := Option.some.inj hk
      simpa using List.length_pos_iff.mpr after.ne_nil
    | succ k => rw [ih (by simpa using hk), List.length_cons, Nat.add_lt_add_iff_right]

end BreaksInto

end Switchboard.Text
