import Switchboard.Channel.Frame
import Switchboard.Proofs.Text.Pieces
import Switchboard.Proofs.Text.Utf8

/-!
# The grammar of frames

* `Frame.Field`: a header line, that is a line of text with a colon; `Field.IsLength`: it carries a body length;
* `Frame.Heading`: blank lines, header lines and the blank line that ends them; `Heading.Announces`: the length
  that counts;
* `Frame.IsFrame`, `Frame.Overwhelms`: a whole frame at the beginning of a stream, and a header that asks for more
  than there is room for;
* `Frame.reads_grammar`: what reading from a stream that has ended gives, for every stream.
-/

namespace Switchboard.Frame

/-! ## Lines -/

/-- A byte of a line break. -/
def IsBreak (b : UInt8) : Prop := b = 0x0D ∨ b = 0x0A

/-- A blank line: a line feed, with carriage returns before it. -/
def blankLine (returns : Nat) : List UInt8 := List.replicate returns 0x0D ++ [0x0A]

lemma isBreak_of_mem_blankLine {returns : Nat} {b : UInt8} (h : b ∈ blankLine returns) : IsBreak b := by
  rcases List.mem_append.mp h with h | h
  · exact .inl (List.eq_of_mem_replicate h)
  · exact .inr (List.mem_singleton.mp h)

lemma cutLine_append {inner : List UInt8} (h : 0x0A ∉ inner) (rest : List UInt8) :
    cutLine (inner ++ [0x0A] ++ rest) = some (inner ++ [0x0A], rest) := by
  induction inner with
  | nil => rfl
  | cons b inner ih =>
    have hb : b ≠ 0x0A := fun heq => h (heq ▸ List.mem_cons_self)
    have hinner : 0x0A ∉ inner := fun hmem => h (List.mem_cons_of_mem b hmem)
    rw [List.cons_append, List.cons_append, cutLine, if_neg hb, ih hinner]
    rfl

/-- A line feed ends a line, and only there. -/
lemma cutLine_eq_some {bytes line rest : List UInt8} (h : cutLine bytes = some (line, rest)) :
    ∃ inner, line = inner ++ [0x0A] ∧ 0x0A ∉ inner ∧ bytes = line ++ rest := by
  induction bytes generalizing line rest with
  | nil => cases h
  | cons b bytes ih =>
    rw [cutLine] at h
    split at h
    · next hb =>
      cases h
      exact ⟨[], by simp [hb]⟩
    · next hb =>
      simp only [Option.map_eq_some_iff, Prod.mk.injEq] at h
      obtain ⟨⟨line', rest'⟩, hcut, rfl, rfl⟩ := h
      obtain ⟨inner, rfl, hinner, rfl⟩ := ih hcut
      refine ⟨b :: inner, rfl, ?_, rfl⟩
      simp [Ne.symm hb, hinner]

lemma cutLine_eq_none {bytes : List UInt8} : cutLine bytes = none ↔ 0x0A ∉ bytes := by
  constructor
  · intro h hmem
    obtain ⟨inner, rest, rfl, hinner⟩ := List.eq_append_cons_of_mem hmem
    have hcut := cutLine_append hinner rest
    rw [List.append_assoc, List.singleton_append, h] at hcut
    cases hcut
  · intro h
    cases hcut : cutLine bytes with
    | none => rfl
    | some r =>
      obtain ⟨line, rest⟩ := r
      obtain ⟨inner, hline, -, hbytes⟩ := cutLine_eq_some hcut
      exact absurd (by simp [hbytes, hline]) h

/-! ## Header lines -/

/-- A header line: text with a colon, the key before it and the value behind it. -/
structure Field where
  key : String
  /-- Up to the line feed. -/
  value : String
  keyed : ':' ∉ key.toList
  oneLine : '\n' ∉ key.toList ∧ '\n' ∉ value.toList

namespace Field

/-- The line without its line feed. -/
def text (f : Field) : String := f.key ++ ":" ++ f.value

def bytes (f : Field) : List UInt8 := Utf8.encode f.text ++ [0x0A]

/-- Does the line carry a body length? -/
def IsLength (f : Field) : Prop := Text.sameLetters (Text.trim f.key) lengthKey = true

instance (f : Field) : Decidable f.IsLength := inferInstanceAs (Decidable (_ = _))

/-- The length that the line carries. -/
def Carries (f : Field) (n : Nat) : Prop := Text.IsNumber 0x10000000000000000 (Text.trim f.value) n

end Field

lemma encode_lineFeed : Utf8.encode "\n" = [0x0A] := by
  rw [Utf8.encode_eq]
  rfl

lemma mem_encode_lineFeed {s : String} : 0x0A ∈ Utf8.encode s ↔ '\n' ∈ s.toList :=
  Utf8.mem_encode (d := '\n') (by decide)

/-- Breaks are written as breaks. -/
lemma encode_breaks {s : String} (h : ∀ b ∈ Utf8.encode s, IsBreak b) : ∀ c ∈ s.toList, breaksLine c = true := by
  intro c hc
  rw [Utf8.encode_eq] at h
  obtain ⟨b, hb⟩ := List.exists_mem_of_ne_nil _ (String.utf8EncodeChar_ne_nil (c := c))
  have hbreak := h b (List.mem_flatMap.mpr ⟨c, hc, hb⟩)
  rcases hbreak with rfl | rfl
  · simp [breaksLine, (Utf8.mem_encodeChar (d := '\r') (by decide)).mp hb]
  · simp [breaksLine, (Utf8.mem_encodeChar (d := '\n') (by decide)).mp hb]

lemma isBreak_of_encode {s : String} (h : ∀ c ∈ s.toList, breaksLine c = true) : ∀ b ∈ Utf8.encode s, IsBreak b := by
  intro b hb
  rw [Utf8.encode_eq] at hb
  obtain ⟨c, hc, hb⟩ := List.mem_flatMap.mp hb
  have hbreak := h c hc
  simp only [breaksLine, Bool.or_eq_true, decide_eq_true_eq] at hbreak
  rcases hbreak with rfl | rfl
  · exact .inl (List.mem_singleton.mp hb)
  · exact .inr (List.mem_singleton.mp hb)

lemma exists_text_of_breaks {line : List UInt8} (h : ∀ b ∈ line, IsBreak b) : ∃ s, line = Utf8.encode s := by
  induction line with
  | nil => exact ⟨"", by simp⟩
  | cons b line ih =>
    obtain ⟨s, rfl⟩ := ih fun d hd => h d (List.mem_cons_of_mem b hd)
    have hb : ∃ t, [b] = Utf8.encode t := by
      rcases h b List.mem_cons_self with rfl | rfl
      · exact ⟨"\r", by rw [Utf8.encode_eq]; rfl⟩
      · exact ⟨"\n", encode_lineFeed.symm⟩
    obtain ⟨t, ht⟩ := hb
    exact ⟨t ++ s, by rw [Utf8.encode_append, ← ht, List.singleton_append]⟩

/-- Lines of nothing but breaks are blank, and no others. -/
lemma readLine_eq_blank {line : List UInt8} : readLine line = .ok none ↔ ∀ b ∈ line, IsBreak b := by
  constructor
  · intro h
    unfold readLine at h
    split at h
    · cases h
    · next text htext =>
      obtain rfl := Utf8.decode_eq_ok.mp htext
      dsimp only at h
      split at h
      · next hempty => exact isBreak_of_encode (Text.trimEndOf_eq_empty.mp hempty)
      · cases hheader : headerLine (Text.trimEndOf breaksLine text) with
        | error f => simp [hheader, Functor.map, Except.map] at h
        | ok carried => simp [hheader, Functor.map, Except.map] at h
  · intro h
    obtain ⟨s, rfl⟩ := exists_text_of_breaks h
    have hempty := Text.trimEndOf_eq_empty.mpr (encode_breaks h)
    unfold readLine
    rw [Utf8.decode_eq_ok.mpr rfl]
    simp only [hempty]
    rfl

lemma isBlank_of_breaksLine (c : Char) (h : breaksLine c = true) : Text.isBlank c = true := by
  simp only [breaksLine, Bool.or_eq_true, decide_eq_true_eq] at h
  rcases h with rfl | rfl
  · decide
  · decide

namespace Field

variable (f : Field)

lemma bytes_eq : f.bytes = Utf8.encode (f.key ++ ":" ++ (f.value ++ "\n")) := by
  simp only [bytes, text, Utf8.encode_append, encode_lineFeed, List.append_assoc]

lemma lineFeed_notMem : 0x0A ∉ Utf8.encode f.text := by
  rw [mem_encode_lineFeed]
  simp [text, f.oneLine]

/-- The line is read as its key with a value that is the same but for breaks. -/
lemma readLine_bytes : ∃ value, Text.trim value = Text.trim f.value ∧
    Text.cutAt ':' (f.key ++ ":" ++ value) = some (f.key, value) ∧
    readLine f.bytes = some <$> headerLine (f.key ++ ":" ++ value) := by
  have hcolon : breaksLine ':' = false := by decide
  have htrim : Text.trimEndOf breaksLine (f.key ++ ":" ++ (f.value ++ "\n"))
      = f.key ++ ":" ++ Text.trimEndOf breaksLine (f.value ++ "\n") := Text.trimEndOf_kept hcolon _ _
  have hne : f.key ++ ":" ++ Text.trimEndOf breaksLine (f.value ++ "\n") ≠ "" := by
    intro h
    have hlist := congrArg String.toList h
    simp at hlist
  have hvalue : Text.trim (Text.trimEndOf breaksLine (f.value ++ "\n")) = Text.trim f.value := by
    have hbreak : "\n" = String.ofList ['\n'] := rfl
    have hblank : ∀ c ∈ ['\n'], Text.isBlank c = true := by simpa using isBlank_of_breaksLine '\n' (by decide)
    rw [Text.trim_trimEndOf isBlank_of_breaksLine, hbreak, Text.trim_append hblank]
  refine ⟨_, hvalue, Text.cutAt_append f.keyed _, ?_⟩
  unfold readLine
  rw [bytes_eq, Utf8.decode_eq_ok.mpr rfl]
  simp only [htrim, if_neg hne]

variable {f}

lemma readLine_other (h : ¬ f.IsLength) : readLine f.bytes = .ok (some none) := by
  obtain ⟨value, -, hcut, hread⟩ := f.readLine_bytes
  have hkey : ¬ Text.sameLetters (Text.trim f.key) lengthKey = true := h
  rw [hread, headerLine, hcut]
  simp only [if_neg hkey]
  rfl

lemma readLine_length (h : f.IsLength) {n : Nat} (hn : f.Carries n) : readLine f.bytes = .ok (some (some n)) := by
  obtain ⟨value, hvalue, hcut, hread⟩ := f.readLine_bytes
  have hkey : Text.sameLetters (Text.trim f.key) lengthKey = true := h
  rw [hread, headerLine, hcut]
  simp only [if_pos hkey, hvalue, Text.unsigned?_eq_some.mpr hn]
  rfl

lemma readLine_bad (h : f.IsLength) (hn : ∀ n, ¬ f.Carries n) : ∃ fault, readLine f.bytes = .error fault := by
  obtain ⟨value, hvalue, hcut, hread⟩ := f.readLine_bytes
  have hnone : Text.unsigned? 0x10000000000000000 (Text.trim f.value) = none := by
    cases hsome : Text.unsigned? 0x10000000000000000 (Text.trim f.value) with
    | none => rfl
    | some n => exact absurd (Text.unsigned?_eq_some.mp hsome) (hn n)
  refine ⟨.badLength (Text.trim f.value), ?_⟩
  have hkey : Text.sameLetters (Text.trim f.key) lengthKey = true := h
  rw [hread, headerLine, hcut]
  simp only [if_pos hkey, hvalue, hnone]
  rfl

/-- A line has one length at most. -/
lemma Carries.unique {n m : Nat} (hn : f.Carries n) (hm : f.Carries m) : n = m := by
  have hsame := (Text.unsigned?_eq_some.mpr hn).symm.trans (Text.unsigned?_eq_some.mpr hm)
  exact Option.some.inj hsame

end Field

/-- A line of text without a colon is no header line. -/
lemma readLine_no_colon {line : String} (hcolon : ':' ∉ line.toList) {carried : Option Nat} :
    readLine (Utf8.encode line) ≠ .ok (some carried) := by
  intro h
  obtain ⟨cs, -, hline⟩ := Text.exists_trimEndOf breaksLine line
  have htrimmed : ':' ∉ (Text.trimEndOf breaksLine line).toList := by
    intro hmem
    rw [hline, String.toList_append] at hcolon
    exact hcolon (List.mem_append_left _ hmem)
  unfold readLine at h
  rw [Utf8.decode_eq_ok.mpr rfl] at h
  simp only [headerLine, Text.cutAt_eq_none htrimmed] at h
  split at h
  · cases h
  · cases h

/-- A line that is read as a header line is one. -/
lemma exists_field {inner : List UInt8} (hinner : 0x0A ∉ inner) {carried : Option Nat}
    (h : readLine (inner ++ [0x0A]) = .ok (some carried)) : ∃ f : Field, inner ++ [0x0A] = f.bytes := by
  have hread : ∃ line, inner ++ [0x0A] = Utf8.encode line := by
    unfold readLine at h
    split at h
    · cases h
    · next line hdecode => exact ⟨line, Utf8.decode_eq_ok.mp hdecode⟩
  obtain ⟨line, hline⟩ := hread
  have hlast : '\n' ∈ line.toList := mem_encode_lineFeed.mp (by simp [← hline])
  obtain ⟨text, after, htext, rfl⟩ := Text.exists_of_mem hlast
  -- the first line feed is the last byte
  have hbytes : Utf8.encode text ++ [0x0A] ++ Utf8.encode after = inner ++ [0x0A] ++ [] := by
    rw [List.append_nil, hline, Utf8.encode_append, Utf8.encode_append, ← encode_lineFeed]
    rfl
  have hnone : 0x0A ∉ Utf8.encode text := fun hmem => htext (mem_encode_lineFeed.mp hmem)
  have hcut := cutLine_append hnone (Utf8.encode after)
  rw [hbytes, cutLine_append hinner] at hcut
  obtain ⟨hsame, -⟩ := Prod.mk.inj (Option.some.inj hcut)
  have hcolon : ':' ∈ text.toList := by
    by_contra hno
    have hwhole : inner ++ [0x0A] = Utf8.encode (text ++ "\n") := by
      rw [hsame, Utf8.encode_append, encode_lineFeed]
    rw [hwhole] at h
    exact readLine_no_colon (by simpa using hno) h
  obtain ⟨key, value, hkey, rfl⟩ := Text.exists_of_mem hcolon
  have hkeyLine : '\n' ∉ key.toList := fun hmem => htext (by simp [hmem])
  have hvalueLine : '\n' ∉ value.toList := fun hmem => htext (by simp [hmem])
  exact ⟨⟨key, value, hkey, hkeyLine, hvalueLine⟩, hsame⟩

/-! ## Headers -/

/-- Blank lines, header lines, and the blank line that ends them. -/
structure Heading where
  /-- The blank lines, by their carriage returns. -/
  blanks : List Nat
  fields : List Field
  present : fields ≠ []
  /-- The carriage returns of the last line. -/
  stop : Nat

namespace Heading

/-- Everything before the last line. -/
def lines (h : Heading) : List UInt8 := h.blanks.flatMap blankLine ++ h.fields.flatMap Field.bytes

def bytes (h : Heading) : List UInt8 := h.lines ++ blankLine h.stop

/-- Every header line that carries a length says some, and the last one of them says `n`. -/
structure Announces (h : Heading) (n : Nat) : Prop where
  sound : ∀ f ∈ h.fields, f.IsLength → ∃ m, f.Carries m
  last : ∃ f, (h.fields.filter (·.IsLength)).getLast? = some f ∧ f.Carries n

end Heading

/-- What counting lengths over header lines comes to: every later one counts in place of the earlier ones. -/
inductive Counts : Option Nat → List Field → Option Nat → Prop
  | nil (l : Option Nat) : Counts l [] l
  | other {l m : Option Nat} {f : Field} {fields : List Field} :
      ¬ f.IsLength → Counts l fields m → Counts l (f :: fields) m
  | length {l m : Option Nat} {f : Field} {fields : List Field} {n : Nat} :
      f.IsLength → f.Carries n → Counts (some n) fields m → Counts l (f :: fields) m

namespace Counts

variable {l m : Option Nat} {fields : List Field}

lemma sound (h : Counts l fields m) : ∀ f ∈ fields, f.IsLength → ∃ n, f.Carries n := by
  induction h with
  | nil => simp
  | other hf _ ih =>
    intro g hg hlength
    rcases List.mem_cons.mp hg with rfl | hg
    · exact absurd hlength hf
    · exact ih g hg hlength
  | length hf hn _ ih =>
    intro g hg hlength
    rcases List.mem_cons.mp hg with rfl | hg
    · exact ⟨_, hn⟩
    · exact ih g hg hlength

/-- The last length counts, and the one before if there is none. -/
lemma last (h : Counts l fields m) :
    (fields.filter (·.IsLength) = [] ∧ m = l) ∨
      ∃ f n, (fields.filter (·.IsLength)).getLast? = some f ∧ f.Carries n ∧ m = some n := by
  induction h with
  | nil => exact .inl ⟨rfl, rfl⟩
  | other hf _ ih =>
    rw [List.filter_cons_of_neg (by simpa using hf)]
    exact ih
  | @length l m f fields n hf hn _ ih =>
    rw [List.filter_cons_of_pos (by simpa using hf), List.getLast?_cons]
    right
    rcases ih with ⟨hnone, rfl⟩ | ⟨g, k, hg, hk, rfl⟩
    · exact ⟨f, n, by rw [hnone]; rfl, hn, rfl⟩
    · exact ⟨g, k, by rw [hg]; rfl, hk, rfl⟩

/-- Header lines without a bad length can be counted over. -/
lemma exists_of_sound (h : ∀ f ∈ fields, f.IsLength → ∃ n, f.Carries n) (l : Option Nat) : ∃ m, Counts l fields m := by
  induction fields generalizing l with
  | nil => exact ⟨l, .nil l⟩
  | cons f fields ih =>
    have hrest : ∀ g ∈ fields, g.IsLength → ∃ n, g.Carries n := fun g hg => h g (List.mem_cons_of_mem f hg)
    by_cases hf : f.IsLength
    · obtain ⟨n, hn⟩ := h f List.mem_cons_self hf
      obtain ⟨m, hm⟩ := ih hrest (some n)
      exact ⟨m, .length hf hn hm⟩
    · obtain ⟨m, hm⟩ := ih hrest l
      exact ⟨m, .other hf hm⟩

end Counts

namespace Heading

variable {h : Heading} {n : Nat}

lemma announces_iff : h.Announces n ↔ Counts none h.fields (some n) := by
  constructor
  · intro hann
    obtain ⟨m, hm⟩ := Counts.exists_of_sound hann.sound none
    obtain ⟨f, hf, hn⟩ := hann.last
    rcases hm.last with ⟨hnone, -⟩ | ⟨g, k, hg, hk, rfl⟩
    · rw [hnone] at hf
      cases hf
    · obtain rfl := Option.some.inj (hg.symm.trans hf)
      rw [hn.unique hk]
      exact hm
  · intro hcounts
    refine ⟨hcounts.sound, ?_⟩
    rcases hcounts.last with ⟨-, hnone⟩ | ⟨f, k, hf, hk, hsome⟩
    · cases hnone
    · obtain rfl := Option.some.inj hsome
      exact ⟨f, hf, hk⟩

end Heading

/-! ## Reading headers -/

section Header

variable {ended : Bool} {l m : Option Nat}

lemma header_of_cutLine {seen : Bool} {s line rest : List UInt8} (h : cutLine s = some (line, rest)) :
    header ended seen l s =
      match readLine line with
      | .error f => .failed f
      | .ok none => if seen then .complete l rest else header ended seen l rest
      | .ok (some carried) => header ended true (carried <|> l) rest := by
  rw [header.eq_def]
  split
  · next line' rest' hcut =>
    obtain ⟨rfl, rfl⟩ := Prod.mk.inj (Option.some.inj (hcut.symm.trans h))
    rfl
  · next hcut =>
    rw [h] at hcut
    cases hcut

lemma header_line {inner : List UInt8} (hinner : 0x0A ∉ inner) {carried : Option Nat}
    (hread : readLine (inner ++ [0x0A]) = .ok (some carried)) (seen : Bool) (rest : List UInt8) :
    header ended seen l (inner ++ [0x0A] ++ rest) = header ended true (carried <|> l) rest := by
  rw [header_of_cutLine (cutLine_append hinner rest), hread]

lemma header_blankLine (returns : Nat) (seen : Bool) (rest : List UInt8) :
    header ended seen l (blankLine returns ++ rest) = if seen then .complete l rest else header ended seen l rest := by
  have hcut : cutLine (blankLine returns ++ rest) = some (blankLine returns, rest) := cutLine_append (by simp) rest
  have hblank : readLine (blankLine returns) = .ok none := readLine_eq_blank.mpr fun _ => isBreak_of_mem_blankLine
  rw [header_of_cutLine hcut, hblank]

lemma header_blankLines (blanks : List Nat) (rest : List UInt8) :
    header ended false l (blanks.flatMap blankLine ++ rest) = header ended false l rest := by
  induction blanks with
  | nil => rfl
  | cons returns blanks ih =>
    rw [List.flatMap_cons, List.append_assoc, header_blankLine]
    exact ih

lemma header_fields {fields : List Field} (h : Counts l fields m) (rest : List UInt8) :
    header ended true l (fields.flatMap Field.bytes ++ rest) = header ended true m rest := by
  induction h with
  | nil => rfl
  | @other l m f fields hf _ ih =>
    rw [List.flatMap_cons, List.append_assoc]
    exact (header_line f.lineFeed_notMem (Field.readLine_other hf) true _).trans ih
  | @length l m f fields n hf hn _ ih =>
    rw [List.flatMap_cons, List.append_assoc]
    exact (header_line f.lineFeed_notMem (Field.readLine_length hf hn) true _).trans ih

/-- The first header line is read as the others are. -/
lemma header_seen {fields : List Field} (h : Counts l fields m) (hne : fields ≠ []) (rest : List UInt8) :
    header ended false l (fields.flatMap Field.bytes ++ rest)
      = header ended true l (fields.flatMap Field.bytes ++ rest) := by
  cases h with
  | nil => exact absurd rfl hne
  | @other l m f fields hf _ =>
    have hcarries := Field.readLine_other hf
    rw [List.flatMap_cons, List.append_assoc]
    exact (header_line f.lineFeed_notMem hcarries false _).trans (header_line f.lineFeed_notMem hcarries true _).symm
  | @length l m f fields n hf hn _ =>
    have hcarries := Field.readLine_length hf hn
    rw [List.flatMap_cons, List.append_assoc]
    exact (header_line f.lineFeed_notMem hcarries false _).trans (header_line f.lineFeed_notMem hcarries true _).symm

/-- Up to the last line of a heading. -/
lemma header_lines {h : Heading} (hcounts : Counts none h.fields m) (rest : List UInt8) :
    header ended false none (h.lines ++ rest) = header ended true m rest := by
  rw [Heading.lines, List.append_assoc, header_blankLines, header_seen hcounts h.present, header_fields hcounts]

/-- A stream may end within the last line, behind a carriage return. -/
lemma header_returns {k : Nat} (hk : 0 < k) : header true true l (List.replicate k 0x0D) = .complete l [] := by
  have hnone : cutLine (List.replicate k 0x0D) = none := cutLine_eq_none.mpr (by simp)
  have hread : readLine (List.replicate k 0x0D) = .ok none :=
    readLine_eq_blank.mpr fun b hb => .inl (List.eq_of_mem_replicate hb)
  have hsome : (List.replicate k (0x0D : UInt8)).isEmpty = false := by simp [Nat.ne_of_gt hk]
  rw [header.eq_def]
  split
  · next line after hcut =>
    rw [hnone] at hcut
    cases hcut
  · simp [hread, hsome]

/-- Lines that are blank consist of breaks. -/
lemma exists_blankLine {inner : List UInt8} (hinner : 0x0A ∉ inner) (h : readLine (inner ++ [0x0A]) = .ok none) :
    ∃ returns, inner ++ [0x0A] = blankLine returns := by
  refine ⟨inner.length, ?_⟩
  rw [blankLine]
  congr 1
  apply List.eq_replicate_of_mem
  intro b hb
  rcases readLine_eq_blank.mp h b (List.mem_append_left _ hb) with hreturn | rfl
  · exact hreturn
  · exact absurd hb hinner

/-- What stands before a header that was read to its end. -/
lemma exists_of_header {seen : Bool} {bytes rest : List UInt8} (h : header ended seen l bytes = .complete m rest) :
    ∃ blanks fields stop, (seen = true → blanks = []) ∧ (seen = false → fields ≠ []) ∧ Counts l fields m ∧
      (bytes = blanks.flatMap blankLine ++ fields.flatMap Field.bytes ++ blankLine stop ++ rest ∨
        ended = true ∧ rest = [] ∧ 0 < stop ∧
          bytes = blanks.flatMap blankLine ++ fields.flatMap Field.bytes ++ List.replicate stop 0x0D) := by
  fun_induction header ended seen l bytes with
  | case1 | case5 | case6 | case7 | case8 | case10 | case11 => cases h
  | case2 l bytes line tail hcut hline =>
    -- the blank line that ends the header
    cases h
    obtain ⟨inner, rfl, hinner, rfl⟩ := cutLine_eq_some hcut
    obtain ⟨returns, hblank⟩ := exists_blankLine hinner hline
    exact ⟨[], [], returns, by simp, by simp, .nil _, .inl (by simp [hblank])⟩
  | case3 seen l bytes line tail hcut hline hseen ih =>
    -- a blank line before the header
    obtain ⟨inner, rfl, hinner, rfl⟩ := cutLine_eq_some hcut
    obtain ⟨returns, hblank⟩ := exists_blankLine hinner hline
    obtain ⟨blanks, fields, stop, -, hfields, hcounts, hbytes⟩ := ih h
    refine ⟨returns :: blanks, fields, stop, fun hs => absurd hs hseen, hfields, hcounts, ?_⟩
    rcases hbytes with rfl | ⟨hended, hrest, hstop, rfl⟩
    · exact .inl (by simp [hblank])
    · exact .inr ⟨hended, hrest, hstop, by simp [hblank]⟩
  | case4 seen l bytes line tail hcut carried hline ih =>
    -- a header line
    obtain ⟨inner, rfl, hinner, rfl⟩ := cutLine_eq_some hcut
    obtain ⟨f, hf⟩ := exists_field hinner hline
    obtain ⟨blanks, fields, stop, hblanks, -, hcounts, hbytes⟩ := ih h
    obtain rfl := hblanks rfl
    refine ⟨[], f :: fields, stop, fun _ => rfl, by simp, ?_, ?_⟩
    · rw [hf] at hline
      by_cases hlength : f.IsLength
      · by_cases hcarries : ∃ n, f.Carries n
        · obtain ⟨n, hn⟩ := hcarries
          rw [Field.readLine_length hlength hn] at hline
          obtain rfl := Option.some.inj (Except.ok.inj hline)
          exact .length hlength hn hcounts
        · obtain ⟨fault, hbad⟩ := Field.readLine_bad hlength (not_exists.mp hcarries)
          rw [hbad] at hline
          cases hline
      · rw [Field.readLine_other hlength] at hline
        obtain rfl := Option.some.inj (Except.ok.inj hline)
        exact .other hlength hcounts
    · rcases hbytes with rfl | ⟨hended, hrest, hstop, rfl⟩
      · exact .inl (by simp [hf])
      · exact .inr ⟨hended, hrest, hstop, by simp [hf]⟩
  | case9 l bytes hcut hended hsome hline =>
    -- the stream ends within the last line
    cases h
    have hreturns : bytes = List.replicate bytes.length 0x0D := by
      apply List.eq_replicate_of_mem
      intro b hb
      rcases readLine_eq_blank.mp hline b hb with hreturn | rfl
      · exact hreturn
      · exact absurd hb (cutLine_eq_none.mp hcut)
    refine ⟨[], [], bytes.length, by simp, by simp, .nil _, .inr ?_⟩
    refine ⟨by simpa using hended, rfl, ?_, by simpa using hreturns⟩
    exact List.length_pos_iff.mpr (by simpa using hsome)

/-- A line of a stream of breaks is blank. -/
lemma readLine_of_cutLine {bytes line rest : List UInt8} (hcut : cutLine bytes = some (line, rest))
    (h : ∀ b ∈ bytes, IsBreak b) : readLine line = .ok none ∧ ∀ b ∈ rest, IsBreak b := by
  obtain ⟨inner, -, -, rfl⟩ := cutLine_eq_some hcut
  exact ⟨readLine_eq_blank.mpr fun b hb => h b (List.mem_append_left _ hb),
    fun b hb => h b (List.mem_append_right _ hb)⟩

/-- Breaks up to the end are no header. -/
lemma header_of_breaks {bytes : List UInt8} (h : ∀ b ∈ bytes, IsBreak b) : header true false l bytes = .finished := by
  induction hk : bytes.length using Nat.strong_induction_on generalizing bytes with
  | _ k ih =>
    rw [header.eq_def]
    split
    · next line rest hcut =>
      obtain ⟨hline, hrest⟩ := readLine_of_cutLine hcut h
      rw [hline]
      exact ih _ (hk ▸ cutLine_length hcut) hrest rfl
    · rw [readLine_eq_blank.mpr h]
      simp

lemma header_seen_ne_finished {bytes : List UInt8} : header ended true l bytes ≠ .finished := by
  intro h
  generalize hseen : true = seen at h
  fun_induction header ended seen l bytes with
  | case1 | case2 | case5 | case6 | case8 | case9 | case11 => cases h
  | case3 seen l bytes line tail hcut hline hnot ih => exact hnot hseen.symm
  | case4 seen l bytes line tail hcut carried hline ih => exact ih rfl h
  | case7 seen l bytes hcut hended hempty hnot => exact hnot hseen.symm
  | case10 seen l bytes hcut hended hempty hline hnot => exact hnot hseen.symm

/-- Nothing but breaks is left out when no header is found. -/
lemma breaks_of_header {seen : Bool} {bytes : List UInt8} (h : header ended seen l bytes = .finished) :
    ended = true ∧ ∀ b ∈ bytes, IsBreak b := by
  fun_induction header ended seen l bytes with
  | case1 | case2 | case5 | case6 | case8 | case9 | case11 => cases h
  | case3 seen l bytes line tail hcut hline hseen ih =>
    obtain ⟨inner, -, -, rfl⟩ := cutLine_eq_some hcut
    obtain ⟨hended, hrest⟩ := ih h
    refine ⟨hended, fun b hb => ?_⟩
    rcases List.mem_append.mp hb with hb | hb
    · exact readLine_eq_blank.mp hline b hb
    · exact hrest b hb
  | case4 seen l bytes line tail hcut carried hline ih =>
    -- behind a header line the stream does not end well
    exact absurd h header_seen_ne_finished
  | case7 seen l bytes hcut hended hempty =>
    exact ⟨by simpa using hended, by simp [List.isEmpty_iff.mp hempty]⟩
  | case10 seen l bytes hcut hended hempty hline => exact ⟨by simpa using hended, readLine_eq_blank.mp hline⟩

/-- Only a stream that goes on leaves a header open. -/
lemma ended_of_starved {seen : Bool} {bytes : List UInt8} (h : header ended seen l bytes = .starved) :
    ended = false := by
  fun_induction header ended seen l bytes with
  | case1 | case2 | case6 | case7 | case8 | case9 | case10 | case11 => cases h
  | case3 seen l bytes line tail hcut hline hseen ih => exact ih h
  | case4 seen l bytes line tail hcut carried hline ih => exact ih h
  | case5 seen l bytes hcut hended => simpa using hended

end Header

/-! ## Frames -/

/-- A whole frame at the beginning of a stream, what it says, and what is left unread. -/
def IsFrame (room : Room) (s : List UInt8) (message : Json) (rest : List UInt8) : Prop :=
  ∃ (h : Heading) (body : List UInt8), s = h.bytes ++ body ++ rest ∧ h.Announces body.length ∧ body.length ≤ room.bytes ∧
    Json.readBytes? ⟨body.toArray⟩ = some message

/-- A header, up to its last line or into it, that asks for more than there is room for. -/
def Overwhelms (room : Room) (s : List UInt8) : Prop :=
  ∃ (h : Heading) (n : Nat), h.Announces n ∧ room.bytes < n ∧
    (h.bytes <+: s ∨ 0 < h.stop ∧ s = h.lines ++ List.replicate h.stop 0x0D)

section Next

variable {room : Room} {ended : Bool} {s rest : List UInt8} {message : Json} {n : Nat}

lemma header_of_heading {h : Heading} (hann : h.Announces n) (rest : List UInt8) :
    header ended false none (h.bytes ++ rest) = .complete (some n) rest := by
  rw [Heading.bytes, List.append_assoc, header_lines (Heading.announces_iff.mp hann), header_blankLine]
  rfl

/-- The header that was read, which the end of the stream may have cut off. -/
lemma exists_heading (hheader : header ended false none s = .complete (some n) rest) :
    ∃ h : Heading, h.Announces n ∧
      (s = h.bytes ++ rest ∨ ended = true ∧ rest = [] ∧ 0 < h.stop ∧ s = h.lines ++ List.replicate h.stop 0x0D) := by
  obtain ⟨blanks, fields, stop, -, hfields, hcounts, hbytes⟩ := exists_of_header hheader
  refine ⟨⟨blanks, fields, hfields rfl, stop⟩, Heading.announces_iff.mpr hcounts, ?_⟩
  simpa [Heading.bytes, Heading.lines] using hbytes

/-- What is made of a header that was read. -/
lemma next_of_header (hheader : header ended false none s = .complete (some n) rest) :
    next room ended s =
      if room.bytes < n then .overwhelmed
      else if rest.length < n then if ended then .failed .endedInBody else .starved
      else (Json.readBytes? ⟨(rest.take n).toArray⟩).elim (.failed .badBody) (.frame · (rest.drop n)) := by
  rw [next, hheader]
  dsimp only
  cases Json.readBytes? ⟨(rest.take n).toArray⟩ <;> rfl

/-- There is a header behind every frame, and behind every breakdown. -/
lemma exists_header (h : (∃ message rest, next room ended s = .frame message rest) ∨ next room ended s = .overwhelmed) :
    ∃ n rest, header ended false none s = .complete (some n) rest := by
  unfold next at h
  split at h
  · simp at h
  · simp at h
  · simp at h
  · simp at h
  · next n rest hheader => exact ⟨n, rest, hheader⟩

lemma readBytes?_nil : Json.readBytes? ⟨#[]⟩ = none := by decide

/-- A frame is read exactly where one stands. -/
lemma next_eq_frame : next room ended s = .frame message rest ↔ IsFrame room s message rest := by
  constructor
  · intro h
    obtain ⟨n, tail, hheader⟩ := exists_header (.inl ⟨message, rest, h⟩)
    rw [next_of_header hheader] at h
    split at h
    · cases h
    · next hroom =>
      split at h
      · split at h <;> cases h
      · next henough =>
        cases hread : Json.readBytes? ⟨(tail.take n).toArray⟩ with
        | none =>
          rw [hread] at h
          cases h
        | some read =>
          rw [hread] at h
          obtain ⟨rfl, rfl⟩ := Reading.frame.inj h
          obtain ⟨heading, hann, rfl | ⟨-, rfl, -, -⟩⟩ := exists_heading hheader
          · have hlength : (tail.take n).length = n := List.length_take_of_le (Nat.not_lt.mp henough)
            refine ⟨heading, tail.take n, by simp, ?_, ?_, hread⟩
            · rwa [hlength]
            · rw [hlength]
              exact Nat.not_lt.mp hroom
          · -- no body is left where the stream ends in the header
            rw [List.take_nil, readBytes?_nil] at hread
            cases hread
  · rintro ⟨heading, body, rfl, hann, hroom, hread⟩
    rw [List.append_assoc, next_of_header (header_of_heading hann _), if_neg (Nat.not_lt.mpr hroom), if_neg (by simp)]
    simp [hread]

lemma next_eq_finished : next room ended s = .finished ↔ ended = true ∧ ∀ b ∈ s, IsBreak b := by
  constructor
  · intro h
    unfold next at h
    split at h
    · next hheader => exact breaks_of_header hheader
    · cases h
    · cases h
    · cases h
    · split at h
      · cases h
      · split at h
        · split at h <;> cases h
        · split at h <;> cases h
  · rintro ⟨rfl, h⟩
    rw [next, header_of_breaks h]

/-- Reading breaks down exactly over a header that asks for too much. -/
lemma next_eq_overwhelmed : next room true s = .overwhelmed ↔ Overwhelms room s := by
  constructor
  · intro h
    obtain ⟨n, rest, hheader⟩ := exists_header (.inr h)
    have hroom : room.bytes < n := by
      rw [next_of_header hheader] at h
      by_contra hle
      rw [if_neg hle] at h
      split at h
      · split at h <;> cases h
      · cases hread : Json.readBytes? ⟨(rest.take n).toArray⟩ <;> rw [hread] at h <;> cases h
    obtain ⟨heading, hann, rfl | ⟨-, -, hstop, rfl⟩⟩ := exists_heading hheader
    · exact ⟨heading, n, hann, hroom, .inl (List.prefix_append _ _)⟩
    · exact ⟨heading, n, hann, hroom, .inr ⟨hstop, rfl⟩⟩
  · rintro ⟨heading, n, hann, hroom, ⟨rest, rfl⟩ | ⟨hstop, rfl⟩⟩
    · rw [next_of_header (header_of_heading hann rest), if_pos hroom]
    · have hheader : header true false none (heading.lines ++ List.replicate heading.stop 0x0D)
          = .complete (some n) [] := by
        rw [header_lines (Heading.announces_iff.mp hann), header_returns hstop]
      rw [next_of_header hheader, if_pos hroom]

lemma next_ne_starved : next room true s ≠ .starved := by
  intro h
  unfold next at h
  split at h
  · cases h
  · cases h
  · next hheader => exact absurd (ended_of_starved hheader) (by decide)
  · cases h
  · split at h
    · cases h
    · split at h
      · cases h
      · split at h <;> cases h

/-! ### Streams that go on -/

lemma cutLine_more {line rest : List UInt8} (h : cutLine s = some (line, rest)) (more : List UInt8) :
    cutLine (s ++ more) = some (line, rest ++ more) := by
  obtain ⟨inner, rfl, hinner, rfl⟩ := cutLine_eq_some h
  rw [List.append_assoc, cutLine_append hinner]

/-- What a header that was read leaves, with more behind it. -/
def Header.more (t : List UInt8) : Header → Header
  | .complete l rest => .complete l (rest ++ t)
  | h => h

/-- What is read of a header does not depend on what follows. -/
lemma header_more {seen : Bool} {l : Option Nat} (h : header false seen l s ≠ .starved) (t : List UInt8) :
    header ended seen l (s ++ t) = (header false seen l s).more t := by
  fun_induction header false seen l s with
  | case1 seen l s line rest hcut f hline =>
    rw [header_of_cutLine (cutLine_more hcut t), hline]
    rfl
  | case2 l s line rest hcut hline =>
    rw [header_of_cutLine (cutLine_more hcut t), hline]
    rfl
  | case3 seen l s line rest hcut hline hseen ih =>
    rw [header_of_cutLine (cutLine_more hcut t), hline]
    simp only [if_neg hseen]
    exact ih h
  | case4 seen l s line rest hcut carried hline ih =>
    rw [header_of_cutLine (cutLine_more hcut t), hline]
    exact ih h
  | case5 => exact absurd rfl h
  | case6 l s hcut hended | case9 l s hcut hended => exact absurd rfl hended
  | case7 seen l s hcut hended | case8 seen l s hcut hended | case10 seen l s hcut hended
  | case11 seen l s hcut hended => exact absurd rfl hended

/-- What reading leaves, with more behind it. -/
def Reading.more (t : List UInt8) : Reading → Reading
  | .frame message rest => .frame message (rest ++ t)
  | r => r

/-- What is read of a stream that goes on stands, however it goes on and ends. -/
lemma next_more (h : next room false s ≠ .starved) (t : List UInt8) :
    next room ended (s ++ t) = (next room false s).more t := by
  have hopen : header false false none s ≠ .starved := by
    intro hstarved
    rw [next, hstarved] at h
    exact h rfl
  have hheader : header ended false none (s ++ t) = (header false false none s).more t := header_more hopen t
  unfold next at h ⊢
  rw [hheader]
  cases hread : header false false none s with
  | starved => exact absurd hread hopen
  | finished => rfl
  | failed f => rfl
  | complete l rest =>
    cases l with
    | none => rfl
    | some n =>
      rw [hread] at h
      simp only [Header.more] at h ⊢
      split
      · rfl
      · next hroom =>
        rw [if_neg hroom] at h
        -- the whole body is there
        have henough : ¬ rest.length < n := by
          intro hshort
          rw [if_pos hshort] at h
          exact h rfl
        have hle : n ≤ rest.length := Nat.not_lt.mp henough
        rw [if_neg henough, if_neg (by rw [List.length_append]; omega), List.take_append_of_le_length hle,
          List.drop_append_of_le_length hle]
        split <;> rfl

/-- What reading from a stream that has ended gives, however much room there is. A frame is read exactly where the
grammar has one, with all that follows it left unread. The end is clean exactly behind nothing but line breaks.
Everything else is an error, but for one thing: over a header that asks for more bytes than there is room for, reading
breaks down. -/
theorem reads_grammar (room : Room) (s : List UInt8) :
    (∀ message rest, next room true s = .frame message rest ↔ IsFrame room s message rest) ∧
      (next room true s = .finished ↔ ∀ b ∈ s, IsBreak b) ∧
      (next room true s = .overwhelmed ↔ Overwhelms room s) ∧
      ((∃ fault, next room true s = .failed fault) ↔
        (¬ ∃ message rest, IsFrame room s message rest) ∧ (¬ ∀ b ∈ s, IsBreak b) ∧ ¬ Overwhelms room s) := by
  have hframe : ∀ message rest, next room true s = .frame message rest ↔ IsFrame room s message rest :=
    fun message rest => next_eq_frame
  have hfinished : next room true s = .finished ↔ ∀ b ∈ s, IsBreak b := by
    rw [next_eq_finished]
    simp
  refine ⟨hframe, hfinished, next_eq_overwhelmed, ?_⟩
  simp only [← hframe, ← hfinished, ← next_eq_overwhelmed]
  cases hread : next room true s with
  | starved => exact absurd hread next_ne_starved
  | _ => simp

/-- A header that asks for as many bytes as 64 bits can say. -/
def boundless : Heading where
  blanks := []
  fields := [⟨lengthKey, " 18446744073709551615\r", by decide, by decide⟩]
  present := by simp
  stop := 1

/-- There is never so much. -/
lemma overwhelms_boundless (room : Room) : Overwhelms room boundless.bytes := by
  have hann : boundless.Announces 18446744073709551615 := by
    refine Heading.announces_iff.mpr (.length (n := 18446744073709551615) ?_ ?_ (.nil _))
    · decide
    · exact Text.unsigned?_eq_some.mp (by decide)
  exact ⟨boundless, _, hann, Nat.lt_of_le_of_lt room.bounded (by decide), .inl List.prefix_rfl⟩

theorem reads_grammar_boundless :
    Overwhelms .most boundless.bytes ∧ next .most true boundless.bytes = .overwhelmed :=
  ⟨overwhelms_boundless .most, (reads_grammar .most boundless.bytes).2.2.1.mpr (overwhelms_boundless .most)⟩

end Next

end Switchboard.Frame
