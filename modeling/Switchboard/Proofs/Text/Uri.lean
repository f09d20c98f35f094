import Switchboard.Json.Reader
import Switchboard.Proofs.Text.Utf8
import Mathlib

/-!
# Addresses

An address has a scheme, and may have an authority, a path, a query and a fragment. Each of them may hold certain characters;
any other byte is written as a percent sign and two hexadecimal digits.

* `Uri.Sign`: a character as it is, or a byte by its digits; `spell` and `bytes` are what signs look like and stand for;
* `Uri`: a whole address, `Uri.text` as it is written;
* `spelling_file`, `hasEmptyHost_of_slashes`: what follows the scheme of files, and that no host is named before a third slash;
* `Uri.Convention`: which characters somebody who writes addresses leaves as they are, and with which digits the others are
  written;
* `Convention.bytes_write`, `spell_write_iff`: what is written stands for the text, and is the text itself exactly if all
  its characters are left as they are.
-/

namespace Switchboard.Uri

/-! ## Characters -/

/-- Letters, digits and marks that stand for themselves everywhere. -/
def isUnreserved (c : Char) : Bool := c.isAlphanum || c ∈ ['-', '.', '_', '~']

/-- Marks that may part what stands within one component. -/
def isSubDelimiter (c : Char) : Bool := c ∈ ['!', '$', '&', '\x27', '(', ')', '*', '+', ',', ';', '=']

/-- The characters of the name of a host. -/
def isNameCharacter (c : Char) : Bool := isUnreserved c || isSubDelimiter c

/-- The characters of the name of a user. -/
def isUserCharacter (c : Char) : Bool := isNameCharacter c || c = ':'

/-- The characters of a path; a slash parts its segments. -/
def isPathCharacter (c : Char) : Bool := isUserCharacter c || c = '@' || c = '/'

/-- The characters of queries and fragments. -/
def isQueryCharacter (c : Char) : Bool := isPathCharacter c || c = '?'

/-- The characters of a scheme, after its first letter. -/
def isSchemeCharacter (c : Char) : Bool := c.isAlphanum || c ∈ ['+', '-', '.']

/-- A hexadecimal digit of either case. -/
structure HexDigit where
  char : Char
  isDigit : (Json.Reader.hexDigit? char).isSome = true
deriving DecidableEq

/-- The number of a digit. -/
def HexDigit.value (d : HexDigit) : Nat := (Json.Reader.hexDigit? d.char).get d.isDigit

lemma HexDigit.char_ne {c : Char} (h : Json.Reader.hexDigit? c = none) (d : HexDigit) : d.char ≠ c := by
  intro heq
  have hdigit := d.isDigit
  rw [heq, h] at hdigit
  cases hdigit

/-- Only ASCII characters may stand in addresses. -/
lemma lt_of_isPathCharacter {c : Char} (h : isPathCharacter c = true) : c.toNat < 0x80 := by
  simp only [isPathCharacter, isUserCharacter, isNameCharacter, isUnreserved, isSubDelimiter, Bool.or_eq_true,
    decide_eq_true_eq] at h
  have hmarks : ∀ d ∈ ['-', '.', '_', '~'], d.toNat < 0x80 := by simp
  have hdelimiters : ∀ d ∈ ['!', '$', '&', '\x27', '(', ')', '*', '+', ',', ';', '='], d.toNat < 0x80 := by simp
  rcases h with ((((h | h) | h) | rfl) | rfl) | rfl
  · simp only [Char.isAlphanum, Char.isAlpha, Char.isUpper, Char.isLower, Char.isDigit, Bool.or_eq_true, Bool.and_eq_true,
      decide_eq_true_eq, UInt32.le_iff_toNat_le] at h
    have hval : c.toNat = c.val.toNat := rfl
    have hlast : 'Z'.val.toNat = 90 ∧ 'z'.val.toNat = 122 ∧ '9'.val.toNat = 57 := by decide
    omega
  · exact hmarks c h
  · exact hdelimiters c h
  · decide
  · decide
  · decide

/-! ## Signs -/

/-- One place of a component: a character that may stand there, or a byte by its two digits. -/
inductive Sign (allowed : Char → Bool) where
  | plain (c : Char) (h : allowed c = true)
  | escaped (high low : HexDigit)
deriving DecidableEq

variable {allowed : Char → Bool}

namespace Sign

/-- How a sign is written. -/
def spelling : Sign allowed → List Char
  | plain c _ => [c]
  | escaped high low => ['%', high.char, low.char]

/-- The byte that a sign stands for. -/
def byte : Sign allowed → UInt8
  | plain c _ => UInt8.ofNat c.toNat
  | escaped high low => UInt8.ofNat (16 * high.value + low.value)

/-- Is the byte given by its digits? -/
def isEscaped : Sign allowed → Bool
  | plain _ _ => false
  | escaped _ _ => true

end Sign

/-- How signs are written. -/
def spell (signs : List (Sign allowed)) : List Char := signs.flatMap Sign.spelling

/-- What signs stand for. -/
def bytes (signs : List (Sign allowed)) : List UInt8 := signs.map Sign.byte

lemma spell_cons (s : Sign allowed) (signs : List (Sign allowed)) :
    spell (s :: signs) = s.spelling ++ spell signs := List.flatMap_cons

lemma spell_append (l l' : List (Sign allowed)) : spell (l ++ l') = spell l ++ spell l' := List.flatMap_append

lemma bytes_append (l l' : List (Sign allowed)) : bytes (l ++ l') = bytes l ++ bytes l' := List.map_append

lemma spell_eq_nil {signs : List (Sign allowed)} : spell signs = [] ↔ signs = [] := by
  cases signs with
  | nil => exact iff_of_true rfl rfl
  | cons s rest =>
    refine iff_of_false ?_ (List.cons_ne_nil _ _)
    cases s <;> exact List.cons_ne_nil _ _

/-- A character that may not stand in a component, and has no part in writing bytes, is not in it. -/
lemma notMem_spell {c : Char} (hallowed : allowed c = false) (hpercent : c ≠ '%')
    (hdigit : Json.Reader.hexDigit? c = none) (signs : List (Sign allowed)) : c ∉ spell signs := by
  intro hc
  obtain ⟨s, -, hs⟩ := List.mem_flatMap.mp hc
  cases s with
  | plain d h =>
    obtain rfl := List.mem_singleton.mp hs
    exact Bool.false_ne_true (hallowed.symm.trans h)
  | escaped high low =>
    simp only [Sign.spelling, List.mem_cons, List.not_mem_nil, or_false] at hs
    rcases hs with h | h | h
    · exact hpercent h
    · exact high.char_ne hdigit h.symm
    · exact low.char_ne hdigit h.symm

/-- Without escaped bytes all that is written may stand there. -/
lemma allowed_of_mem_spell {signs : List (Sign allowed)} (h : ∀ s ∈ signs, s.isEscaped = false) {c : Char}
    (hc : c ∈ spell signs) : allowed c = true := by
  obtain ⟨s, hs, hcs⟩ := List.mem_flatMap.mp hc
  cases s with
  | plain d hd =>
    obtain rfl := List.mem_singleton.mp hcs
    exact hd
  | escaped high low => cases h _ hs

/-- Without escaped bytes a path stands for what is written. -/
lemma bytes_eq_encode {signs : List (Sign isPathCharacter)} (h : ∀ s ∈ signs, s.isEscaped = false) :
    bytes signs = Utf8.encode (String.ofList (spell signs)) := by
  rw [Utf8.encode_eq, String.toList_ofList]
  induction signs with
  | nil => rfl
  | cons s rest ih =>
    rw [spell_cons, List.flatMap_append, ← ih fun t ht => h t (List.mem_cons_of_mem s ht)]
    cases s with
    | plain c hc =>
      rw [Sign.spelling, List.flatMap_singleton, Utf8.encodeChar_of_lt (lt_of_isPathCharacter hc)]
      rfl
    | escaped high low => cases h _ List.mem_cons_self

/-! ## Addresses -/

/-- Who is addressed. -/
inductive Host where
  | name (signs : List (Sign isNameCharacter))
  /-- A number of the network, in brackets. No statement here depends on which numbers there are. -/
  | literal (number : List Char) (h : ∀ c ∈ number, isUserCharacter c = true)

/-- Who is addressed, as whom and at which port. -/
structure Authority where
  user : Option (List (Sign isUserCharacter)) := none
  host : Host := .name []
  port : Option {digits : List Char // ∀ c ∈ digits, c.isDigit = true} := none

/-- How a host is written. -/
def Host.spelling : Host → List Char
  | name signs => spell signs
  | literal number _ => '[' :: number ++ [']']

/-- How an authority is written. -/
def Authority.spelling (a : Authority) : List Char :=
  a.user.elim [] (fun signs => spell signs ++ ['@']) ++ (a.host.spelling ++ a.port.elim [] fun digits => ':' :: digits.val)

end Uri

/-- An address. -/
structure Uri where
  scheme : List Char
  authority : Option Uri.Authority := none
  path : List (Uri.Sign Uri.isPathCharacter)
  query : Option (List (Uri.Sign Uri.isQueryCharacter)) := none
  fragment : Option (List (Uri.Sign Uri.isQueryCharacter)) := none
  isScheme : (∃ c ∈ scheme.head?, c.isAlpha = true) ∧ ∀ c ∈ scheme, Uri.isSchemeCharacter c = true
  /-- A path is parted from what stands before it: it is empty or starts with a slash behind an authority, and does not look
  like an authority if there is none. -/
  isParted : if authority.isSome then ∀ c ∈ (Uri.spell path).head?, c = '/' else ¬ ['/', '/'] <+: Uri.spell path

namespace Uri

/-- How the authority of an address is written, if it has one. -/
def lead (u : Uri) : List Char := u.authority.elim [] fun a => '/' :: '/' :: a.spelling

/-- How query and fragment are written. -/
def tail (u : Uri) : List Char :=
  u.query.elim [] (fun signs => '?' :: spell signs) ++ u.fragment.elim [] fun signs => '#' :: spell signs

/-- How an address is written. -/
def spelling (u : Uri) : List Char := u.scheme ++ ':' :: (u.lead ++ (spell u.path ++ u.tail))

/-- An address as text. -/
def text (u : Uri) : String := String.ofList u.spelling

/-- The scheme of files, as it is usually written. -/
def fileScheme : List Char := ['f', 'i', 'l', 'e']

/-- Is it the address of a file? Schemes have no letter case. -/
def IsFile (u : Uri) : Prop := u.scheme.map Char.toLower = fileScheme

/-- The address has an authority that names no host. -/
def HasEmptyHost (u : Uri) : Prop := ∃ a ∈ u.authority, a.host = .name []

/-- The address of a file that says nothing but its path, and writes no byte of it by its digits. -/
structure Bare (u : Uri) : Prop where
  scheme : u.scheme = fileScheme
  authority : u.authority = some {}
  path : ∀ s ∈ u.path, s.isEscaped = false
  query : u.query = none
  fragment : u.fragment = none

variable {u : Uri} {rest : List Char}

lemma head?_tail (u : Uri) : ∀ c ∈ u.tail.head?, c ≠ '/' := by
  unfold tail
  cases u.query with
  | some signs =>
    intro c hc
    obtain rfl := Option.some.inj hc
    decide
  | none =>
    cases u.fragment with
    | some signs =>
      intro c hc
      obtain rfl := Option.some.inj hc
      decide
    | none => exact nofun

lemma Bare.spelling (h : u.Bare) : u.spelling = fileScheme ++ ':' :: '/' :: '/' :: spell u.path := by
  have hlead : u.lead = ['/', '/'] := by
    rw [lead, h.authority]
    rfl
  have htail : u.tail = [] := by
    rw [tail, h.query, h.fragment]
    rfl
  rw [Uri.spelling, h.scheme, hlead, htail, List.append_nil]
  rfl

/-- What follows the scheme of files. -/
lemma spelling_file (h : u.IsFile) (hu : u.spelling = fileScheme ++ ':' :: rest) :
    u.scheme = fileScheme ∧ u.lead ++ (spell u.path ++ u.tail) = rest := by
  have hlength : u.scheme.length = fileScheme.length := by
    rw [← h, List.length_map]
  obtain ⟨hscheme, hrest⟩ := List.append_inj hu hlength
  exact ⟨hscheme, (List.cons.inj hrest).2⟩

lemma Host.slash_notMem (host : Host) : '/' ∉ host.spelling := by
  cases host with
  | name signs => exact notMem_spell (by decide) (by decide) (by decide) signs
  | literal number h =>
    intro hmem
    rcases List.mem_append.mp hmem with hmem | hmem
    · rcases List.mem_cons.mp hmem with heq | hmem
      · exact absurd heq (by decide)
      · exact absurd (h _ hmem) (by decide)
    · exact absurd (List.mem_singleton.mp hmem) (by decide)

lemma Authority.slash_notMem (a : Authority) : '/' ∉ a.spelling := by
  obtain ⟨user, host, port⟩ := a
  have huser : '/' ∉ user.elim [] fun signs => spell signs ++ ['@'] := by
    cases user with
    | none => exact List.not_mem_nil
    | some signs =>
      intro hmem
      rcases List.mem_append.mp hmem with hmem | hmem
      · exact notMem_spell (by decide) (by decide) (by decide) signs hmem
      · exact absurd (List.mem_singleton.mp hmem) (by decide)
  have hport : '/' ∉ port.elim [] fun digits => ':' :: digits.val := by
    cases port with
    | none => exact List.not_mem_nil
    | some digits =>
      intro hmem
      rcases List.mem_cons.mp hmem with heq | hmem
      · exact absurd heq (by decide)
      · exact absurd (digits.property _ hmem) (by decide)
  intro hmem
  rcases List.mem_append.mp hmem with hmem | hmem
  · exact huser hmem
  · rcases List.mem_append.mp hmem with hmem | hmem
    · exact host.slash_notMem hmem
    · exact hport hmem

/-- An authority before a slash names no host if nothing else stands there. -/
lemma Authority.host_of_slash {a : Authority} {cs : List Char} (h : a.spelling ++ cs = '/' :: rest) : a.host = .name [] := by
  have hempty : a.spelling = [] := by
    rcases List.append_eq_cons_iff.mp h with ⟨hnil, -⟩ | ⟨more, hmore, -⟩
    · exact hnil
    · exact absurd (hmore ▸ List.mem_cons_self) a.slash_notMem
  have hhost : a.host.spelling = [] := (List.append_eq_nil_iff.mp (List.append_eq_nil_iff.mp hempty).2).1
  cases hname : a.host with
  | name signs =>
    rw [hname] at hhost
    rw [spell_eq_nil.mp hhost]
  | literal number h =>
    rw [hname] at hhost
    cases hhost

/-- Two slashes behind the scheme begin an authority. -/
lemma exists_authority (hu : u.lead ++ (spell u.path ++ u.tail) = '/' :: '/' :: rest) :
    ∃ a, u.authority = some a ∧ a.spelling ++ (spell u.path ++ u.tail) = rest := by
  have hparted := u.isParted
  rw [lead] at hu
  cases hauthority : u.authority with
  | some a =>
    rw [hauthority] at hu
    exact ⟨a, rfl, (List.cons.inj (List.cons.inj hu).2).2⟩
  | none =>
    rw [hauthority] at hu hparted
    have hslash : ∀ cs, u.tail ≠ '/' :: cs := fun cs htail => u.head?_tail '/' (by rw [htail]; rfl) rfl
    exfalso
    -- nothing behind the path starts with a slash, so both slashes would be in the path
    have hpath : spell u.path ++ u.tail = '/' :: '/' :: rest := hu
    rcases List.append_eq_cons_iff.mp hpath with ⟨-, htail⟩ | ⟨more, hmore, hrest⟩
    · exact hslash _ htail
    · rcases List.append_eq_cons_iff.mp hrest.symm with ⟨-, htail⟩ | ⟨others, hothers, -⟩
      · exact hslash _ htail
      · exact hparted ⟨others, by rw [hmore, hothers]; rfl⟩

/-- No host is named between two slashes and a third one. -/
lemma hasEmptyHost_of_slashes (hu : u.lead ++ (spell u.path ++ u.tail) = '/' :: '/' :: '/' :: rest) : u.HasEmptyHost := by
  obtain ⟨a, hauthority, ha⟩ := exists_authority hu
  exact ⟨a, hauthority, a.host_of_slash ha⟩

/-! ## Writing addresses -/

/-- How somebody writes addresses. -/
structure Convention where
  /-- The characters that are left as they are; the bytes of all others are written by their digits. -/
  keeps : Char → Bool
  digit : Fin 16 → HexDigit
  keeps_unreserved : ∀ c, isUnreserved c = true → keeps c = true
  keeps_slash : keeps '/' = true
  isPathCharacter_of_keeps : ∀ c, keeps c = true → isPathCharacter c = true
  value_digit : ∀ n, (digit n).value = n

namespace Convention

/-- A byte by its digits. -/
def escape (v : Convention) (b : UInt8) : Sign isPathCharacter :=
  .escaped (v.digit ⟨b.toNat / 16, by have := b.toNat_lt; omega⟩) (v.digit ⟨b.toNat % 16, by omega⟩)

/-- The signs of a character. -/
def signs (v : Convention) (c : Char) : List (Sign isPathCharacter) :=
  if h : v.keeps c = true then [.plain c (v.isPathCharacter_of_keeps c h)] else (String.utf8EncodeChar c).map v.escape

/-- The signs of a text. -/
def write (v : Convention) (cs : List Char) : List (Sign isPathCharacter) := cs.flatMap v.signs

variable (v : Convention)

lemma write_cons (c : Char) (cs : List Char) : v.write (c :: cs) = v.signs c ++ v.write cs := List.flatMap_cons

lemma byte_escape (b : UInt8) : (v.escape b).byte = b := by
  have hsum : 16 * (b.toNat / 16) + b.toNat % 16 = b.toNat := Nat.div_add_mod ..
  rw [escape, Sign.byte, v.value_digit, v.value_digit]
  simp only [hsum]
  exact UInt8.ofNat_toNat

lemma bytes_signs (c : Char) : bytes (v.signs c) = String.utf8EncodeChar c := by
  unfold signs
  split
  · next h =>
    exact (Utf8.encodeChar_of_lt (lt_of_isPathCharacter (v.isPathCharacter_of_keeps c h))).symm
  · rw [bytes, List.map_map, Function.comp_def]
    simp only [byte_escape, List.map_id']

/-- What is written stands for the text. -/
lemma bytes_write (cs : List Char) : bytes (v.write cs) = cs.flatMap String.utf8EncodeChar := by
  induction cs with
  | nil => rfl
  | cons c rest ih => rw [write_cons, bytes_append, bytes_signs, ih, List.flatMap_cons]

lemma spell_signs_of_keeps {c : Char} (h : v.keeps c = true) : spell (v.signs c) = [c] := by
  rw [signs, dif_pos h]
  rfl

lemma length_spell_signs {c : Char} (h : v.keeps c ≠ true) : 3 ≤ (spell (v.signs c)).length := by
  obtain ⟨b, more, hbytes⟩ := List.exists_cons_of_ne_nil (String.utf8EncodeChar_ne_nil (c := c))
  rw [signs, dif_neg h, hbytes, List.map_cons, spell_cons, List.length_append]
  exact Nat.le_add_right 3 _

lemma length_le_spell_write (cs : List Char) : cs.length ≤ (spell (v.write cs)).length := by
  induction cs with
  | nil => exact Nat.le_refl 0
  | cons c rest ih =>
    have hc : 1 ≤ (spell (v.signs c)).length := by
      by_cases h : v.keeps c = true
      · rw [v.spell_signs_of_keeps h]
        exact Nat.le_refl 1
      · have hthree := v.length_spell_signs h
        omega
    rw [write_cons, spell_append, List.length_append, List.length_cons]
    omega

/-- A text is written as it is exactly if all its characters are left as they are. -/
lemma spell_write_iff (cs : List Char) : spell (v.write cs) = cs ↔ ∀ c ∈ cs, v.keeps c = true := by
  induction cs with
  | nil => exact iff_of_true rfl (List.forall_mem_nil _)
  | cons c rest ih =>
    rw [write_cons, spell_append, List.forall_mem_cons]
    by_cases h : v.keeps c = true
    · rw [v.spell_signs_of_keeps h, List.singleton_append, List.cons.injEq, ih]
      simp only [h, true_and]
    · refine iff_of_false (fun heq => ?_) fun hall => h hall.1
      have hlength := congrArg List.length heq
      have hc := v.length_spell_signs h
      have hrest := v.length_le_spell_write rest
      rw [List.length_append, List.length_cons] at hlength
      omega

/-- A digit in upper case. -/
def upperDigit (n : Fin 16) : HexDigit :=
  ⟨if n.val < 10 then Char.ofNat (48 + n) else Char.ofNat (55 + n), by revert n; decide⟩

/-- Who writes as many characters as they are as a path may hold. -/
def lenient : Convention where
  keeps := isPathCharacter
  digit := upperDigit
  keeps_unreserved := fun c h => by simp [isPathCharacter, isUserCharacter, isNameCharacter, h]
  keeps_slash := by decide
  isPathCharacter_of_keeps := fun _ h => h
  value_digit := by decide

/-- Who writes by its digits whatever need not stand for itself. -/
def strict : Convention where
  keeps := fun c => isUnreserved c || c = '/'
  digit := upperDigit
  keeps_unreserved := fun c h => by simp [h]
  keeps_slash := by decide
  isPathCharacter_of_keeps := fun c h => by
    rcases (Bool.or_eq_true _ _).mp h with h | h
    · simp [isPathCharacter, isUserCharacter, isNameCharacter, h]
    · simp [isPathCharacter, h]
  value_digit := by decide

/-- The address of a file at an absolute path. -/
def address (v : Convention) (cs : List Char) (h : cs.head? = some '/') : Uri where
  scheme := fileScheme
  authority := some {}
  path := v.write cs
  isScheme := ⟨⟨'f', rfl, by decide⟩, by simp [fileScheme, isSchemeCharacter]⟩
  isParted := by
    obtain ⟨rest, rfl⟩ := List.head?_eq_some_iff.mp h
    intro c hc
    rw [write_cons, spell_append, v.spell_signs_of_keeps v.keeps_slash] at hc
    exact (Option.some.inj hc).symm

end Convention

end Uri

end Switchboard
