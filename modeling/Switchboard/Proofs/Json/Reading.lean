import Switchboard.Proofs.Json.Lexemes

/-!
# What is written reads back

* `Layout`: where blanks stand in a text; `Layout.pretty` and `Layout.compact` are the two that are written;
* `Kept`: the values without fractions, of a limited nesting;
* `Reader.reads_of_kept`: a text of such a value is read as the value, whatever follows it;
* `readRaw?_pretty`, `readRaw?_text`, `readRecord?_pretty`: whole texts.

The reader takes fuel. Twice the length of the text is enough: each call consumes a character or is the first one
after a bracket.
-/

namespace Switchboard.Json

/-! ## Layouts -/

/-- Where blanks stand in a text: before the elements of a level and before their closing bracket, and after a colon. -/
structure Layout where
  gap : Nat → List Char
  space : List Char
  gap_blank : ∀ level, ∀ c ∈ gap level, Reader.isBlank c = true
  space_blank : ∀ c ∈ space, Reader.isBlank c = true

namespace Layout

variable (l : Layout)

/-- A key and its colon. -/
def key (k : String) : List Char := '"' :: k.toList.flatMap Writer.escape ++ '"' :: ':' :: l.space

mutual

/-- The text of a value. -/
def value (level : Nat) : Json → List Char
  | .null => ['n', 'u', 'l', 'l']
  | .bool b => if b then ['t', 'r', 'u', 'e'] else ['f', 'a', 'l', 's', 'e']
  | .num n => (Writer.number n).toList
  | .str s => '"' :: s.toList.flatMap Writer.escape ++ ['"']
  | .arr [] => ['[', ']']
  | .arr items => '[' :: elements (level + 1) items ++ l.gap level ++ [']']
  | .obj [] => ['\x7b', '\x7d']
  | .obj members => '\x7b' :: entries (level + 1) members ++ l.gap level ++ ['\x7d']

/-- The text of elements. -/
def elements (level : Nat) : List Json → List Char
  | [] => []
  | [v] => l.gap level ++ value level v
  | v :: rest => l.gap level ++ value level v ++ ',' :: elements level rest

/-- The text of members. -/
def entries (level : Nat) : List (String × Json) → List Char
  | [] => []
  | [(k, v)] => l.gap level ++ l.key k ++ value level v
  | (k, v) :: rest => l.gap level ++ l.key k ++ value level v ++ ',' :: entries level rest

end

/-- Every element on its own line. -/
def pretty : Layout where
  gap level := (Writer.newline level).toList
  space := [' ']
  gap_blank := by
    intro level c hc
    rw [Writer.newline, String.toList_append] at hc
    rcases List.mem_append.mp hc with hc | hc
    · obtain rfl : c = '\n' := List.mem_singleton.mp hc
      rfl
    · rw [String.toList_ofList] at hc
      rw [List.eq_of_mem_replicate hc]
      rfl
  space_blank := by
    intro c hc
    rw [List.mem_singleton.mp hc]
    rfl

/-- No blanks. -/
def compact : Layout where
  gap _ := []
  space := []
  gap_blank _ := nofun
  space_blank := nofun

lemma toList_quoted (s : String) : (Writer.quoted s).toList = '"' :: s.toList.flatMap Writer.escape ++ ['"'] := by
  simp [Writer.quoted]

mutual

/-- That is how values are written with indentation. -/
lemma value_pretty (level : Nat) : ∀ v : Json, pretty.value level v = (Writer.prettyValue level v).toList
  | .null => by
    rw [value, Writer.prettyValue]
    rfl
  | .bool b => by
    rw [value, Writer.prettyValue]
    cases b with
    | true => rfl
    | false => rfl
  | .num n => by rw [value, Writer.prettyValue]
  | .str s => by rw [value, Writer.prettyValue, toList_quoted]
  | .arr [] => by
    rw [value, Writer.prettyValue]
    rfl
  | .arr (v :: rest) => by
    rw [value, elements_pretty (level + 1) (v :: rest), Writer.prettyValue]
    · simp [pretty]
    · exact nofun
    · exact nofun
  | .obj [] => by
    rw [value, Writer.prettyValue]
    rfl
  | .obj (m :: rest) => by
    rw [value, entries_pretty (level + 1) (m :: rest), Writer.prettyValue]
    · simp [pretty]
    · exact nofun
    · exact nofun

/-- So are elements. -/
lemma elements_pretty (level : Nat) :
    ∀ items : List Json, pretty.elements level items = (Writer.prettyElements level items).toList
  | [] => by
    rw [elements, Writer.prettyElements]
    rfl
  | [v] => by
    rw [elements, value_pretty level v, Writer.prettyElements]
    simp [pretty]
  | v :: w :: rest => by
    rw [elements, Writer.prettyElements, value_pretty level v, elements_pretty level (w :: rest)]
    · simp [pretty]
    · exact nofun
    · exact nofun

/-- So are members. -/
lemma entries_pretty (level : Nat) :
    ∀ members : List (String × Json), pretty.entries level members = (Writer.prettyEntries level members).toList
  | [] => by
    rw [entries, Writer.prettyEntries]
    rfl
  | [(k, v)] => by
    rw [entries, value_pretty level v, Writer.prettyEntries]
    simp [pretty, key, toList_quoted]
  | (k, v) :: m :: rest => by
    rw [entries, Writer.prettyEntries, value_pretty level v, entries_pretty level (m :: rest)]
    · simp [pretty, key, toList_quoted]
    · exact nofun
    · exact nofun

end

mutual

/-- That is how values are written on one line. -/
lemma value_compact (level : Nat) : ∀ v : Json, compact.value level v = (Writer.value v).toList
  | .null => by
    rw [value, Writer.value]
    rfl
  | .bool b => by
    rw [value, Writer.value]
    cases b with
    | true => rfl
    | false => rfl
  | .num n => by rw [value, Writer.value]
  | .str s => by rw [value, Writer.value, toList_quoted]
  | .arr [] => by
    rw [value, Writer.value, Writer.elements]
    rfl
  | .arr (v :: rest) => by
    rw [value, Writer.value, elements_compact (level + 1) (v :: rest)]
    · simp [compact]
    · exact nofun
  | .obj [] => by
    rw [value, Writer.value, Writer.entries]
    rfl
  | .obj (m :: rest) => by
    rw [value, Writer.value, entries_compact (level + 1) (m :: rest)]
    · simp [compact]
    · exact nofun

/-- So are elements. -/
lemma elements_compact (level : Nat) :
    ∀ items : List Json, compact.elements level items = (Writer.elements items).toList
  | [] => by
    rw [elements, Writer.elements]
    rfl
  | [v] => by
    rw [elements, value_compact level v, Writer.elements]
    rfl
  | v :: w :: rest => by
    rw [elements, Writer.elements, value_compact level v, elements_compact level (w :: rest)]
    · simp [compact]
    · exact nofun
    · exact nofun

/-- So are members. -/
lemma entries_compact (level : Nat) :
    ∀ members : List (String × Json), compact.entries level members = (Writer.entries members).toList
  | [] => by
    rw [entries, Writer.entries]
    rfl
  | [(k, v)] => by
    rw [entries, value_compact level v, Writer.entries]
    simp [compact, key, toList_quoted]
  | (k, v) :: m :: rest => by
    rw [entries, Writer.entries, value_compact level v, entries_compact level (m :: rest)]
    · simp [compact, key, toList_quoted]
    · exact nofun
    · exact nofun

end

end Layout

/-! ## Reading -/

/-- Values without fractions whose integers fit and whose brackets nest at most so deep. They are kept by writing and
reading. -/
inductive Kept : Nat → Json → Prop
  | null {depth : Nat} : Kept depth .null
  | bool {depth : Nat} (b : Bool) : Kept depth (.bool b)
  | int {depth : Nat} (i : Int) (low : -0x8000000000000000 ≤ i) (high : i ≤ Reader.maxInteger) : Kept depth (.int i)
  | str {depth : Nat} (s : String) : Kept depth (.str s)
  | arr {depth : Nat} (items : List Json) (kept : ∀ v ∈ items, Kept depth v) : Kept (depth + 1) (.arr items)
  | obj {depth : Nat} (members : List (String × Json)) (kept : ∀ m ∈ members, Kept depth m.2) :
    Kept (depth + 1) (.obj members)

namespace Reader

variable (l : Layout)

/-- A text of the value is read as the value, whatever follows it. -/
def Reads (depth : Nat) (v : Json) : Prop :=
  ∀ (level fuel : Nat) (rest : List Char), Ends rest → 2 * (l.value level v).length ≤ fuel →
    value fuel depth (l.value level v ++ rest) = some (v, rest)

lemma value_gap {gap : List Char} (h : ∀ c ∈ gap, isBlank c = true) (fuel depth : Nat) (cs : List Char) :
    value fuel depth (gap ++ cs) = value fuel depth cs := by
  cases fuel with
  | zero => rfl
  | succ fuel => rw [value, value, skip_of_blank h]

/-- A key and its colon are read as the key. -/
lemma string_key (k : String) (rest : List Char) :
    ∃ cs, l.key k ++ rest = '"' :: cs ∧ string [] cs = some (k, ':' :: (l.space ++ rest)) := by
  refine ⟨k.toList.flatMap Writer.escape ++ '"' :: ':' :: (l.space ++ rest), ?_, ?_⟩
  · simp [Layout.key]
  · rw [string_quoted]
    simp

/-- The elements of an array and its closing bracket. -/
lemma items_elements {depth : Nat} {all : List Json} (hreads : ∀ v ∈ all, Reads l depth v) (hne : all ≠ [])
    (level below fuel : Nat) (acc : List Json) (rest : List Char)
    (hfuel : 2 * (l.elements level all).length + 1 ≤ fuel) :
    items fuel depth acc (l.elements level all ++ (l.gap below ++ ']' :: rest))
      = some (.arr (acc.reverse ++ all), rest) := by
  induction all generalizing fuel acc with
  | nil => exact absurd rfl hne
  | cons v more ih =>
    obtain ⟨fuel, rfl⟩ : ∃ f, fuel = f + 1 := ⟨fuel - 1, by omega⟩
    have hv := hreads v List.mem_cons_self
    cases more with
    | nil =>
      have hlength : (l.elements level [v]).length = (l.gap level).length + (l.value level v).length := by
        rw [Layout.elements, List.length_append]
      have hends : Ends (l.gap below ++ ']' :: rest) := .gap (l.gap_blank below) (.cons (by decide))
      have hread := hv level fuel _ hends (by omega)
      rw [Layout.elements, List.append_assoc, items, value_gap (l.gap_blank level), hread]
      simp only [skip_of_blank (l.gap_blank below), skip_cons (show isBlank ']' = false from rfl),
        List.reverse_cons]
    | cons w more =>
      have hlength : (l.elements level (v :: w :: more)).length
          = (l.gap level).length + (l.value level v).length + ((l.elements level (w :: more)).length + 1) := by
        rw [Layout.elements, List.length_append, List.length_append, List.length_cons]
        exact nofun
      have hrest := ih (fun x hx => hreads x (List.mem_cons_of_mem v hx)) (List.cons_ne_nil w more) fuel (v :: acc)
        (by omega)
      have hread := hv level fuel (',' :: (l.elements level (w :: more) ++ (l.gap below ++ ']' :: rest))) (.comma _)
        (by omega)
      rw [Layout.elements, List.append_assoc, List.append_assoc, items, value_gap (l.gap_blank level),
        List.cons_append, hread]
      · simp only [skip_cons (show isBlank ',' = false from rfl), hrest, List.reverse_cons, List.append_assoc]
        rfl
      · exact nofun

/-- The members of an object and its closing brace. -/
lemma members_entries {depth : Nat} {all : List (String × Json)} (hreads : ∀ m ∈ all, Reads l depth m.2)
    (hne : all ≠ []) (level below fuel : Nat) (acc : List (String × Json)) (rest : List Char)
    (hfuel : 2 * (l.entries level all).length + 1 ≤ fuel) :
    members fuel depth acc (l.entries level all ++ (l.gap below ++ '\x7d' :: rest))
      = some (.obj (acc.reverse ++ all), rest) := by
  induction all generalizing fuel acc with
  | nil => exact absurd rfl hne
  | cons m more ih =>
    obtain ⟨k, v⟩ := m
    obtain ⟨fuel, rfl⟩ : ∃ f, fuel = f + 1 := ⟨fuel - 1, by omega⟩
    have hv : Reads l depth v := hreads (k, v) List.mem_cons_self
    have hquote : ∀ cs, skip ('"' :: cs) = '"' :: cs := skip_cons rfl
    have hcolon : ∀ cs, skip (':' :: cs) = ':' :: cs := skip_cons rfl
    cases more with
    | nil =>
      have hlength : (l.entries level [(k, v)]).length
          = (l.gap level).length + (l.key k).length + (l.value level v).length := by
        rw [Layout.entries, List.length_append, List.length_append]
      have hends : Ends (l.gap below ++ '\x7d' :: rest) := .gap (l.gap_blank below) (.cons (by decide))
      have hread := hv level fuel _ hends (by omega)
      obtain ⟨cs, hkey, hstring⟩ := string_key l k (l.value level v ++ (l.gap below ++ '\x7d' :: rest))
      rw [Layout.entries, List.append_assoc, List.append_assoc, members, skip_of_blank (l.gap_blank level), hkey]
      simp only [hquote, hstring, hcolon, value_gap l.space_blank, hread, skip_of_blank (l.gap_blank below),
        skip_cons (show isBlank '\x7d' = false from rfl), List.reverse_cons]
    | cons m more =>
      have hlength : (l.entries level ((k, v) :: m :: more)).length
          = (l.gap level).length + (l.key k).length + (l.value level v).length
            + ((l.entries level (m :: more)).length + 1) := by
        rw [Layout.entries, List.length_append, List.length_append, List.length_append, List.length_cons]
        exact nofun
      have hrest := ih (fun x hx => hreads x (List.mem_cons_of_mem _ hx)) (List.cons_ne_nil m more) fuel
        ((k, v) :: acc) (by omega)
      have hread := hv level fuel (',' :: (l.entries level (m :: more) ++ (l.gap below ++ '\x7d' :: rest))) (.comma _)
        (by omega)
      obtain ⟨cs, hkey, hstring⟩ := string_key l k
        (l.value level v ++ ',' :: (l.entries level (m :: more) ++ (l.gap below ++ '\x7d' :: rest)))
      rw [Layout.entries, List.append_assoc, List.append_assoc, List.append_assoc, members,
        skip_of_blank (l.gap_blank level), List.cons_append, hkey]
      · simp only [hquote, hstring, hcolon, value_gap l.space_blank, hread,
          skip_cons (show isBlank ',' = false from rfl), hrest, List.reverse_cons, List.append_assoc]
        rfl
      · exact nofun

/-- How members of an object are read: a key, a colon and a value, and then a comma and more of them or the closing
brace. -/
lemma members_cases {fuel depth : Nat} {acc ms : List (String × Json)} {cs rest : List Char}
    (h : members (fuel + 1) depth acc cs = some (.obj ms, rest)) :
    ∃ quoted key afterKey afterColon v afterValue, skip cs = '"' :: quoted ∧
      string [] quoted = some (key, afterKey) ∧ skip afterKey = ':' :: afterColon ∧
      value fuel depth afterColon = some (v, afterValue) ∧
      ((∃ more, skip afterValue = ',' :: more ∧ members fuel depth ((key, v) :: acc) more = some (.obj ms, rest)) ∨
        skip afterValue = '\x7d' :: rest ∧ ms = ((key, v) :: acc).reverse) := by
  rw [members] at h
  split at h
  · next quoted hquote =>
    split at h
    · cases h
    · next key afterKey hkey =>
      split at h
      · next afterColon hcolon =>
        split at h
        · cases h
        · next v afterValue hvalue =>
          refine ⟨quoted, key, afterKey, afterColon, v, afterValue, hquote, hkey, hcolon, hvalue, ?_⟩
          split at h
          · next more hcomma => exact .inl ⟨more, hcomma, h⟩
          · next hbrace =>
            obtain ⟨hobj, rfl⟩ := Prod.mk.inj (Option.some.inj h)
            exact .inr ⟨hbrace, (Json.obj.inj hobj).symm⟩
          · cases h
      · cases h
  · cases h

/-- What was read of an object stays in it. -/
lemma mem_of_members {fuel depth : Nat} {acc ms : List (String × Json)} {cs rest : List Char}
    (h : members fuel depth acc cs = some (.obj ms, rest)) {m : String × Json} (hm : m ∈ acc) : m ∈ ms := by
  induction fuel generalizing acc cs with
  | zero => cases h
  | succ fuel ih =>
    obtain ⟨_, key, _, _, v, _, -, -, -, -, ⟨more, -, hmore⟩ | ⟨-, rfl⟩⟩ := members_cases h
    · exact ih hmore (List.mem_cons_of_mem _ hm)
    · exact List.mem_reverse.mpr (List.mem_cons_of_mem _ hm)

/-- An object whose keys are all among the names is read in full. -/
lemma namedMembers_eq (names : List String) {fuel depth : Nat} {acc ms : List (String × Json)} {cs rest : List Char}
    (h : members fuel depth acc cs = some (.obj ms, rest)) (hnames : ∀ m ∈ ms, m.1 ∈ names) :
    namedMembers names fuel depth acc cs = some (.obj ms, rest) := by
  induction fuel generalizing acc cs with
  | zero => cases h
  | succ fuel ih =>
    obtain ⟨quoted, key, afterKey, afterColon, v, afterValue, hquote, hkey, hcolon, hvalue, hrest⟩ := members_cases h
    have hmem : (key, v) ∈ ms := by
      rcases hrest with ⟨more, -, hmore⟩ | ⟨-, rfl⟩
      · exact mem_of_members hmore List.mem_cons_self
      · exact List.mem_reverse.mpr List.mem_cons_self
    have hname : names.contains key = true := List.contains_iff_mem.mpr (hnames _ hmem)
    rw [namedMembers]
    simp only [hquote, hkey, hcolon, hname, if_true, hvalue, Option.map_some]
    rcases hrest with ⟨more, hcomma, hmore⟩ | ⟨hbrace, rfl⟩
    · simp only [hcomma]
      exact ih hmore
    · simp only [hbrace]

/-- A text that begins with none of the other characters is read as a number. -/
lemma value_number {n : Number} {c : Char} {cs rest : List Char} (hc : c.isDigit = true ∨ c = '-')
    (h : number (c :: cs) = some (n, rest)) (fuel depth : Nat) :
    value (fuel + 1) depth (c :: cs) = some (.num n, rest) := by
  have hother : ∀ d : Char, d.isDigit = false → d ≠ '-' → c ≠ d := by
    intro d hd hminus heq
    rw [heq, hd] at hc
    rcases hc with hc | hc
    · cases hc
    · exact hminus hc
  have hblank : isBlank c = false := by
    simp [isBlank, hother ' ' rfl (by decide), hother '\n' rfl (by decide), hother '\t' rfl (by decide),
      hother '\r' rfl (by decide)]
  rw [value, skip_cons hblank]
  split
  · next heq => exact absurd (List.cons.inj heq).1 (hother 'n' rfl (by decide))
  · next heq => exact absurd (List.cons.inj heq).1 (hother 't' rfl (by decide))
  · next heq => exact absurd (List.cons.inj heq).1 (hother 'f' rfl (by decide))
  · next heq => exact absurd (List.cons.inj heq).1 (hother '"' rfl (by decide))
  · next heq => exact absurd (List.cons.inj heq).1 (hother '[' rfl (by decide))
  · next heq => exact absurd (List.cons.inj heq).1 (hother '\x7b' rfl (by decide))
  · rw [h]
    rfl

/-- The first character of an integer. -/
lemma exists_cons_int (i : Int) : ∃ c cs, (toString i).toList = c :: cs ∧ (c.isDigit = true ∨ c = '-') := by
  cases i with
  | ofNat n =>
    have htext : (toString (Int.ofNat n)).toList = Nat.toDigits 10 n := by
      show (Nat.repr n).toList = _
      simp [Nat.repr]
    cases hdigits : Nat.toDigits 10 n with
    | nil => exact absurd hdigits Nat.toDigits_ne_nil
    | cons c cs =>
      have hc : c ∈ Nat.toDigits 10 n := by
        rw [hdigits]
        exact List.mem_cons_self
      exact ⟨c, cs, htext.trans hdigits, .inl (Nat.isDigit_of_mem_toDigits (by decide) (by decide) hc)⟩
  | negSucc n => exact ⟨'-', (Nat.repr (n + 1)).toList, String.toList_append, .inr rfl⟩

lemma skip_skip (cs : List Char) : skip (skip cs) = skip cs := by
  cases hskip : skip cs with
  | nil => rfl
  | cons c rest =>
    refine skip_cons ?_ rest
    have hhead := List.head?_dropWhile_not isBlank cs
    rw [← skip, hskip] at hhead
    simpa using hhead

/-- Elements that can be read begin with no closing bracket. -/
lemma items_of_skip {fuel depth : Nat} {acc : List Json} {cs : List Char} {r : Json × List Char}
    (h : items fuel depth acc cs = some r) :
    items fuel depth acc (skip cs) = some r ∧ ∀ rest, skip cs ≠ ']' :: rest := by
  cases fuel with
  | zero => cases h
  | succ fuel =>
    have hvalue : value fuel depth (skip cs) = value fuel depth cs := by
      cases fuel with
      | zero => rfl
      | succ fuel => rw [value, value, skip_skip]
    refine ⟨?_, ?_⟩
    · rw [items] at h ⊢
      rw [hvalue]
      exact h
    · intro rest hskip
      have hnone : value fuel depth cs = none := by
        cases fuel with
        | zero => rfl
        | succ fuel =>
          rw [value, hskip]
          rfl
      rw [items, hnone] at h
      cases h

/-- Members that can be read begin with no closing brace. -/
lemma members_of_skip {fuel depth : Nat} {acc : List (String × Json)} {cs : List Char} {r : Json × List Char}
    (h : members fuel depth acc cs = some r) :
    members fuel depth acc (skip cs) = some r ∧ ∀ rest, skip cs ≠ '\x7d' :: rest := by
  cases fuel with
  | zero => cases h
  | succ fuel =>
    refine ⟨?_, ?_⟩
    · rw [members] at h ⊢
      rw [skip_skip]
      exact h
    · intro rest hskip
      rw [members, hskip] at h
      cases h

/-- A text of a value that is kept is read as the value, whatever follows it. -/
theorem reads_of_kept {nesting : Nat} {v : Json} (h : Kept nesting v) {depth : Nat} (hdepth : nesting < depth) :
    Reads l depth v := by
  induction h generalizing depth with
  | null =>
    intro level fuel rest _ hfuel
    rw [Layout.value] at hfuel ⊢
    obtain ⟨fuel, rfl⟩ : ∃ f, fuel = f + 1 := ⟨fuel - 1, by simp at hfuel; omega⟩
    rfl
  | bool b =>
    intro level fuel rest _ hfuel
    rw [Layout.value] at hfuel ⊢
    cases b with
    | true =>
      obtain ⟨fuel, rfl⟩ : ∃ f, fuel = f + 1 := ⟨fuel - 1, by simp at hfuel; omega⟩
      rfl
    | false =>
      obtain ⟨fuel, rfl⟩ : ∃ f, fuel = f + 1 := ⟨fuel - 1, by simp at hfuel; omega⟩
      rfl
  | int i low high =>
    intro level fuel rest hends hfuel
    rw [Layout.value, Writer.number] at hfuel ⊢
    obtain ⟨c, cs, htext, hc⟩ := exists_cons_int i
    have hread := number_int low high hends
    rw [htext] at hread hfuel ⊢
    obtain ⟨fuel, rfl⟩ : ∃ f, fuel = f + 1 := ⟨fuel - 1, by simp at hfuel; omega⟩
    exact value_number hc hread fuel depth
  | str s =>
    intro level fuel rest _ hfuel
    rw [Layout.value] at hfuel ⊢
    obtain ⟨fuel, rfl⟩ : ∃ f, fuel = f + 1 := ⟨fuel - 1, by simp at hfuel; omega⟩
    have hread := string_quoted [] s.toList rest
    rw [List.cons_append, List.cons_append, List.append_assoc, value, skip_cons rfl]
    simp only [List.cons_append, List.nil_append, hread]
    simp
  | arr items kept ih =>
    intro level fuel rest _ hfuel
    have hdeep : ¬ depth ≤ 1 := by omega
    have hreads : ∀ v ∈ items, Reads l (depth - 1) v := fun v hv => ih v hv (by omega)
    cases items with
    | nil =>
      rw [Layout.value] at hfuel ⊢
      obtain ⟨fuel, rfl⟩ : ∃ f, fuel = f + 1 := ⟨fuel - 1, by simp at hfuel; omega⟩
      show value (fuel + 1) depth ('[' :: ']' :: rest) = _
      rw [value, skip_cons rfl]
      simp only [if_neg hdeep]
      rfl
    | cons v more =>
      have htext : l.value level (.arr (v :: more)) ++ rest
          = '[' :: (l.elements (level + 1) (v :: more) ++ (l.gap level ++ ']' :: rest)) := by
        rw [Layout.value]
        · simp
        · exact nofun
      have hlength : (l.elements (level + 1) (v :: more)).length + 2 ≤ (l.value level (.arr (v :: more))).length := by
        have hcount := congrArg List.length htext
        simp only [List.length_append, List.length_cons] at hcount
        omega
      obtain ⟨fuel, rfl⟩ : ∃ f, fuel = f + 1 := ⟨fuel - 1, by omega⟩
      obtain ⟨hread, hopen⟩ := items_of_skip
        (items_elements l hreads (List.cons_ne_nil v more) (level + 1) level fuel [] rest (by omega))
      rw [htext, value, skip_cons rfl]
      simp only [if_neg hdeep]
      exact hread
  | obj members kept ih =>
    intro level fuel rest _ hfuel
    have hdeep : ¬ depth ≤ 1 := by omega
    have hreads : ∀ m ∈ members, Reads l (depth - 1) m.2 := fun m hm => ih m hm (by omega)
    cases members with
    | nil =>
      rw [Layout.value] at hfuel ⊢
      obtain ⟨fuel, rfl⟩ : ∃ f, fuel = f + 1 := ⟨fuel - 1, by simp at hfuel; omega⟩
      show value (fuel + 1) depth ('\x7b' :: '\x7d' :: rest) = _
      rw [value, skip_cons rfl]
      simp only [if_neg hdeep]
      rfl
    | cons m more =>
      have htext : l.value level (.obj (m :: more)) ++ rest
          = '\x7b' :: (l.entries (level + 1) (m :: more) ++ (l.gap level ++ '\x7d' :: rest)) := by
        rw [Layout.value]
        · simp
        · exact nofun
      have hlength : (l.entries (level + 1) (m :: more)).length + 2 ≤ (l.value level (.obj (m :: more))).length := by
        have hcount := congrArg List.length htext
        simp only [List.length_append, List.length_cons] at hcount
        omega
      obtain ⟨fuel, rfl⟩ : ∃ f, fuel = f + 1 := ⟨fuel - 1, by omega⟩
      obtain ⟨hread, hopen⟩ := members_of_skip
        (members_entries l hreads (List.cons_ne_nil m more) (level + 1) level fuel [] rest (by omega))
      rw [htext, value, skip_cons rfl]
      simp only [if_neg hdeep]
      exact hread

end Reader

/-! ## Whole texts -/

/-- A whole text of a value that is kept is read as the value. -/
lemma readRaw?_layout (l : Layout) {nesting : Nat} {v : Json} (h : Kept nesting v) (hdepth : nesting < maxDepth)
    {text : String} (htext : text.toList = l.value 0 v) : readRaw? text = some v := by
  have hread := Reader.reads_of_kept l h hdepth 0 (2 * text.toList.length + 2) [] .nil (by rw [htext]; omega)
  rw [List.append_nil] at hread
  rw [readRaw?]
  simp only [htext] at hread ⊢
  simp [hread, Reader.skip]

/-- What is written with indentation reads back. -/
theorem readRaw?_pretty {nesting : Nat} {v : Json} (h : Kept nesting v) (hdepth : nesting < maxDepth) :
    readRaw? v.pretty = some v :=
  readRaw?_layout .pretty h hdepth (Layout.value_pretty 0 v).symm

/-- What is written on one line reads back. -/
theorem readRaw?_text {nesting : Nat} {v : Json} (h : Kept nesting v) (hdepth : nesting < maxDepth) :
    readRaw? v.text = some v :=
  readRaw?_layout .compact h hdepth (Layout.value_compact 0 v).symm

/-- What is written of a record reads back in full if its keys are among the names that are read. -/
theorem readRecord?_pretty (names : List String) {nesting : Nat} {members : List (String × Json)}
    (h : Kept nesting (.obj members)) (hdepth : nesting < maxDepth) (hnames : ∀ m ∈ members, m.1 ∈ names) :
    readRecord? names (Json.obj members).pretty = some (.obj members) := by
  have htext : (Json.obj members).pretty.toList = Layout.pretty.value 0 (.obj members) :=
    (Layout.value_pretty 0 (.obj members)).symm
  rw [readRecord?]
  simp only [htext]
  cases members with
  | nil =>
    rw [Layout.value]
    rfl
  | cons m more =>
    cases h with
    | obj _ kept =>
      have hreads : ∀ x ∈ m :: more, Reader.Reads .pretty (maxDepth - 1) x.2 :=
        fun x hx => Reader.reads_of_kept .pretty (kept x hx) (Nat.lt_sub_of_add_lt hdepth)
      have hvalue : Layout.pretty.value 0 (.obj (m :: more))
          = '\x7b' :: (Layout.pretty.entries 1 (m :: more) ++ (Layout.pretty.gap 0 ++ ['\x7d'])) := by
        rw [Layout.value]
        · simp
        · exact nofun
      have hlength : (Layout.pretty.entries 1 (m :: more)).length ≤ (Layout.pretty.value 0 (.obj (m :: more))).length := by
        have hcount := congrArg List.length hvalue
        simp only [List.length_append, List.length_cons] at hcount
        omega
      obtain ⟨hread, hopen⟩ := Reader.members_of_skip (Reader.members_entries .pretty hreads (List.cons_ne_nil m more) 1 0
        (2 * (Layout.pretty.value 0 (.obj (m :: more))).length + 2) [] [] (by omega))
      have hnamed := Reader.namedMembers_eq names hread hnames
      have hwhole : Reader.namedValue names (2 * (Layout.pretty.value 0 (.obj (m :: more))).length + 2) maxDepth
          (Layout.pretty.value 0 (.obj (m :: more))) = some (.obj (m :: more), []) := by
        generalize (Layout.pretty.value 0 (.obj (m :: more))).length = n at hnamed
        rw [hvalue, Reader.namedValue, Reader.skip_cons rfl]
        simp only
        exact hnamed
      rw [hwhole]
      rfl

end Switchboard.Json
