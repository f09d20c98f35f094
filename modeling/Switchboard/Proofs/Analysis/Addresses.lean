import Switchboard.Proofs.Analysis.Mirror
import Switchboard.Proofs.Disk.Names
import Switchboard.Proofs.Text.Uri

/-!
# Addresses of documents

Servers are told addresses that are paths behind a scheme, character by character, and the addresses that they use are taken
apart in the same way. Whoever writes addresses in the generic syntax writes some paths otherwise.

* `Path.countP_congr`: all spellings of a path have equally many characters that are no slashes or dots;
* `Uri.IsOf`: the address of a path in the generic syntax; `Uri.countP_bytes_le`: it is longer than the path as soon as it
  escapes a byte;
* `DocumentUri.bare_of_same`: so an address that is taken for its path says nothing but this path, and escapes nothing;
* `DocumentUri.exists_isOf_iff`, `toPath?_iff`: which paths have an address that servers understand, and which addresses of
  theirs are understood;
* `World.found`: the remarks of a session under an address, once it has heard some events;
* `DocumentUri.found_of_kept`, `found_of_escaped`: whether remarks under an address in the generic syntax are found;
* `DocumentUri.understood_iff`: all of this together.
-/

namespace Switchboard

/-! ## Spellings of paths -/

namespace Path

/-- A character that is found in every spelling of a path. -/
def isSolid (c : Char) : Bool := c ≠ '/' && c ≠ '.'

/-- The byte of such a character, or one of its bytes. -/
def isSolidByte (b : UInt8) : Bool := b ≠ UInt8.ofNat '/'.toNat && b ≠ UInt8.ofNat '.'.toNat

/-- What a component has in every spelling. -/
def Component.solids : Component → List Char
  | .name text => text.toList.filter isSolid
  | _ => []

variable {p q : Path}

lemma flatMap_splitChars (current cs : List Char) :
    (Text.splitChars (· = '/') current cs).flatMap (·.filter isSolid)
      = current.reverse.filter isSolid ++ cs.filter isSolid := by
  induction cs generalizing current with
  | nil => simp [Text.splitChars]
  | cons c rest ih =>
    rw [Text.splitChars]
    split
    · next hc =>
      obtain rfl : c = '/' := by simpa using hc
      rw [List.flatMap_cons, ih]
      rfl
    · rw [ih, List.reverse_cons, List.filter_append, List.append_assoc, ← List.filter_append]
      rfl

lemma Component.solids_ofPiece? (piece : String) :
    (Component.ofPiece? piece).elim [] Component.solids = piece.toList.filter isSolid := by
  unfold Component.ofPiece?
  split
  · next h =>
    rcases h with rfl | rfl
    · rfl
    · rfl
  · split
    · next h =>
      subst h
      rfl
    · rfl

/-- Slashes and dots aside a path is the text of its components. -/
lemma filter_isSolid (p : Path) : p.text.toList.filter isSolid = p.inner.flatMap Component.solids := by
  have hpieces : p.text.toList.filter isSolid = p.pieces.flatMap (·.toList.filter isSolid) := by
    rw [pieces, Text.splitOnAny, List.flatMap_map]
    simp only [String.toList_ofList]
    exact (flatMap_splitChars [] p.text.toList).symm
  rw [hpieces, inner]
  induction p.pieces with
  | nil => rfl
  | cons piece rest ih =>
    rw [List.flatMap_cons, ih, List.filterMap_cons, ← Component.solids_ofPiece?]
    cases Component.ofPiece? piece with
    | none => rfl
    | some c => rfl

/-- Two spellings of a path have equally many characters that are no slashes or dots. -/
lemma countP_congr (h : p.same q = true) : p.text.toList.countP isSolid = q.text.toList.countP isSolid := by
  have hinner : p.inner = q.inner := inner_congr (of_decide_eq_true h)
  rw [List.countP_eq_length_filter, List.countP_eq_length_filter, filter_isSolid, filter_isSolid, hinner]

lemma same_refl (p : Path) : p.same p = true := decide_eq_true rfl

/-- Each such character has such a byte. -/
lemma countP_le_encode (s : String) : s.toList.countP isSolid ≤ (Utf8.encode s).countP isSolidByte := by
  rw [Utf8.encode_eq]
  induction s.toList with
  | nil => exact Nat.le_refl 0
  | cons c rest ih =>
    have hc : [c].countP isSolid ≤ (String.utf8EncodeChar c).countP isSolidByte := by
      by_cases hsolid : isSolid c = true
      · obtain ⟨b, more, hbytes⟩ := List.exists_cons_of_ne_nil (String.utf8EncodeChar_ne_nil (c := c))
        have hmem : b ∈ String.utf8EncodeChar c := hbytes ▸ List.mem_cons_self
        have hb : isSolidByte b = true := by
          simp only [isSolid, isSolidByte, Bool.and_eq_true, decide_eq_true_eq] at hsolid ⊢
          constructor
          · rintro rfl
            exact hsolid.1 ((Utf8.mem_encodeChar (by decide)).mp hmem)
          · rintro rfl
            exact hsolid.2 ((Utf8.mem_encodeChar (by decide)).mp hmem)
        rw [List.countP_cons_of_pos hsolid, List.countP_nil]
        exact List.countP_pos_iff.mpr ⟨b, hmem, hb⟩
      · rw [List.countP_cons_of_neg hsolid]
        exact Nat.zero_le _
    rw [List.flatMap_cons, List.countP_append, ← List.singleton_append, List.countP_append]
    omega

end Path

/-! ## Addresses of paths -/

namespace Uri

/-- The generic address of a path: a file's, whose path stands for the bytes of the path. -/
structure IsOf (u : Uri) (p : Path) : Prop where
  file : u.IsFile
  path : bytes u.path = Utf8.encode p.text

variable {allowed : Char → Bool} {u : Uri} {p q : Path}

lemma HexDigit.isSolid (d : HexDigit) : Path.isSolid d.char = true := by
  have hslash : d.char ≠ '/' := d.char_ne rfl
  have hdot : d.char ≠ '.' := d.char_ne rfl
  rw [Path.isSolid, decide_eq_true hslash, decide_eq_true hdot]
  rfl

/-- A byte that is written by its digits takes three characters, none of them a slash or a dot. -/
lemma Sign.countP_byte_le (s : Sign allowed) :
    [s.byte].countP Path.isSolidByte + [s].countP isEscaped ≤ s.spelling.countP Path.isSolid := by
  cases s with
  | plain c h =>
    have hsolid : Path.isSolidByte (UInt8.ofNat c.toNat) = true → Path.isSolid c = true := by
      simp only [Path.isSolidByte, Path.isSolid, Bool.and_eq_true, decide_eq_true_eq]
      rintro ⟨hslash, hdot⟩
      exact ⟨fun heq => hslash (heq ▸ rfl), fun heq => hdot (heq ▸ rfl)⟩
    simp only [byte, isEscaped, spelling, List.countP_singleton]
    split
    · next h => simp [hsolid h]
    · simp
  | escaped high low =>
    have hall : ∀ c ∈ (escaped high low : Sign allowed).spelling, Path.isSolid c = true := by
      intro c hc
      simp only [spelling, List.mem_cons, List.not_mem_nil, or_false] at hc
      rcases hc with rfl | rfl | rfl
      · rfl
      · exact high.isSolid
      · exact low.isSolid
    have hspelling : (escaped high low : Sign allowed).spelling.countP Path.isSolid = 3 := List.countP_eq_length.mpr hall
    have hbyte : [(escaped high low : Sign allowed).byte].countP Path.isSolidByte ≤ 1 := List.countP_le_length
    have hescaped : [(escaped high low : Sign allowed)].countP isEscaped ≤ 1 := List.countP_le_length
    omega

/-- Slashes and dots aside, what is written is no shorter than what it stands for, and longer with each escaped byte. -/
lemma countP_bytes_le (signs : List (Sign allowed)) :
    (bytes signs).countP Path.isSolidByte + signs.countP Sign.isEscaped ≤ (spell signs).countP Path.isSolid := by
  induction signs with
  | nil => exact Nat.le_refl 0
  | cons s rest ih =>
    have hs := s.countP_byte_le
    have hbytes : bytes (s :: rest) = [s.byte] ++ bytes rest := rfl
    have hsigns : s :: rest = [s] ++ rest := rfl
    rw [spell_cons, List.countP_append, hbytes, List.countP_append, hsigns, List.countP_append]
    omega

/-- An authority that names no host and is written without solid characters says nothing; a host might be a dot. -/
lemma Authority.eq_of_countP {a : Authority} (hhost : a.host = .name []) (h : a.spelling.countP Path.isSolid = 0) : a = {} := by
  have hnone := List.countP_eq_zero.mp h
  obtain ⟨user, host, port⟩ := a
  obtain rfl : host = .name [] := hhost
  cases user with
  | some signs => exact absurd rfl (hnone '@' (by simp [spelling]))
  | none =>
    cases port with
    | some digits => exact absurd rfl (hnone ':' (by simp [spelling]))
    | none => rfl

/-- Without solid characters there is no query and no fragment. -/
lemma tail_of_countP (h : u.tail.countP Path.isSolid = 0) : u.query = none ∧ u.fragment = none := by
  have hnone := List.countP_eq_zero.mp h
  cases hquery : u.query with
  | some signs => exact absurd rfl (hnone '?' (by simp [tail, hquery]))
  | none =>
    cases hfragment : u.fragment with
    | some signs => exact absurd rfl (hnone '#' (by simp [tail, hfragment]))
    | none => exact ⟨rfl, rfl⟩

end Uri

namespace Analysis.DocumentUri

/-! ## What the client makes of addresses -/

variable {u : Uri} {p q : Path}

lemma after?_eq_some {start cs rest : List Char} : after? start cs = some rest ↔ cs = start ++ rest := by
  induction start generalizing cs with
  | nil => exact ⟨fun h => Option.some.inj h, fun h => congrArg some h⟩
  | cons s more ih =>
    cases cs with
    | nil => exact iff_of_false nofun nofun
    | cons c cs =>
      rw [after?, List.cons_append, List.cons.injEq, ← ih]
      split
      · next h => exact ⟨fun hafter => ⟨h.symm, hafter⟩, And.right⟩
      · next h => exact iff_of_false nofun fun hboth => h hboth.1.symm

lemma toPath?_eq_some {uri : String} : toPath? uri = some q ↔ uri = scheme ++ q.text := by
  rw [toPath?, Option.map_eq_some_iff, ← String.toList_inj, String.toList_append]
  constructor
  · rintro ⟨cs, hcs, rfl⟩
    rw [after?_eq_some.mp hcs, String.toList_ofList]
  · intro h
    exact ⟨q.text.toList, after?_eq_some.mpr h, by rw [String.ofList_toList]⟩

lemma ofPath_of_isAbsolute (h : p.isAbsolute = true) (current : Path) : ofPath current p = scheme ++ p.text := by
  rw [ofPath, if_pos h]

lemma toList_scheme (s : String) :
    (scheme ++ s).toList = Uri.fileScheme ++ ':' :: '/' :: '/' :: s.toList := by
  rw [String.toList_append]
  rfl

/-- An address that is taken for the path it stands for says nothing but this path. -/
lemma bare_of_same (hu : u.IsOf p) (hhost : u.HasEmptyHost) (hq : toPath? u.text = some q) (hsame : q.same p = true) :
    u.Bare := by
  have htext := congrArg String.toList (toPath?_eq_some.mp hq)
  rw [Uri.text, String.toList_ofList, toList_scheme] at htext
  obtain ⟨hscheme, hrest⟩ := Uri.spelling_file hu.file htext
  obtain ⟨a, hauthority, hbehind⟩ := Uri.exists_authority hrest
  obtain ⟨b, hb, hname⟩ := hhost
  obtain rfl : b = a := Option.some.inj (hb.symm.trans hauthority)
  -- what the path is written with is all that can be written, and suffices only if no byte is escaped
  have hsum := congrArg (List.countP Path.isSolid) hbehind
  rw [List.countP_append, List.countP_append, Path.countP_congr hsame] at hsum
  have hpath := Path.countP_le_encode p.text
  rw [← hu.path] at hpath
  have hsigns := Uri.countP_bytes_le u.path
  have hescaped : u.path.countP Uri.Sign.isEscaped = 0 := by omega
  obtain ⟨hquery, hfragment⟩ := Uri.tail_of_countP (u := u) (by omega)
  exact {
    scheme := hscheme
    authority := by rw [hauthority, Uri.Authority.eq_of_countP hname (by omega)]
    path := fun s hs => Bool.eq_false_of_not_eq_true (List.countP_eq_zero.mp hescaped s hs)
    query := hquery
    fragment := hfragment }

/-- The path of a bare address is written as it is. -/
lemma spell_of_bare (hu : u.IsOf p) (h : u.Bare) : Uri.spell u.path = p.text.toList := by
  have hbytes := hu.path
  rw [Uri.bytes_eq_encode h.path] at hbytes
  rw [← Utf8.encode_injective hbytes, String.toList_ofList]

lemma text_of_bare (hu : u.IsOf p) (h : u.Bare) : u.text = scheme ++ p.text := by
  apply String.toList_inj.mp
  rw [Uri.text, String.toList_ofList, h.spelling, spell_of_bare hu h, toList_scheme]

/-- The text that a client takes for the address of a path is one only if the path is written as it is. -/
lemma bare_of_text (hp : p.isAbsolute = true) (hu : u.IsOf p) (htext : u.text = scheme ++ p.text) : u.Bare := by
  obtain ⟨rest, hrest⟩ := List.head?_eq_some_iff.mp (of_decide_eq_true hp)
  have hspelling := congrArg String.toList htext
  rw [Uri.text, String.toList_ofList, toList_scheme, hrest] at hspelling
  have hhost := Uri.hasEmptyHost_of_slashes (Uri.spelling_file hu.file hspelling).2
  exact bare_of_same hu hhost (toPath?_eq_some.mpr htext) p.same_refl

/-- An address without host is taken for its path, in whichever spelling, exactly if it is bare. -/
theorem toPath?_iff (hu : u.IsOf p) (hhost : u.HasEmptyHost) :
    (toPath? u.text = some p ↔ u.Bare) ∧ ((∃ q, toPath? u.text = some q ∧ q.same p = true) ↔ u.Bare) := by
  have hpath : u.Bare → toPath? u.text = some p := fun h => toPath?_eq_some.mpr (text_of_bare hu h)
  constructor
  · exact ⟨fun h => bare_of_same hu hhost h p.same_refl, hpath⟩
  · constructor
    · rintro ⟨q, hq, hsame⟩
      exact bare_of_same hu hhost hq hsame
    · exact fun h => ⟨p, hpath h, p.same_refl⟩

/-! ### Addresses that others write -/

/-- The address of a path, as somebody writes it. -/
def written (v : Uri.Convention) (p : Path) (hp : p.isAbsolute = true) : Uri := v.address p.text.toList (of_decide_eq_true hp)

section Written

variable (v : Uri.Convention) (hp : p.isAbsolute = true)

lemma isOf_written : (written v p hp).IsOf p where
  file := rfl
  path := (v.bytes_write p.text.toList).trans (Utf8.encode_eq p.text).symm

lemma hasEmptyHost_written : (written v p hp).HasEmptyHost := ⟨{}, rfl, rfl⟩

/-- Others write the address of a path as the client does exactly if they leave all its characters as they are. -/
lemma written_text_iff : (written v p hp).text = scheme ++ p.text ↔ ∀ c ∈ p.text.toList, v.keeps c = true := by
  have hspelling : (written v p hp).spelling
      = Uri.fileScheme ++ ':' :: '/' :: '/' :: (Uri.spell (v.write p.text.toList) ++ []) := rfl
  rw [← v.spell_write_iff, ← String.toList_inj, Uri.text, String.toList_ofList, toList_scheme, hspelling, List.append_nil]
  exact List.append_right_inj (Uri.fileScheme ++ [':', '/', '/'])

end Written

end Analysis.DocumentUri

/-! ## Remarks under addresses -/

namespace World

open Analysis

/-- A server lists remarks for an address. -/
structure Lists (e : Channel.Event) (uri : String) (items : List Json) : Prop where
  name : e.name = Session.publishEvent
  uri : e.body.get? "uri" = some (.str uri)
  items : e.body.get? "diagnostics" = some (.arr items)

/-- The remarks that a server listed last for an address, as far as they have the form of one. -/
def listedLast? (uri : String) (events : List Channel.Event) : Option (List Diagnostic) :=
  ((published events).reverse.findSome? (Diagnostics.listed? uri)).map Diagnostic.readAll

/-- The remarks of a session under an address, once it has heard some events. -/
def found (w : World) (k : Nat) (uri : String) (events : List Channel.Event) : List Diagnostic :=
  ((events.foldl (applyAnalysisEvent k) w).analysis.session k).diagnostics.get uri

variable {w : World} {k : Nat}

/-- For each address the last list counts. -/
lemma found_eq (hk : k < w.analysis.sessions.length) (uri : String) (events : List Channel.Event) :
    w.found k uri events = (listedLast? uri events).getD (w.found k uri []) := by
  have hremarks := remarks_applyAnalysisEvents hk events
  rw [found, (hremarks.diagnostics hk).2, Diagnostics.get_run]
  rfl

lemma published_insert {e : Channel.Event} (he : e.name = Session.publishEvent) (before after : List Channel.Event) :
    published (before ++ e :: after) = published before ++ e.body :: published after := by
  rw [published, List.filter_append, List.filter_cons_of_pos (by simpa using he), List.map_append]
  rfl

lemma published_append (before after : List Channel.Event) :
    published (before ++ after) = published before ++ published after := by
  rw [published, List.filter_append, List.map_append]
  rfl

/-- A list counts for its own address, until there is another one. -/
lemma listedLast?_insert {e : Channel.Event} {other : String} {items : List Json} (he : Lists e other items) (uri : String)
    (before after : List Channel.Event) :
    listedLast? uri (before ++ e :: after)
      = if other = uri then some ((listedLast? uri after).getD (Diagnostic.readAll items))
        else listedLast? uri (before ++ after) := by
  have hlisted : Diagnostics.listed? uri e.body = if other = uri then some items else none := by
    rw [Diagnostics.listed?, Diagnostics.published?_eq_some.mpr ⟨he.uri, he.items⟩]
  rw [listedLast?, published_insert he.name, List.reverse_append, List.reverse_cons, List.append_assoc,
    List.findSome?_append, List.singleton_append, List.findSome?_cons, hlisted, listedLast?, listedLast?,
    published_append, List.reverse_append, List.findSome?_append]
  by_cases h : other = uri
  · rw [if_pos h, if_pos h]
    cases (published after).reverse.findSome? (Diagnostics.listed? uri) <;> rfl
  · rw [if_neg h, if_neg h]

end World

namespace Analysis.DocumentUri

section Understood

variable {p : Path} (hp : p.isAbsolute = true)

include hp

/-- What servers are told is an address of the path exactly if all its characters may stand in one. -/
theorem exists_isOf_iff : (∃ u : Uri, u.IsOf p ∧ u.text = scheme ++ p.text) ↔
    ∀ c ∈ p.text.toList, Uri.isPathCharacter c = true := by
  constructor
  · rintro ⟨u, hu, htext⟩ c hc
    have hbare := bare_of_text hp hu htext
    rw [← spell_of_bare hu hbare] at hc
    exact Uri.allowed_of_mem_spell hbare.path hc
  · intro hall
    exact ⟨written .lenient p hp, isOf_written _ hp, (written_text_iff _ hp).mpr hall⟩

variable (v : Uri.Convention) {w : World} {k : Nat} (hk : k < w.analysis.sessions.length) {e : Channel.Event}
  {items : List Json} (he : World.Lists e (written v p hp).text items) (before after : List Channel.Event)

include hk he

/-- What is listed under an address that leaves all characters as they are is found, until something else is listed. -/
theorem found_of_kept (hall : ∀ c ∈ p.text.toList, v.keeps c = true) :
    w.found k (scheme ++ p.text) (before ++ e :: after)
      = (World.listedLast? (written v p hp).text after).getD (Diagnostic.readAll items) := by
  rw [(written_text_iff v hp).mpr hall] at he ⊢
  rw [World.found_eq hk, World.listedLast?_insert he, if_pos rfl]
  rfl

/-- What is listed under an address with an escaped character makes no difference. -/
theorem found_of_escaped (hsome : ∃ c ∈ p.text.toList, v.keeps c = false) :
    w.found k (scheme ++ p.text) (before ++ e :: after) = w.found k (scheme ++ p.text) (before ++ after) := by
  have hother : (written v p hp).text ≠ scheme ++ p.text := by
    rw [Ne, written_text_iff]
    intro hall
    obtain ⟨c, hc, hkeeps⟩ := hsome
    exact Bool.false_ne_true (hkeeps.symm.trans (hall c hc))
  rw [World.found_eq hk, World.listedLast?_insert he, if_neg hother, ← World.found_eq hk]

end Understood

/-- The client's text for a path is a generic address of the path exactly if all its characters may stand in one. A generic
address without host is taken for its path, in whichever spelling, exactly if it says nothing besides and escapes nothing. And
somebody who writes addresses in the generic way lists remarks on the path: they are found, until others are listed, if all
characters of the path are left as they are, and else are never found, whatever comes before and after. -/
theorem understood_iff {p : Path} (hp : p.isAbsolute = true) (current : Path) :
    ((∃ u : Uri, u.IsOf p ∧ u.text = ofPath current p) ↔ ∀ c ∈ p.text.toList, Uri.isPathCharacter c = true) ∧
      (∀ u : Uri, u.IsOf p → u.HasEmptyHost →
        (toPath? u.text = some p ↔ u.Bare) ∧ ((∃ q, toPath? u.text = some q ∧ q.same p = true) ↔ u.Bare)) ∧
      ∀ v : Uri.Convention, (written v p hp).IsOf p ∧ (written v p hp).HasEmptyHost ∧
        ∀ (w : World) (k : Nat) (before after : List Channel.Event) (e : Channel.Event) (items : List Json),
          k < w.analysis.sessions.length → World.Lists e (written v p hp).text items →
          ((∀ c ∈ p.text.toList, v.keeps c = true) → w.found k (ofPath current p) (before ++ e :: after)
            = (World.listedLast? (written v p hp).text after).getD (Diagnostic.readAll items)) ∧
          ((∃ c ∈ p.text.toList, v.keeps c = false) → w.found k (ofPath current p) (before ++ e :: after)
            = w.found k (ofPath current p) (before ++ after)) := by
  rw [ofPath_of_isAbsolute hp]
  refine ⟨exists_isOf_iff hp, fun u hu hhost => toPath?_iff hu hhost, fun v => ?_⟩
  refine ⟨isOf_written v hp, hasEmptyHost_written v hp, fun w k before after e items hk he => ?_⟩
  exact ⟨found_of_kept hp v hk he before after, found_of_escaped hp v hk he before after⟩

/-- A remark on the first character of a document. -/
def remark : Json :=
  .obj [("message", "unused"), ("range", .obj [("start", .obj [("character", .nat 0), ("line", .nat 0)]),
    ("end", .obj [("character", .nat 1), ("line", .nat 0)])])]

/-- A blank may not stand in an address: what servers are told is none, the one they use leads elsewhere, and what they list
under it is not found. -/
theorem not_understood_blank :
    let p : Path := { text := "/a b" }
    let e : Channel.Event :=
      { name := Session.publishEvent, body := .obj [("diagnostics", .arr [remark]), ("uri", "file:///a%20b")] }
    let w : World := { analysis := { sessions := [default] } }
    p.isAbsolute = true ∧ (¬ ∃ u : Uri, u.IsOf p ∧ u.text = ofPath { text := "/" } p) ∧
      (∃ u : Uri, u.IsOf p ∧ u.HasEmptyHost ∧ u.text = "file:///a%20b" ∧ toPath? u.text = some { text := "/a%20b" } ∧
        ¬ u.Bare) ∧
      0 < w.analysis.sessions.length ∧ World.Lists e "file:///a%20b" [remark] ∧ (Diagnostic.readAll [remark]).length = 1 ∧
      w.found 0 (ofPath { text := "/" } p) [e] = [] := by
  have htext : (written .strict { text := "/a b" } (by decide)).text = "file:///a%20b" := by decide
  intro p e w
  have hp : p.isAbsolute = true := by decide
  have he : World.Lists e "file:///a%20b" [remark] := ⟨rfl, rfl, rfl⟩
  obtain ⟨hmade, hread, hfound⟩ := understood_iff hp { text := "/" }
  obtain ⟨hof, hhost, hlisted⟩ := hfound .strict
  have hthere : toPath? (written .strict p hp).text = some { text := "/a%20b" } := by
    rw [htext]
    decide
  have hunheard := (hlisted w 0 [] [] e [remark] Nat.one_pos (htext ▸ he)).2 ⟨' ', by decide, by decide⟩
  have hnothing : w.found 0 (ofPath { text := "/" } p) [] = [] := rfl
  refine ⟨hp, ?_, ⟨written .strict p hp, hof, hhost, htext, hthere, ?_⟩, Nat.one_pos, he, by decide,
    hunheard.trans hnothing⟩
  · rw [hmade]
    intro hall
    exact absurd (hall ' ' (by decide)) (by decide)
  · rw [← (hread _ hof hhost).1, hthere]
    decide

end Analysis.DocumentUri

end Switchboard
