import Switchboard.Proofs.Disk.Ways
import Switchboard.Proofs.Text.Pieces

/-!
# Names of files

* `Path.inner`, `Path.components_eq`: where a path begins, and what else it says;
* `Path.components_join`: spellings of one path are spellings of one path from any directory;
* `Path.Plain`: a name that can only be the name of a file;
* `Path.pieces_join`, `Path.parent?_join`: a path to such a name in a directory;
* `Path.padded_home`: the directory as it is spelled when it is taken from such a path;
* `Disk.place_join`, `Disk.place_home`: all such names of one directory stand side by side.
-/

namespace Switchboard

namespace Path

/-- A name that can only be the name of a file. -/
structure Plain (name : String) : Prop where
  slash : '/' ∉ name.toList
  nul : '\x00' ∉ name.toList
  proper : name ≠ "" ∧ name ≠ "." ∧ name ≠ ".."
  short : name.utf8ByteSize ≤ 255

/-- What stands before the name of a file in a directory. -/
def stem (directory : Path) : List Char :=
  if directory.text = "" ∨ directory.text.toList.getLast? = some '/' then directory.text.toList
  else directory.text.toList ++ ['/']

lemma stem_cases (directory : Path) : directory.stem = [] ∨ ∃ cs, directory.stem = cs ++ ['/'] := by
  unfold stem
  split
  · next h =>
    rcases h with h | h
    · exact .inl (by rw [h]; rfl)
    · obtain ⟨cs, hcs⟩ := List.getLast?_eq_some_iff.mp h
      exact .inr ⟨cs, hcs⟩
  · exact .inr ⟨_, rfl⟩

variable (directory : Path) {name : String}

lemma isAbsolute_of_plain (h : Plain name) : (Path.mk name).isAbsolute = false := by
  have hhead : name.toList.head? ≠ some '/' := by
    intro hhead
    exact h.slash (List.mem_of_mem_head? hhead)
  simpa [isAbsolute] using hhead

lemma toList_join (h : Plain name) : (directory.join ⟨name⟩).text.toList = directory.stem ++ name.toList := by
  rw [join, isAbsolute_of_plain h, if_neg Bool.false_ne_true, stem]
  split
  · exact String.toList_append
  · simp

/-- The pieces of the directory. -/
def above : List String :=
  match directory.stem with
  | [] => []
  | stem => (Text.splitChars (· = '/') [] stem.dropLast).map String.ofList

lemma pieces_join (h : Plain name) : (directory.join ⟨name⟩).pieces = directory.above ++ [name] := by
  have hname : ∀ c ∈ name.toList, decide (c = '/') = false := by
    intro c hc
    have hne : c ≠ '/' := by
      intro heq
      exact h.slash (heq ▸ hc)
    simpa using hne
  rw [pieces, Text.splitOnAny, toList_join directory h, above]
  rcases directory.stem_cases with hstem | ⟨cs, hstem⟩
  · rw [hstem, List.nil_append, Text.splitChars_of_none hname]
    simp
  · rw [hstem, List.append_assoc, List.singleton_append, Text.splitChars_append (by simp),
      Text.splitChars_of_none hname]
    have hne : cs ++ ['/'] ≠ [] := by simp
    split
    · next heq => exact absurd heq hne
    · simp

lemma isAbsolute_join (h : Plain name) :
    (directory.join ⟨name⟩).isAbsolute = decide (directory.stem.head? = some '/') := by
  have hname := isAbsolute_of_plain h
  unfold isAbsolute at hname ⊢
  rw [toList_join directory h]
  cases hstem : directory.stem with
  | nil => simpa using hname
  | cons c rest => simp

/-- The last step to a file is its name. -/
lemma getLast?_components_join (h : Plain name) : (directory.join ⟨name⟩).components.getLast? = some (.name name) := by
  obtain ⟨hempty, hhere, hup⟩ := h.proper
  have hname : Component.ofPiece? name = some (.name name) := by simp [Component.ofPiece?, hempty, hhere, hup]
  have hlast : ∀ first pieces : List Component,
      (first ++ (pieces ++ [Component.name name])).getLast? = some (.name name) := by
    intro first pieces
    simp
  have hall : ∀ before : List String, (before ++ [name]).filterMap Component.ofPiece?
      = before.filterMap Component.ofPiece? ++ [.name name] := by
    intro before
    simp [hname]
  rw [components, pieces_join directory h]
  cases directory.above with
  | nil =>
    rw [List.nil_append]
    split
    · next heq => exact absurd (List.cons.inj heq).1 hempty
    · next heq => exact absurd (List.cons.inj heq).1 hhere
    · exact congrArg List.getLast? (hall [])
  | cons piece rest =>
    rw [List.cons_append]
    split
    · next heq =>
      rw [← (List.cons.inj heq).2, hall]
      split
      · exact hlast [.root] _
      · exact hlast [] _
    · next heq =>
      rw [← (List.cons.inj heq).2, hall]
      exact hlast [.here] _
    · rw [← List.cons_append, hall]
      exact hlast [] _

/-- Nothing is trimmed from a path to a file. -/
lemma trimmed_join (h : Plain name) : trimmed (directory.join ⟨name⟩).text = (directory.join ⟨name⟩).text := by
  have hkept : ∀ (fuel : Nat) (c : Char) (cs : List Char), c ≠ '/' → (c = '.' → ∃ c' rest, cs = c' :: rest ∧ c' ≠ '/') →
      dropTail fuel (c :: cs) = c :: cs := by
    intro fuel c cs hslash hdot
    cases fuel with
    | zero => rfl
    | succ fuel =>
      rw [dropTail.eq_def]
      split
      · rfl
      · split <;> simp_all
  have hne : name.toList ≠ [] := by simpa using h.proper.1
  obtain ⟨cs, c, hcs⟩ : ∃ cs c, name.toList = cs ++ [c] := ⟨_, _, (List.dropLast_append_getLast hne).symm⟩
  have hslash : c ≠ '/' := by
    intro heq
    exact h.slash (by simp [hcs, heq])
  -- a name that ends in a dot does not consist of it
  have hdot : c = '.' → ∃ c' rest, cs.reverse ++ directory.stem.reverse = c' :: rest ∧ c' ≠ '/' := by
    rintro rfl
    cases hreverse : cs.reverse with
    | nil =>
      rw [List.reverse_eq_nil_iff.mp hreverse] at hcs
      exact absurd (String.toList_inj.mp hcs) h.proper.2.1
    | cons c' rest =>
      refine ⟨c', rest ++ directory.stem.reverse, rfl, ?_⟩
      rintro rfl
      have hmem : '/' ∈ cs := List.mem_reverse.mp (hreverse ▸ List.mem_cons_self)
      exact h.slash (hcs ▸ List.mem_append_left _ hmem)
  have hreverse : (directory.join ⟨name⟩).text.toList.reverse = c :: (cs.reverse ++ directory.stem.reverse) := by
    rw [toList_join directory h, hcs]
    simp
  rw [trimmed, hreverse, hkept _ c _ hslash hdot, ← hreverse, List.reverse_reverse, String.ofList_toList]

/-- The directory of a file, as it is spelled when it is taken from a path to the file. -/
def home : Path := ⟨trimmed (String.ofList directory.stem)⟩

/-- The directory of a file. -/
lemma parent?_join (h : Plain name) : (directory.join ⟨name⟩).parent? = some directory.home := by
  have hname : ∀ c ∈ name.toList.reverse, decide (c ≠ '/') = true := by
    intro c hc
    have hne : c ≠ '/' := by
      intro heq
      rw [heq, List.mem_reverse] at hc
      exact h.slash hc
    simpa using hne
  have hstem : directory.stem.reverse.dropWhile (· ≠ '/') = directory.stem.reverse := by
    rcases directory.stem_cases with heq | ⟨cs, heq⟩
    · rw [heq]
      rfl
    · rw [heq]
      simp
  have hupTo : ((trimmed (directory.join ⟨name⟩).text).toList.reverse.dropWhile (· ≠ '/')).reverse = directory.stem := by
    rw [trimmed_join directory h, toList_join directory h, List.reverse_append, List.dropWhile_append_of_pos hname,
      hstem, List.reverse_reverse]
  unfold parent?
  rw [getLast?_components_join directory h]
  dsimp only
  rw [hupTo, home]

lemma fileName?_join (h : Plain name) : (directory.join ⟨name⟩).fileName? = some name := by
  unfold fileName?
  rw [getLast?_components_join directory h]

/-- A file beside another one. -/
lemma join_append (h : Plain name) {more : String} (hmore : Plain (name ++ more)) :
    (⟨(directory.join ⟨name⟩).text ++ more⟩ : Path) = directory.join ⟨name ++ more⟩ := by
  have htext : ((directory.join ⟨name⟩).text ++ more).toList = (directory.join ⟨name ++ more⟩).text.toList := by
    rw [String.toList_append, toList_join directory h, toList_join directory hmore, String.toList_append,
      List.append_assoc]
  exact congrArg Path.mk (String.toList_inj.mp htext)

/-! ### The directory as its files spell it -/

/-- The names and dots between the slashes of a text. -/
def names (cs : List Char) : List String := ((Text.splitChars (· = '/') [] cs).map String.ofList).filter (· ≠ "")

lemma names_slash (cs more : List Char) : names (cs ++ '/' :: more) = names cs ++ names more := by
  rw [names, Text.splitChars_append (by simp), List.map_append, List.filter_append]
  rfl

lemma names_concat_slash (cs : List Char) : names (cs ++ ['/']) = names cs := by
  rw [names_slash]
  exact List.append_nil _

/-- One text leads where another one leads: it only says `.` more often. -/
structure Padded (long short : List Char) : Prop where
  nul : '\x00' ∈ long ↔ '\x00' ∈ short
  head : long.head? = some '/' ↔ short.head? = some '/'
  names : ∃ k, names long = names short ++ List.replicate k "."

namespace Padded

lemma refl (cs : List Char) : Padded cs cs := ⟨Iff.rfl, Iff.rfl, 0, (List.append_nil _).symm⟩

lemma trans {a b c : List Char} (h : Padded a b) (h' : Padded b c) : Padded a c := by
  obtain ⟨k, hk⟩ := h.names
  obtain ⟨l, hl⟩ := h'.names
  exact ⟨h.nul.trans h'.nul, h.head.trans h'.head, l + k, by rw [hk, hl, List.append_assoc, List.replicate_append_replicate]⟩

/-- A slash at the end. -/
lemma slash {cs : List Char} (h : cs ≠ []) : Padded (cs ++ ['/']) cs := by
  refine ⟨by simp, by rw [List.head?_append_of_ne_nil _ h], 0, ?_⟩
  rw [names_concat_slash, List.replicate_zero, List.append_nil]

lemma unslash {cs : List Char} (h : cs ≠ []) : Padded cs (cs ++ ['/']) := by
  refine ⟨(slash h).nul.symm, (slash h).head.symm, 0, ?_⟩
  rw [names_concat_slash, List.replicate_zero, List.append_nil]

/-- A dot behind a slash at the end. -/
lemma dot (cs : List Char) : Padded (cs ++ ['/', '.']) (cs ++ ['/']) := by
  refine ⟨by simp, by cases cs <;> simp, 1, ?_⟩
  rw [names_slash, names_concat_slash]
  rfl

/-- What is trimmed off only says `.`. -/
lemma dropTail (fuel : Nat) (cs : List Char) : Padded cs.reverse (dropTail fuel cs).reverse := by
  induction fuel generalizing cs with
  | zero => exact refl _
  | succ fuel ih =>
    rw [Path.dropTail.eq_def]
    dsimp only
    split
    · exact refl _
    · next rest hrest =>
      have hne : rest.reverse ≠ [] := by
        intro hnil
        exact hrest (List.reverse_eq_nil_iff.mp hnil)
      rw [List.reverse_cons]
      exact (slash hne).trans (ih rest)
    · exact dot []
    · next rest _ =>
      have hdot := dot rest.reverse
      rw [List.reverse_cons, List.reverse_cons, List.append_assoc]
      exact hdot.trans (List.reverse_cons ▸ ih ('/' :: rest))
    · exact refl _

end Padded

/-- The spelling of a directory is at most shortened. -/
lemma padded_home (directory : Path) : Padded directory.stem directory.home.stem := by
  have hshort : Padded directory.stem directory.home.text.toList := by
    have hdrop := Padded.dropTail (String.ofList directory.stem).length directory.stem.reverse
    rw [List.reverse_reverse] at hdrop
    rw [home, trimmed, String.toList_ofList, String.toList_ofList]
    exact hdrop
  refine hshort.trans ?_
  rw [stem]
  split
  · exact .refl _
  · next hopen =>
    refine .unslash fun hnil => hopen (.inl ?_)
    simpa using hnil

/-- The names of a directory's pieces. -/
lemma filter_above (directory : Path) : directory.above.filter (· ≠ "") = names directory.stem := by
  unfold above
  rcases directory.stem_cases with hstem | ⟨cs, hstem⟩
  · rw [hstem]
    rfl
  · rw [hstem, names_concat_slash]
    split
    · next heq => exact absurd heq (by simp)
    · rw [List.dropLast_concat]
      rfl

end Path

/-! ## Spellings -/

namespace Path

/-- What a path says apart from where it begins. -/
def inner (p : Path) : List Component := p.pieces.filterMap Component.ofPiece?

/-- Where it begins. -/
def lead (p : Path) : List Component :=
  if p.isAbsolute then [.root] else if p.pieces.head? = some "." then [.here] else []

variable {p q : Path}

/-- A text starts with a slash exactly if its first piece is empty, unless it is empty itself. -/
lemma pieces_of_absolute (h : p.isAbsolute = true) : ∃ rest, p.pieces = "" :: rest := by
  rw [isAbsolute, decide_eq_true_eq] at h
  obtain ⟨rest, hrest⟩ := List.head?_eq_some_iff.mp h
  refine ⟨(Text.splitChars (· = '/') [] rest).map String.ofList, ?_⟩
  rw [pieces, Text.splitOnAny, hrest]
  rfl

lemma components_eq (p : Path) : p.components = p.lead ++ p.inner := by
  cases habs : p.isAbsolute with
  | true =>
    obtain ⟨rest, hrest⟩ := pieces_of_absolute habs
    simp only [components, lead, inner, hrest, habs]
    rfl
  | false =>
    have hlead : p.lead = if p.pieces.head? = some "." then [.here] else [] := by
      rw [lead, habs, if_neg Bool.false_ne_true]
    rw [hlead, components, inner]
    split
    · next rest hpieces =>
      rw [hpieces, habs]
      rfl
    · next rest hpieces =>
      rw [hpieces]
      rfl
    · next hempty hhere =>
      rw [if_neg, List.nil_append]
      intro hhead
      obtain ⟨rest, hrest⟩ := List.head?_eq_some_iff.mp hhead
      exact hhere rest hrest

lemma inner_eq_filter (p : Path) : p.inner = p.components.filter fun c => c ≠ .root ∧ c ≠ .here := by
  have hinner : ∀ c ∈ p.inner, c ≠ .root ∧ c ≠ .here := by
    intro c hc
    obtain ⟨piece, -, hpiece⟩ := List.mem_filterMap.mp hc
    unfold Component.ofPiece? at hpiece
    split at hpiece
    · cases hpiece
    · split at hpiece
      · obtain rfl := Option.some.inj hpiece
        exact ⟨nofun, nofun⟩
      · obtain rfl := Option.some.inj hpiece
        exact ⟨nofun, nofun⟩
  have hlead : p.lead.filter (fun c => c ≠ .root ∧ c ≠ .here) = [] := by
    unfold lead
    split
    · rfl
    · split <;> rfl
  rw [components_eq, List.filter_append, hlead, List.nil_append]
  exact (List.filter_eq_self.mpr fun c hc => decide_eq_true (hinner c hc)).symm

lemma inner_congr (h : p.components = q.components) : p.inner = q.inner := by
  rw [inner_eq_filter, inner_eq_filter, h]

lemma isAbsolute_iff : p.isAbsolute = true ↔ p.components.head? = some .root := by
  rw [components_eq]
  cases habs : p.isAbsolute with
  | true => simp [lead, habs]
  | false =>
    refine iff_of_false Bool.false_ne_true fun hroot => ?_
    have hmem : Component.root ∈ p.lead ++ p.inner := List.mem_of_mem_head? hroot
    rcases List.mem_append.mp hmem with hlead | hinner
    · rw [lead, habs, if_neg Bool.false_ne_true] at hlead
      split at hlead
      · exact absurd (List.mem_singleton.mp hlead) nofun
      · cases hlead
    · rw [inner_eq_filter, List.mem_filter] at hinner
      simp at hinner

lemma isAbsolute_congr (h : p.components = q.components) : p.isAbsolute = q.isAbsolute := by
  rw [Bool.eq_iff_iff, isAbsolute_iff, isAbsolute_iff, h]

/-- What stands before a relative path that is seen from a directory: nothing, or a text and a slash. -/
lemma exists_join (root : Path) : (∀ q : Path, q.isAbsolute = false → root.join q = q) ∨
    ∃ before : List Char, ∀ q : Path, q.isAbsolute = false → (root.join q).text.toList = before ++ '/' :: q.text.toList := by
  by_cases hempty : root.text = ""
  · refine .inl fun q hq => ?_
    rw [join, hq, if_neg Bool.false_ne_true, if_pos (.inl hempty), hempty, String.empty_append]
  · right
    by_cases hslash : root.text.toList.getLast? = some '/'
    · obtain ⟨before, hbefore⟩ := List.getLast?_eq_some_iff.mp hslash
      refine ⟨before, fun q hq => ?_⟩
      rw [join, hq, if_neg Bool.false_ne_true, if_pos (.inr hslash)]
      show (root.text ++ q.text).toList = _
      rw [String.toList_append, hbefore, List.append_assoc]
      rfl
    · refine ⟨root.text.toList, fun q hq => ?_⟩
      rw [join, hq, if_neg Bool.false_ne_true, if_neg (not_or.mpr ⟨hempty, hslash⟩)]
      show (root.text ++ "/" ++ q.text).toList = _
      rw [String.toList_append, String.toList_append, List.append_assoc]
      rfl

/-- Spellings of one path are spellings of one path from any directory. -/
theorem components_join (h : p.components = q.components) (root : Path) :
    (root.join p).components = (root.join q).components := by
  have habs := isAbsolute_congr h
  cases hp : p.isAbsolute with
  | true => rw [join, join, if_pos hp, if_pos (habs ▸ hp), h]
  | false =>
    have hq : q.isAbsolute = false := habs ▸ hp
    rcases root.exists_join with hself | ⟨before, hbefore⟩
    · rw [hself p hp, hself q hq, h]
    · have hpieces : ∀ r : Path, r.isAbsolute = false →
          (root.join r).pieces = (Text.splitChars (· = '/') [] before).map String.ofList ++ r.pieces := by
        intro r hr
        rw [pieces, Text.splitOnAny, hbefore r hr, Text.splitChars_append (by simp), List.map_append]
        rfl
      have hne : (Text.splitChars (· = '/') [] before).map String.ofList ≠ [] := by
        simpa using Text.splitChars_ne_nil [] before
      have hlead : (root.join p).lead = (root.join q).lead := by
        have habsolute : ∀ r : Path, r.isAbsolute = false →
            (root.join r).isAbsolute = decide ((before ++ ['/']).head? = some '/') := by
          intro r hr
          rw [isAbsolute, hbefore r hr]
          cases before <;> rfl
        rw [lead, lead, habsolute p hp, habsolute q hq, hpieces p hp, hpieces q hq, List.head?_append_of_ne_nil _ hne,
          List.head?_append_of_ne_nil _ hne]
      rw [components_eq, components_eq, hlead, inner, inner, hpieces p hp, hpieces q hq, List.filterMap_append,
        List.filterMap_append]
      exact congrArg _ (congrArg _ (inner_congr h))

end Path

/-! ## Places -/

namespace Disk

variable {d : Disk}

lemma follow_append (place : Place) (first second : List String) :
    d.follow place (first ++ second) = (do d.follow (← d.follow place first) second) := by
  induction first generalizing place with
  | nil => rfl
  | cons piece rest ih =>
    rw [List.cons_append, follow, follow]
    cases d.directoryAt place with
    | error e => rfl
    | ok u =>
      simp only [bind, Except.bind] at ih ⊢
      split
      · exact ih place
      · split
        · exact ih _
        · split
          · rfl
          · exact ih _

/-- A name is followed into a directory. -/
lemma follow_plain {name : String} (h : Path.Plain name) (place : Place) :
    d.follow place [name] = (do
      d.directoryAt place
      return place ++ [name]) := by
  obtain ⟨-, hhere, hup⟩ := h.proper
  have hshort : ¬ 255 < name.utf8ByteSize := Nat.not_lt.mpr h.short
  rw [follow]
  simp only [hhere, hup, hshort, if_false]
  rfl

/-- The place of a file is right below that of its directory. -/
lemma place_join_eq (directory : Path) {name : String} (h : Path.Plain name) :
    d.place (directory.join ⟨name⟩) = if directory.stem.contains '\x00' then .error .nulInPath
      else do
        let parent ← d.follow (if directory.stem.head? = some '/' then [] else d.current) (directory.above.filter (· ≠ ""))
        d.directoryAt parent
        return parent ++ [name] := by
  have hnul : (directory.join ⟨name⟩).text.toList.contains '\x00' = directory.stem.contains '\x00' := by
    have hname := h.nul
    rw [Path.toList_join directory h, Bool.eq_iff_iff]
    simp [hname]
  have hempty : (directory.join ⟨name⟩).text ≠ "" := by
    intro heq
    have htext := Path.toList_join directory h
    rw [heq] at htext
    have hname : name.toList = [] := (List.append_eq_nil_iff.mp htext.symm).2
    exact h.proper.1 (by simpa using hname)
  have hpieces : (directory.join ⟨name⟩).pieces.filter (· ≠ "") = directory.above.filter (· ≠ "") ++ [name] := by
    rw [Path.pieces_join directory h, List.filter_append]
    simp [h.proper.1]
  have hstart : d.start (directory.join ⟨name⟩)
      = if directory.stem.head? = some '/' then [] else d.current := by
    rw [start, Path.isAbsolute_join directory h]
    simp
  rw [place_eq, hnul, if_neg hempty, hpieces, hstart, follow_append]
  simp only [follow_plain h]

/-- Files of one directory stand side by side. -/
theorem place_join {directory : Path} {name other : String} (hname : Path.Plain name) (hother : Path.Plain other)
    {last : Place} (h : d.place (directory.join ⟨name⟩) = .ok last) :
    ∃ parent, last = parent ++ [name] ∧ d.place (directory.join ⟨other⟩) = .ok (parent ++ [other]) := by
  rw [place_join_eq directory hname] at h
  rw [place_join_eq directory hother]
  split at h
  · cases h
  · next hnul =>
    rw [if_neg hnul]
    cases hparent : d.follow (if directory.stem.head? = some '/' then [] else d.current)
        (directory.above.filter (· ≠ "")) with
    | error e =>
      rw [hparent] at h
      cases h
    | ok parent =>
      rw [hparent] at h
      simp only [bind, Except.bind] at h ⊢
      cases hdirectory : d.directoryAt parent with
      | error e =>
        rw [hdirectory] at h
        cases h
      | ok u =>
        rw [hdirectory] at h
        exact ⟨parent, (Except.ok.inj h).symm, rfl⟩

/-- Dots at the end of the way to a directory do not count. -/
lemma follow_dots {α : Type} (place : Place) (pieces : List String) (k : Nat) (f : Place → Except Fault α) :
    (do
      let parent ← d.follow place (pieces ++ List.replicate k ".")
      d.directoryAt parent
      f parent) = (do
      let parent ← d.follow place pieces
      d.directoryAt parent
      f parent) := by
  have hdots (parent : Place) : (do
      let last ← d.follow parent (List.replicate k ".")
      d.directoryAt last
      f last) = (do
      d.directoryAt parent
      f parent) := by
    induction k with
    | zero => rfl
    | succ k ih =>
      rw [List.replicate_succ, follow, if_pos rfl]
      cases hdirectory : d.directoryAt parent with
      | error e => rfl
      | ok u =>
        rw [hdirectory] at ih
        exact ih
  rw [follow_append]
  cases d.follow place pieces with
  | error e => rfl
  | ok parent => exact hdots parent

/-- A file is found from its directory as the files spell it. -/
lemma place_home (directory : Path) {name : String} (h : Path.Plain name) :
    d.place (directory.home.join ⟨name⟩) = d.place (directory.join ⟨name⟩) := by
  have hpadded := Path.padded_home directory
  have hnul : directory.home.stem.contains '\x00' = directory.stem.contains '\x00' := by
    rw [Bool.eq_iff_iff, List.contains_iff_mem, List.contains_iff_mem, hpadded.nul]
  have hstart : (if directory.home.stem.head? = some '/' then [] else d.current)
      = if directory.stem.head? = some '/' then [] else d.current :=
    if_congr hpadded.head.symm rfl rfl
  obtain ⟨k, hk⟩ := hpadded.names
  rw [place_join_eq directory h, place_join_eq directory.home h, hnul, hstart, Path.filter_above, Path.filter_above, hk,
    follow_dots]

/-- The spelling of a file does not demand a directory. -/
lemma demandsDirectory_join (directory : Path) {name : String} (h : Path.Plain name) :
    demandsDirectory (directory.join ⟨name⟩) = false := by
  obtain ⟨hempty, hhere, hup⟩ := h.proper
  rw [demandsDirectory, Path.pieces_join directory h]
  simp [hempty, hhere, hup]

/-- Names that are not the same stand side by side. -/
lemma not_prefix_of_ne {parent : Place} {name other : String} (h : other ≠ name) :
    ¬ parent ++ [name] <+: parent ++ [other] := by
  intro hprefix
  have heq := hprefix.eq_of_length (by simp)
  exact h (List.singleton_inj.mp (List.append_cancel_left heq)).symm

/-- A file is written under another name and then moved to its place: it holds the text, and other files of the directory
hold what they held. -/
theorem readText_of_replaced {d₁ d₂ d₃ : Disk} (hstanding : d₁.Standing) {directory : Path} {file beside : String}
    (hfile : Path.Plain file) (hbeside : Path.Plain beside) {text : String}
    (hwrite : d₁.writeText (directory.join ⟨beside⟩) text = .ok d₂)
    (hrename : d₂.rename (directory.join ⟨beside⟩) (directory.join ⟨file⟩) = .ok d₃) :
    SameWays d₁ d₃ ∧ d₃.readText (directory.join ⟨file⟩) = .ok text ∧
      ∀ other, Path.Plain other → other ≠ file → other ≠ beside →
        (d₃.readText (directory.join ⟨other⟩)).toOption = (d₁.readText (directory.join ⟨other⟩)).toOption := by
  obtain ⟨src, hsrc, hnotDirectory, -, hput⟩ := writeText_ok hwrite
  have hways₂ : SameWays d₁ d₂ := by
    rw [hput]
    exact .put_file hnotDirectory _
  have hstanding₂ := hways₂.standing hstanding
  obtain ⟨parent, rfl, hdst⟩ := place_join hbeside hfile hsrc
  have hwritten : d₂.entry? (parent ++ [beside]) = some (.file text.toUTF8) := by
    rw [hput, entry?_put, if_pos ⟨rfl, by simp⟩]
  have hfind : d₂.find (directory.join ⟨beside⟩) = .ok (parent ++ [beside], .file text.toUTF8) := by
    rw [find_of_place (hways₂.place hstanding hsrc).2, hwritten]
    simp [demandsDirectory_join directory hbeside]
  obtain ⟨dst, hplace, htarget, -, hmoved⟩ := rename_ok hfind hrename
  obtain rfl : parent ++ [file] = dst := by
    rw [(hways₂.place hstanding hdst).2] at hplace
    exact Except.ok.inj hplace
  have hsource : d₂.entry? (parent ++ [beside]) ≠ some .directory := by
    rw [hwritten]
    exact nofun
  have hways₃ : SameWays d₂ d₃ := by
    rw [hmoved]
    split
    · exact .refl d₂
    · exact .move hsource htarget
  have hways : SameWays d₁ d₃ := hways₂.trans hways₃
  have hentry : d₃.entry? (parent ++ [file]) = some (.file text.toUTF8) := by
    rw [hmoved]
    split
    · next heq => rw [← heq, hwritten]
    · rw [entry?_move_target (by simp) (by simp), hwritten]
  refine ⟨hways, readText_of_place (hways₃.place hstanding₂ hplace).2 hentry (demandsDirectory_join directory hfile), ?_⟩
  intro other hother hne hneBeside
  refine hways.read hstanding ?_
  intro last hlast
  obtain ⟨parent', rfl, hagain⟩ := place_join hother hbeside hlast
  obtain rfl : parent = parent' := by
    rw [hsrc] at hagain
    exact List.append_cancel_right (Except.ok.inj hagain)
  have hfirst : d₂.entry? (parent ++ [other]) = d₁.entry? (parent ++ [other]) := by
    have hapart : ¬ parent ++ [other] = parent ++ [beside] := by simpa using hneBeside
    rw [hput, entry?_put, if_neg fun hboth => hapart hboth.1]
  have hsecond : d₃.entry? (parent ++ [other]) = d₂.entry? (parent ++ [other]) := by
    rw [hmoved]
    split
    · rfl
    · rw [entry?_move_other (not_prefix_of_ne hne), if_neg fun hboth => not_prefix_of_ne hneBeside hboth.1]
  exact hsecond.trans hfirst

end Disk

end Switchboard
