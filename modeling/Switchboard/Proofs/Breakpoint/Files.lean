import Switchboard.Proofs.Breakpoint.Invariant

/-!
# The files of a catalog

* `exists_mem_distinctFiles`, `pairwise_distinctFiles`: of files with the same path one is kept;
* `IsFirst`: a line breakpoint that has the lowest number of all in its file;
* `mem_files_iff`, `pairwise_files`: the files that are listed are those of such breakpoints, each path once.
-/

namespace Switchboard.Debug.Breakpoint.Catalog

lemma same_symm {p q : Path} (h : p.same q = true) : q.same p = true := by
  simp only [Path.same, decide_eq_true_eq] at h ⊢
  exact h.symm

lemma same_trans {p q r : Path} (h : p.same q = true) (h' : q.same r = true) : p.same r = true := by
  simp only [Path.same, decide_eq_true_eq] at h h' ⊢
  exact h.trans h'

/-! ## Each path once -/

/-- Of files with the same path one is kept. -/
lemma exists_mem_distinctFiles {l seen : List (String × Path)} {project : String} {path : Path}
    (hfile : (project, path) ∈ l) : ∃ g ∈ seen ++ distinctFiles seen l, g.2.same path = true := by
  induction l generalizing seen with
  | nil => cases hfile
  | cons x rest ih =>
    rw [distinctFiles]
    rcases List.mem_cons.mp hfile with rfl | hfile
    · split
      · next hany =>
        obtain ⟨g, hg, hsame⟩ := List.any_eq_true.mp hany
        exact ⟨g, List.mem_append_left _ hg, hsame⟩
      · exact ⟨(project, path), List.mem_append_right _ (List.mem_cons_self ..), decide_eq_true rfl⟩
    · split
      · exact ih hfile
      · have hrest : ∃ g ∈ (x :: seen) ++ distinctFiles (x :: seen) rest, g.2.same path = true := ih hfile
        obtain ⟨g, hg, hsame⟩ := hrest
        refine ⟨g, ?_, hsame⟩
        rw [List.mem_append] at hg ⊢
        rw [List.mem_cons] at hg ⊢
        tauto

/-- No path is kept twice, and none that came before. -/
lemma pairwise_distinctFiles (seen l : List (String × Path)) :
    (distinctFiles seen l).Pairwise (fun f g => f.2.same g.2 = false) ∧
      ∀ f ∈ seen, ∀ g ∈ distinctFiles seen l, f.2.same g.2 = false := by
  induction l generalizing seen with
  | nil => exact ⟨.nil, fun _ _ _ hg => absurd hg List.not_mem_nil⟩
  | cons x rest ih =>
    rw [distinctFiles]
    split
    · exact ih seen
    · next hnew =>
      obtain ⟨hpairwise, hseen⟩ := ih (x :: seen)
      refine ⟨.cons (hseen x List.mem_cons_self) hpairwise, ?_⟩
      intro f hf g hg
      rcases List.mem_cons.mp hg with rfl | hg
      · exact Bool.eq_false_iff.mpr fun hsame => hnew (List.any_eq_true.mpr ⟨f, hf, hsame⟩)
      · exact hseen f (List.mem_cons_of_mem _ hf) g hg

/-- The one that is kept is the first of its path. -/
lemma exists_split_of_mem_distinctFiles {seen l : List (String × Path)} {f : String × Path}
    (hf : f ∈ distinctFiles seen l) :
    ∃ before after, l = before ++ f :: after ∧ ∀ g ∈ before, g.2.same f.2 = false := by
  induction l generalizing seen with
  | nil => cases hf
  | cons x rest ih =>
    have hlater : ∀ seen', f ∈ distinctFiles seen' rest → x.2.same f.2 = false →
        ∃ before after, x :: rest = before ++ f :: after ∧ ∀ g ∈ before, g.2.same f.2 = false := by
      intro seen' hf' hx
      obtain ⟨before, after, rfl, hbefore⟩ := ih hf'
      refine ⟨x :: before, after, rfl, ?_⟩
      intro g hg
      rcases List.mem_cons.mp hg with rfl | hg
      · exact hx
      · exact hbefore g hg
    rw [distinctFiles] at hf
    split at hf
    · next hany =>
      obtain ⟨g, hg, hgx⟩ := List.any_eq_true.mp hany
      refine hlater seen hf (Bool.eq_false_iff.mpr fun hxf => ?_)
      exact Bool.eq_false_iff.mp ((pairwise_distinctFiles seen rest).2 g hg f hf) (same_trans hgx hxf)
    · rcases List.mem_cons.mp hf with rfl | hf
      · exact ⟨[], rest, rfl, List.forall_mem_nil _⟩
      · exact hlater _ hf ((pairwise_distinctFiles (x :: seen) rest).2 x List.mem_cons_self f hf)

lemma mem_distinctFiles {l seen : List (String × Path)} {f : String × Path} (hf : f ∈ distinctFiles seen l) : f ∈ l := by
  obtain ⟨before, after, rfl, -⟩ := exists_split_of_mem_distinctFiles hf
  exact List.mem_append_right _ List.mem_cons_self

/-! ## First breakpoints -/

/-- A line breakpoint of a file, with the lowest number of all in it. -/
structure IsFirst (c : Catalog) (b : Breakpoint) (f : String × Path) : Prop where
  mem : b ∈ c.entries
  file : fileOf? b = some f
  least : ∀ x ∈ c.entries, ∀ g, fileOf? x = some g → g.2.same f.2 = true → b.id ≤ x.id

variable {c : Catalog}

lemma IsFirst.file_eq (h : c.Listed) {b b' : Breakpoint} {f f' : String × Path} (hb : c.IsFirst b f)
    (hb' : c.IsFirst b' f') (hsame : f.2.same f'.2 = true) : f = f' := by
  have hid : b.id = b'.id :=
    Nat.le_antisymm (hb.least b' hb'.mem f' hb'.file (same_symm hsame)) (hb'.least b hb.mem f hb.file hsame)
  obtain rfl := h.eq_of_id_eq hb.mem hb'.mem hid
  exact Option.some.inj (hb.file.symm.trans hb'.file)

/-- A file that is kept is the one of its first breakpoint. -/
lemma exists_isFirst (h : c.Listed) {f : String × Path} (hf : f ∈ distinctFiles [] (c.entries.filterMap fileOf?)) :
    ∃ b, c.IsFirst b f := by
  obtain ⟨before, after, hsplit, hbefore⟩ := exists_split_of_mem_distinctFiles hf
  obtain ⟨early, rest, hentries, hearly, hrest⟩ := List.filterMap_eq_append_iff.mp hsplit
  obtain ⟨skipped, b, late, rfl, hskipped, hb, -⟩ := List.filterMap_eq_cons_iff.mp hrest
  refine ⟨b, by simp [hentries], hb, ?_⟩
  intro x hx g hg hsame
  have hordered : (early ++ (skipped ++ b :: late)).Pairwise (·.id < ·.id) := hentries ▸ h
  rw [hentries, List.mem_append, List.mem_append, List.mem_cons] at hx
  rcases hx with hx | hx | rfl | hx
  · have hgbefore : g ∈ before := hearly ▸ List.mem_filterMap.mpr ⟨x, hx, hg⟩
    exact absurd hsame (Bool.eq_false_iff.mp (hbefore g hgbefore))
  · rw [hskipped x hx] at hg
    cases hg
  · exact Nat.le_refl _
  · have hlate := (List.pairwise_append.mp (List.pairwise_append.mp hordered).2.1).2.1
    exact Nat.le_of_lt (List.rel_of_pairwise_cons hlate hx)

/-- The files that are listed are those of first breakpoints. -/
theorem mem_files_iff (h : c.Listed) {f : String × Path} : f ∈ c.files ↔ ∃ b, c.IsFirst b f := by
  rw [files, List.mem_mergeSort]
  constructor
  · exact exists_isFirst h
  · rintro ⟨b, hb⟩
    have hkept : ∃ g ∈ [] ++ distinctFiles [] (c.entries.filterMap fileOf?), g.2.same f.2 = true :=
      exists_mem_distinctFiles (List.mem_filterMap.mpr ⟨b, hb.mem, hb.file⟩)
    obtain ⟨g, hg, hsame⟩ := hkept
    rw [List.nil_append] at hg
    obtain ⟨b', hb'⟩ := exists_isFirst h hg
    rwa [← hb'.file_eq h hb hsame]

/-- No path is listed twice. -/
lemma pairwise_files (c : Catalog) : c.files.Pairwise fun f g => f.2.same g.2 = false := by
  rw [files, (List.mergeSort_perm _ _).pairwise_iff]
  · exact (pairwise_distinctFiles [] _).1
  · intro f g hfg
    exact Bool.eq_false_iff.mpr fun hgf => Bool.eq_false_iff.mp hfg (same_symm hgf)

end Switchboard.Debug.Breakpoint.Catalog
