import Switchboard.Proofs.Breakpoint.Following
import Switchboard.Proofs.Disk.Names

/-!
# One path in several projects

A relative path stands for one file in each project. Breakpoints are kept by path alone.

* `Debugger.fileOf?`: the file that a path stands for in a project, and `Debugger.ownFile?`: that of a breakpoint;
* `Debugger.readFor?`: the file that is read to relocate the breakpoints of a path (`relocate_congr`: no other is);
* `Editing.addBreakpoint_refused_iff`: when no breakpoint is added;
* `World.Apart`: what should be so of one path if files were told apart;
* `World.apart_iff`: when it is so.
-/

namespace Switchboard

open Debug

namespace Debug.Debugger

variable {b : Debugger} {path : Path}

/-- The file that a path stands for in a project, if it stands for one. -/
def fileOf? (b : Debugger) (project : String) (path : Path) : Option Path := (b.sources.fullPath project path).toOption

/-- The file that a line breakpoint is in: that of its own project. -/
def ownFile? (b : Debugger) (x : Breakpoint) : Option Path :=
  match x.kind with
  | .line project path _ _ _ => b.fileOf? project path
  | .exception _ _ => none

/-- The file that is read to relocate the breakpoints of a path. -/
def readFor? (b : Debugger) (path : Path) : Option Path :=
  ((b.breakpoints.forFile path).head?.bind Breakpoint.project?).bind fun project => b.fileOf? project path

/-- One file under two spellings, or neither is known. -/
def SameFile (f g : Option Path) : Prop := f.map Path.components = g.map Path.components

lemma linesOf?_eq (b : Debugger) (disk : Disk) (project : String) (path : Path) :
    b.linesOf? disk project path = (b.fileOf? project path).bind fun f => (Sources.load disk f).toOption := by
  unfold linesOf? Sources.open? fileOf?
  cases b.sources.fullPath project path with
  | error e => rfl
  | ok f =>
    show (Except.toOption (Sources.load disk f >>= fun l => pure (f, l))).map (·.2) = (Sources.load disk f).toOption
    cases Sources.load disk f <;> rfl

lemma shown?_eq (b : Debugger) (disk : Disk) (path : Path) :
    b.shown? disk path = (b.readFor? path).bind fun f => (Sources.load disk f).toOption := by
  unfold shown? readFor?
  simp only [linesOf?_eq, Option.bind_assoc]

/-- Relocation reads one file. -/
lemma relocate_congr {disk disk' : Disk} (h : ∀ f ∈ b.readFor? path, Sources.load disk f = Sources.load disk' f) :
    b.relocate disk path = b.relocate disk' path := by
  have hshown : b.shown? disk path = b.shown? disk' path := by
    rw [shown?_eq, shown?_eq]
    exact Option.bind_congr fun f hf => congrArg Except.toOption (h f hf)
  unfold shown? at hshown
  unfold relocate
  dsimp only
  rw [hshown]

/-- A breakpoint is in the file that its project has under any spelling of the path. -/
lemma sameFile_of_isIn {x : Breakpoint} {project : String} (hin : x.isIn path = true) (hproject : x.project? = some project) :
    SameFile (b.ownFile? x) (b.fileOf? project path) := by
  obtain ⟨spelled, hspelled, hsame⟩ := Breakpoint.isIn_iff.mp hin
  unfold Breakpoint.path? at hspelled
  unfold Breakpoint.project? at hproject
  cases hkind : x.kind with
  | exception caught uncaught =>
    rw [hkind] at hspelled
    cases hspelled
  | line own given line column anchor =>
    rw [hkind] at hspelled hproject
    obtain rfl := Option.some.inj hspelled
    obtain rfl := Option.some.inj hproject
    have hown : b.ownFile? x = b.fileOf? own given := by rw [ownFile?, hkind]
    rw [hown]
    unfold SameFile fileOf? Sources.fullPath
    rw [Path.isAbsolute_congr hsame]
    split
    · exact congrArg some hsame
    · cases b.sources.roots.lookup own <|> b.sources.fallback with
      | none => rfl
      | some root => exact congrArg some (Path.components_join hsame root)

/-- What is read for a path is the file of the breakpoint that comes first. -/
lemma sameFile_readFor? {x : Breakpoint} {rest : List Breakpoint} (h : b.breakpoints.forFile path = x :: rest) :
    SameFile (b.ownFile? x) (b.readFor? path) := by
  have hx : x ∈ b.breakpoints.forFile path := h ▸ List.mem_cons_self
  have hin := (Breakpoint.Catalog.mem_forFile.mp hx).2
  obtain ⟨project, hproject⟩ : ∃ project, x.project? = some project := by
    obtain ⟨spelled, hspelled, -⟩ := Breakpoint.isIn_iff.mp hin
    unfold Breakpoint.path? at hspelled
    unfold Breakpoint.project?
    split at hspelled
    · exact ⟨_, rfl⟩
    · cases hspelled
  have hread : b.readFor? path = b.fileOf? project path := by
    rw [readFor?, h, List.head?_cons, Option.bind_some, hproject, Option.bind_some]
  rw [hread]
  exact sameFile_of_isIn hin hproject

/-- Of the breakpoints of a path those that are enabled are sent, whatever their projects. -/
lemma ids_sourceBreakpoints (b : Debugger) (path : Path) :
    (b.sourceBreakpoints path).map (·.1) = ((b.breakpoints.forFile path).filter (·.enabled)).map (·.id) := by
  have hkind : ∀ x ∈ b.breakpoints.forFile path, x.toSource?.isSome = x.enabled := by
    intro x hx
    obtain ⟨spelled, hspelled, -⟩ := Breakpoint.isIn_iff.mp (Breakpoint.Catalog.mem_forFile.mp hx).2
    unfold Breakpoint.path? at hspelled
    unfold Breakpoint.toSource?
    split at hspelled
    · next hkind =>
      rw [hkind]
      cases x.enabled <;> simp
    · cases hspelled
  unfold sourceBreakpoints
  generalize b.breakpoints.forFile path = all at hkind
  induction all with
  | nil => rfl
  | cons x rest ih =>
    have hrest := ih fun y hy => hkind y (List.mem_cons_of_mem x hy)
    have hx := hkind x List.mem_cons_self
    cases hsource : x.toSource? with
    | none =>
      rw [hsource] at hx
      rw [List.filterMap_cons_none (by rw [hsource]; rfl), List.filter_cons_of_neg (by simp [← hx]), hrest]
    | some source =>
      rw [hsource] at hx
      rw [List.filterMap_cons_some (by rw [hsource]; rfl), List.filter_cons_of_pos hx.symm, List.map_cons, List.map_cons,
        hrest]

end Debug.Debugger

namespace Debug.Editing

variable {w : World} {project : String} {path : Path} {line : Nat} {column : Option Nat}

lemma findLine?_isSome_iff {c : Breakpoint.Catalog} :
    (c.findLine? path line).isSome = true ↔ ∃ x ∈ c.forFile path, x.line? = some line := by
  rw [← Breakpoint.Catalog.taken_iff]
  constructor
  · rintro ⟨x, hx, hat⟩
    obtain ⟨hin, hline⟩ := Breakpoint.isAt_iff.mp hat
    exact ⟨x, Breakpoint.Catalog.mem_forFile.mpr ⟨hx, hin⟩, hline⟩
  · rintro ⟨x, hx, hline⟩
    obtain ⟨hmem, hin⟩ := Breakpoint.Catalog.mem_forFile.mp hx
    exact ⟨x, hmem, Breakpoint.isAt_iff.mpr ⟨hin, hline⟩⟩

lemma placeBreakpoint_taken (h : (w.debugger.breakpoints.findLine? path line).isSome = true) :
    placeBreakpoint project path line column w = (none, w) := by
  simp only [placeBreakpoint, Breakpoint.Catalog.addLine, if_pos h]

lemma placeBreakpoint_free (h : ¬ (w.debugger.breakpoints.findLine? path line).isSome = true) :
    (placeBreakpoint project path line column w).1 = some w.debugger.breakpoints.nextId := by
  simp only [placeBreakpoint, Breakpoint.Catalog.addLine, if_neg h, Breakpoint.Catalog.allocate]

/-- What is done first, and what then. -/
lemma stretch_ofTask_act {α β : Type} (f : World → α × World) (k : α → DebugWork β) (w : World) :
    (Attempt.ofTask (Task.act f) >>= k : DebugWork β).outcome.stretch w = (k (f w).1).outcome.stretch (f w).2 := rfl

/-- No breakpoint is added, and nothing else is done, exactly if some breakpoint is on that line of the path, whatever
its project. -/
theorem addBreakpoint_refused_iff (hline : line ≠ 0) :
    (addBreakpoint project path line column).outcome.stretch w = (.done (.ok none), w) ↔
      ∃ x ∈ w.debugger.breakpoints.forFile path, x.line? = some line := by
  rw [addBreakpoint, if_neg hline, stretch_ofTask_act, ← findLine?_isSome_iff]
  by_cases htaken : (w.debugger.breakpoints.findLine? path line).isSome = true
  · refine iff_of_true ?_ htaken
    rw [placeBreakpoint_taken htaken]
    rfl
  · refine iff_of_false (fun hdone => ?_) htaken
    rw [placeBreakpoint_free htaken] at hdone
    cases congrArg Prod.fst hdone

end Debug.Editing

/-! ## Files told apart -/

open Debugger (SameFile)

namespace World

/-- What should be so of a path if the files for which it stands in several projects were told apart. -/
structure Apart (w : World) (path : Path) : Prop where
  /-- A breakpoint of a project is refused only if there is one on that line of the project's file. -/
  added : ∀ (project : String) (line : Nat) (column : Option Nat) (file : Path), line ≠ 0 →
    w.debugger.fileOf? project path = some file →
    (Editing.addBreakpoint project path line column).outcome.stretch w = (.done (.ok none), w) →
    ∃ y ∈ w.debugger.breakpoints.entries, y.line? = some line ∧ SameFile (w.debugger.ownFile? y) (some file)
  /-- A breakpoint is relocated as its own file shows. -/
  relocated : ∀ x ∈ w.debugger.breakpoints.forFile path, SameFile (w.debugger.ownFile? x) (w.debugger.readFor? path)
  /-- What a session is sent for the path are breakpoints of one file. -/
  sent : ∀ x ∈ w.debugger.breakpoints.forFile path, ∀ y ∈ w.debugger.breakpoints.forFile path,
    (∃ source, (x.id, source) ∈ w.debugger.sourceBreakpoints path) →
    (∃ source, (y.id, source) ∈ w.debugger.sourceBreakpoints path) → SameFile (w.debugger.ownFile? x) (w.debugger.ownFile? y)

/-- When files are told apart, and what is done with a path otherwise. They are told apart exactly if all breakpoints of
the path are in one file, and every project for which the path stands for a file has a breakpoint on each of their lines
already. A breakpoint is refused for that of any project, and nothing else is done then; relocation reads no file but that
of the breakpoint that comes first, whatever becomes of the files of others; and a session is sent the breakpoints of all
projects under the one path. -/
theorem apart_iff (w : World) (path : Path) :
    let b := w.debugger
    let all := b.breakpoints.forFile path
    (w.Apart path ↔ (∀ x ∈ all, ∀ y ∈ all, SameFile (b.ownFile? x) (b.ownFile? y)) ∧
      ∀ x ∈ all, ∀ line, x.line? = some line → line ≠ 0 → ∀ project file, b.fileOf? project path = some file →
        ∃ y ∈ b.breakpoints.entries, y.line? = some line ∧ SameFile (b.ownFile? y) (some file)) ∧
    (∀ project line column, line ≠ 0 →
      ((Editing.addBreakpoint project path line column).outcome.stretch w = (.done (.ok none), w) ↔
        ∃ x ∈ all, x.line? = some line)) ∧
    (∀ x rest, all = x :: rest → SameFile (b.ownFile? x) (b.readFor? path)) ∧
    (∀ disk disk', (∀ f ∈ b.readFor? path, Sources.load disk f = Sources.load disk' f) →
      b.relocate disk path = b.relocate disk' path) ∧
    (b.sourceBreakpoints path).map (·.1) = (all.filter (·.enabled)).map (·.id) := by
  intro b all
  have hrefused : ∀ project line column, line ≠ 0 →
      ((Editing.addBreakpoint project path line column).outcome.stretch w = (.done (.ok none), w) ↔
        ∃ x ∈ all, x.line? = some line) := fun project line column hline => Editing.addBreakpoint_refused_iff hline
  refine ⟨⟨fun h => ⟨?_, ?_⟩, fun h => ⟨?_, ?_, ?_⟩⟩, hrefused, ?_, ?_, ?_⟩
  · intro x hx y hy
    exact (h.relocated x hx).trans (h.relocated y hy).symm
  · intro x hx line hline hne project file hfile
    exact h.added project line none file hne hfile ((hrefused project line none hne).mpr ⟨x, hx, hline⟩)
  · intro project line column file hne hfile hrefuse
    obtain ⟨x, hx, hline⟩ := (hrefused project line column hne).mp hrefuse
    exact h.2 x hx line hline hne project file hfile
  · intro x hx
    obtain ⟨y, rest, hall⟩ := List.exists_cons_of_ne_nil (List.ne_nil_of_mem hx)
    have hy : y ∈ all := by
      rw [show all = y :: rest from hall]
      exact List.mem_cons_self
    exact (h.1 x hx y hy).trans (Debugger.sameFile_readFor? hall)
  · exact fun x hx y hy _ _ => h.1 x hx y hy
  · exact fun x rest hall => Debugger.sameFile_readFor? hall
  · exact fun disk disk' h => Debugger.relocate_congr h
  · exact Debugger.ids_sourceBreakpoints b path

/-- Two projects with a file of the same name, and a breakpoint on the second line of the first one's. -/
def namesakes : World where
  debugger :=
    { sources := { roots := [("a", ⟨"/a"⟩), ("b", ⟨"/b"⟩)] }
      breakpoints := (Breakpoint.Catalog.addLine {} "a" ⟨"Main.java"⟩ 2 none none).2 }
  disk := { entries := [(["a", "Main.java"], .file "x\ny\n".toUTF8), (["b", "Main.java"], .file "x\ny\n".toUTF8)] }

/-- The second project is refused a breakpoint on that line, although its own file has none. -/
theorem not_apart_namesakes :
    let path : Path := ⟨"Main.java"⟩
    namesakes.debugger.fileOf? "b" path = some ⟨"/b/Main.java"⟩ ∧
      (∀ y ∈ namesakes.debugger.breakpoints.entries, ¬ SameFile (namesakes.debugger.ownFile? y) (some ⟨"/b/Main.java"⟩)) ∧
      (Editing.addBreakpoint "b" path 2 none).outcome.stretch namesakes = (.done (.ok none), namesakes) ∧
      ¬ namesakes.Apart path := by
  intro path
  have hfile : namesakes.debugger.fileOf? "b" path = some ⟨"/b/Main.java"⟩ := by decide +kernel
  have hnone : ∀ y ∈ namesakes.debugger.breakpoints.entries,
      ¬ SameFile (namesakes.debugger.ownFile? y) (some ⟨"/b/Main.java"⟩) := by
    unfold SameFile
    decide +kernel
  obtain ⟨-, hrefused, -⟩ := apart_iff namesakes path
  have hthere : ∃ x ∈ namesakes.debugger.breakpoints.forFile path, x.line? = some 2 :=
    Editing.findLine?_isSome_iff.mp (by decide +kernel)
  have hrefuse := (hrefused "b" 2 none (by decide)).mpr hthere
  refine ⟨hfile, hnone, hrefuse, fun h => ?_⟩
  obtain ⟨y, hy, -, hsame⟩ := h.added "b" 2 none _ (by decide) hfile hrefuse
  exact hnone y hy hsame

end World

end Switchboard
