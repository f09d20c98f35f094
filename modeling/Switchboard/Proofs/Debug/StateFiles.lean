import Switchboard.Debug.Debugger
import Switchboard.Proofs.Debug.Stored
import Switchboard.Proofs.Disk.Names

/-!
# The state files

* `Store.listText`, `Store.read?_listText`: what is written of a list reads back;
* `Store.writeList_ok`: after a write that succeeds the file holds the list, and the other file what it held before;
* `Store.Settled`: making the directory of the state files brings nothing to light;
* `Store.saveBreakpoints_ok`, `Store.saveLaunches_ok`: what is loaded after a list was saved.
-/

namespace Switchboard.Debug.Store

open Json (Shape Fields)

/-! ## Texts -/

section Texts

variable {α : Type}

/-- The text of a list under a name. -/
def listText (list : String) (items : List Json) : String :=
  (Json.obj [("version", .nat formatVersion), (list, .arr items)]).pretty

lemma honest_fileFields (list : String) (shape : Shape α) : (fileFields list shape).Honest := by
  unfold fileFields
  exact .seq (.map (Fields.honest_field _ _) _) (Fields.honest_field _ _)

/-- What is written of a list reads back. -/
lemma read?_listText (type : String) {list : String} (hlist : list ≠ "version") {shape : Shape α} {items : List Json}
    {values : List α} {nesting : Nat} (hkept : ∀ v ∈ items, Json.Kept nesting v) (hnesting : nesting + 2 < Json.maxDepth)
    (hread : Shape.list shape (.arr items) = .ok values) :
    (fileFields list shape).read? type (listText list items) = some values := by
  let members : List (String × Json) := [("version", .nat formatVersion), (list, .arr items)]
  have hnames : (fileFields list shape).fields.map (·.name) = ["version", list] := rfl
  have hmembers : Json.Kept (nesting + 2) (.obj members) := by
    refine .obj members ?_
    intro m hm
    simp only [members, List.mem_cons, List.not_mem_nil, or_false] at hm
    rcases hm with rfl | rfl
    · exact .int _ (by decide) (by decide)
    · exact .arr items hkept
  have hrecord : Json.readRecord? ["version", list] (listText list items) = some (.obj members) := by
    refine Json.readRecord?_pretty _ hmembers hnesting ?_
    intro m hm
    simp only [List.mem_cons, List.not_mem_nil, or_false] at hm
    rcases hm with rfl | rfl
    · exact List.mem_cons_self
    · exact List.mem_cons_of_mem _ List.mem_cons_self
  have hnodup : (members.map (·.1)).Nodup := by
    show List.Nodup ["version", list]
    simpa using fun heq => hlist heq.symm
  have hlookup : members.lookup list = some (.arr items) := by
    have hbeq : (list == "version") = false := by simpa using hlist
    simp [members, List.lookup_cons, hbeq]
  have hversion : Fields.Builds (members.lookup ·) (.field "version" Shape.u32) formatVersion :=
    .field rfl (Shape.u32_nat (by decide))
  have hitems : Fields.Builds (members.lookup ·) (.field list (Shape.list shape)) values := .field hlookup hread
  have hshape : (fileFields list shape).shape type (.obj members) = .ok values :=
    Fields.ofMembers_of_build (honest_fileFields list shape) hnodup ((hversion.map _).seq hitems)
  rw [Fields.read?, hnames, hrecord, Option.bind_some, hshape]
  rfl

/-- A list that is loaded depends only on the text of its file; without one it is empty. -/
lemma readList_getD {d : Disk} {p : Path} {type list : String} {shape : Shape α} :
    (readList d p type list shape).toOption.getD []
      = match (d.readText p).toOption with
        | some text => ((fileFields list shape).read? type text).getD []
        | none => [] := by
  unfold readList
  cases d.readText p with
  | error e =>
    split
    · rfl
    · rfl
    · next heq => cases heq
  | ok text =>
    cases hread : (fileFields list shape).read? type text with
    | none =>
      simp only [Except.toOption, hread]
      rfl
    | some items =>
      simp only [Except.toOption, hread]
      rfl

end Texts

/-! ## Writing -/

/-- After a write that succeeds the file holds the list, and other files of the directory hold what they held when the
directory was made. -/
lemma writeList_ok {d d' : Disk} (hstanding : d.Standing) {directory : Path} {file : String}
    (hfile : Path.Plain file) (hbeside : Path.Plain (file ++ ".tmp")) {parent : Path}
    (hparent : (directory.join ⟨file⟩).parent? = some parent) {list : String} {items : List Json}
    (h : writeList d (directory.join ⟨file⟩) list items = (.ok (), d')) :
    d'.Standing ∧ d'.makeDirectories parent = (.ok (), d') ∧
      d'.readText (directory.join ⟨file⟩) = .ok (listText list items) ∧
      ∀ other, Path.Plain other → other ≠ file → other ≠ file ++ ".tmp" →
        (d'.readText (directory.join ⟨other⟩)).toOption
          = ((d.makeDirectories parent).2.readText (directory.join ⟨other⟩)).toOption := by
  have hpath : beside (directory.join ⟨file⟩) = directory.join ⟨file ++ ".tmp"⟩ :=
    Path.join_append directory hfile hbeside
  unfold writeList at h
  rw [hparent, hpath] at h
  dsimp only at h
  cases hmade : d.makeDirectories parent with
  | mk result d₁ =>
    rw [hmade] at h
    cases result with
    | error e => cases (Prod.mk.inj h).1
    | ok u =>
      dsimp only at h ⊢
      obtain ⟨hgrows, hthere⟩ := Disk.makeDirectoriesFrom_ok hstanding hmade
      have hstanding₁ := hgrows.standing hstanding
      split at h
      · cases (Prod.mk.inj h).1
      · next d₂ hwrite =>
        split at h
        · cases (Prod.mk.inj h).1
        · next d₃ hrename =>
          obtain rfl : d₃ = d' := (Prod.mk.inj h).2
          obtain ⟨hways, htext, hothers⟩ := Disk.readText_of_replaced hstanding₁ hfile hbeside hwrite hrename
          refine ⟨hways.standing hstanding₁, ?_, htext, hothers⟩
          -- the directory is there now
          refine Disk.makeDirectories_of_isDirectory ?_
          by_cases hempty : parent.text = ""
          · exact .inl hempty
          · exact .inr (Disk.isDirectory_of_ways (fun _ => (hways.leads _).mp) hways.current hstanding₁ (hthere hempty))

/-! ## State files -/

variable (s : Store)

/-- The directory of the state files, as it is made before they are written. -/
def parent : Path := ⟨Path.trimmed (String.ofList s.directory.stem)⟩

/-- The disk when the directory has been made. -/
def made (d : Disk) : Disk := (d.makeDirectories s.parent).2

/-- The two state files. -/
def files : List Path := [s.breakpointsPath, s.launchesPath]

/-- What a file holds. -/
def text? (d : Disk) (p : Path) : Option String := (d.readText p).toOption

/-- The current directory is there, and making the directory of the state files brings nothing to light. -/
structure Settled (d : Disk) : Prop where
  standing : d.Standing
  same : ∀ p ∈ s.files, text? (s.made d) p = text? d p

/-- The state files are left alone, whether their directory is made first or not. -/
structure Untouched (d d' : Disk) : Prop where
  standing : d'.Standing
  same : ∀ p ∈ s.files, text? d' p = text? d p ∧ text? (s.made d') p = text? (s.made d) p

lemma Untouched.settled {d d' : Disk} (h : s.Untouched d d') (hsettled : s.Settled d) : s.Settled d' := by
  refine ⟨h.standing, ?_⟩
  intro p hp
  obtain ⟨hsame, hmade⟩ := h.same p hp
  rw [hsame, hmade]
  exact hsettled.same p hp

/-- The breakpoints that a new debugger finds. -/
def foundBreakpoints (d : Disk) : List Breakpoint := (s.loadBreakpoints d).toOption.getD []

/-- The launch configurations that a new debugger finds. -/
def foundLaunches (d : Disk) : List Launch := (s.loadLaunches d).toOption.getD []

lemma foundBreakpoints_congr {d d' : Disk} (h : text? d' s.breakpointsPath = text? d s.breakpointsPath) :
    s.foundBreakpoints d' = s.foundBreakpoints d := by
  unfold text? at h
  rw [foundBreakpoints, foundBreakpoints, loadBreakpoints, loadBreakpoints, readList_getD, readList_getD, h]

lemma foundLaunches_congr {d d' : Disk} (h : text? d' s.launchesPath = text? d s.launchesPath) :
    s.foundLaunches d' = s.foundLaunches d := by
  unfold text? at h
  rw [foundLaunches, foundLaunches, loadLaunches, loadLaunches, readList_getD, readList_getD, h]

lemma plain_breakpoints : Path.Plain "breakpoints.json" := by
  constructor <;> decide

lemma plain_breakpoints_tmp : Path.Plain ("breakpoints.json" ++ ".tmp") := by
  constructor <;> decide

lemma plain_launches : Path.Plain "launches.json" := by
  constructor <;> decide

lemma plain_launches_tmp : Path.Plain ("launches.json" ++ ".tmp") := by
  constructor <;> decide

/-- After breakpoints were saved a new debugger finds what is kept of them, and the configurations that it found before. -/
theorem saveBreakpoints_ok {d d' : Disk} (hsettled : s.Settled d) {l : List Breakpoint} (hfits : ∀ b ∈ l, b.Fits)
    (h : s.saveBreakpoints d l = (.ok (), d')) :
    s.Settled d' ∧ s.foundBreakpoints d' = l.map Breakpoint.stored ∧ s.foundLaunches d' = s.foundLaunches d := by
  obtain ⟨hstanding, hmade, htext, hothers⟩ := writeList_ok hsettled.standing plain_breakpoints plain_breakpoints_tmp
    (Path.parent?_join s.directory plain_breakpoints) h
  have hother := hothers "launches.json" plain_launches (by decide) (by decide)
  refine ⟨⟨hstanding, ?_⟩, ?_, ?_⟩
  · intro p _
    have hsame : s.made d' = d' := congrArg Prod.snd hmade
    rw [hsame]
  · have hitems : Shape.list Breakpoint.shape (.arr (l.map fun b => { b with verification := none }.toJson))
        = .ok (l.map Breakpoint.stored) :=
      Shape.list_map fun b hb => Breakpoint.shape_toJson (hfits b hb)
    have hkept : ∀ v ∈ l.map fun b => { b with verification := none }.toJson, Json.Kept 1 v := by
      intro v hv
      obtain ⟨b, hb, rfl⟩ := List.mem_map.mp hv
      exact Breakpoint.kept_toJson (hfits b hb)
    have hread := read?_listText "BreakpointFile" (show "breakpoints" ≠ "version" by decide) hkept (by decide)
      hitems
    have hfile : (d'.readText s.breakpointsPath).toOption = some _ := congrArg Except.toOption htext
    rw [foundBreakpoints, loadBreakpoints, readList_getD, hfile]
    dsimp only
    rw [hread]
    rfl
  · refine s.foundLaunches_congr ?_
    exact hother.trans (hsettled.same s.launchesPath (List.mem_cons_of_mem _ List.mem_cons_self))

/-- After launch configurations were saved a new debugger finds them, and the breakpoints that it found before. -/
theorem saveLaunches_ok {d d' : Disk} (hsettled : s.Settled d) {l : List Launch} (hfits : ∀ x ∈ l, x.Fits)
    (h : s.saveLaunches d l = (.ok (), d')) :
    s.Settled d' ∧ s.foundLaunches d' = l.map Launch.stored ∧
      s.foundBreakpoints d' = s.foundBreakpoints d := by
  obtain ⟨hstanding, hmade, htext, hothers⟩ := writeList_ok hsettled.standing plain_launches plain_launches_tmp
    (Path.parent?_join s.directory plain_launches) h
  have hother := hothers "breakpoints.json" plain_breakpoints (by decide) (by decide)
  refine ⟨⟨hstanding, ?_⟩, ?_, ?_⟩
  · intro p _
    have hsame : s.made d' = d' := congrArg Prod.snd hmade
    rw [hsame]
  · have hitems : Shape.list Launch.shape (.arr (l.map Launch.toJson)) = .ok (l.map Launch.stored) :=
      Shape.list_map fun x hx => Launch.shape_toJson (hfits x hx)
    have hkept : ∀ v ∈ l.map Launch.toJson, Json.Kept 2 v := by
      intro v hv
      obtain ⟨x, hx, rfl⟩ := List.mem_map.mp hv
      exact Launch.kept_toJson (hfits x hx)
    have hread := read?_listText "LaunchFile" (show "launches" ≠ "version" by decide) hkept (by decide) hitems
    have hfile : (d'.readText s.launchesPath).toOption = some _ := congrArg Except.toOption htext
    rw [foundLaunches, loadLaunches, readList_getD, hfile]
    dsimp only
    rw [hread]
    rfl
  · refine s.foundBreakpoints_congr ?_
    exact hother.trans (hsettled.same s.breakpointsPath List.mem_cons_self)

end Switchboard.Debug.Store
