import Switchboard.Proofs.Breakpoint.Storing
import Switchboard.Proofs.Debug.StateFiles
import Switchboard.Proofs.Debug.Synchronizing
import Switchboard.Proofs.Launch.Storing

/-!
# The state files mirror the debugger

* `World.Mirrored`: a debugger that is started on the state files finds what this one has to keep;
* `World.Reflects`: an access after which the files still mirror the debugger, provided that they could be written;
* `Sync.allowed_reflects`, `Desk.Request.within_work`: every access of every request is one;
* `Desk`, `Desk.play`: requests under way, one access at a time in any order, and all else that happens around them;
* `Desk.found_of_play`: what is found at any time.
-/

namespace Switchboard

open Debug

namespace World

/-! ## Mirroring -/

/-- A debugger that is started on the state files finds what this one has to keep. -/
structure Mirrored (w : World) : Prop where
  settled : w.debugger.store.Settled w.disk
  breakpoints : w.debugger.breakpoints.Storable
  launches : w.debugger.launches.Storable
  foundBreakpoints : w.debugger.store.foundBreakpoints w.disk = w.debugger.breakpoints.entries.map Breakpoint.stored
  foundLaunches : w.debugger.store.foundLaunches w.disk = w.debugger.launches.saved.map Launch.stored

/-- There are ids left to give out. -/
structure Roomy (w : World) : Prop where
  breakpoints : w.debugger.breakpoints.nextId + 1 < Breakpoint.Catalog.idLimit
  launches : w.debugger.launches.nextId + 1 < Launch.Catalog.idLimit

/-- What there is to keep after a step can be written. -/
structure Writes (w w' : World) : Prop where
  breakpoints : (w.debugger.store.saveBreakpoints w.disk w'.debugger.breakpoints.entries).1 = .ok ()
  launches : (w.debugger.store.saveLaunches w.disk w'.debugger.launches.saved).1 = .ok ()

/-- After this access the files still mirror the debugger, provided that they could be written. -/
def Reflects (w w' : World) : Prop := w.Mirrored → w.Roomy → Writes w w' → w'.Mirrored

/-- The same debugger with another disk and other breakpoints and configurations, all of which are found. -/
lemma Mirrored.of_found {w w' : World} (hstore : w'.debugger.store = w.debugger.store)
    (hsettled : w.debugger.store.Settled w'.disk) (hbreakpoints : w'.debugger.breakpoints.Storable)
    (hlaunches : w'.debugger.launches.Storable)
    (hfoundBreakpoints : w.debugger.store.foundBreakpoints w'.disk = w'.debugger.breakpoints.entries.map Breakpoint.stored)
    (hfoundLaunches : w.debugger.store.foundLaunches w'.disk = w'.debugger.launches.saved.map Launch.stored) :
    w'.Mirrored := by
  rw [← hstore] at hsettled hfoundBreakpoints hfoundLaunches
  exact ⟨hsettled, hbreakpoints, hlaunches, hfoundBreakpoints, hfoundLaunches⟩

/-- What is kept is the same, and the state files were left alone. -/
lemma Mirrored.of_untouched {w w' : World} (h : w.Mirrored) (hstore : w'.debugger.store = w.debugger.store)
    (hbreakpoints : w'.debugger.breakpoints = w.debugger.breakpoints)
    (hlaunches : w'.debugger.launches = w.debugger.launches)
    (huntouched : w.debugger.store.Untouched w.disk w'.disk) : w'.Mirrored := by
  have hfirst := (huntouched.same _ List.mem_cons_self).1
  have hsecond := (huntouched.same _ (List.mem_cons_of_mem _ List.mem_cons_self)).1
  refine .of_found hstore (huntouched.settled _ h.settled) ?_ ?_ ?_ ?_
  · rw [hbreakpoints]
    exact h.breakpoints
  · rw [hlaunches]
    exact h.launches
  · rw [hbreakpoints, Store.foundBreakpoints_congr _ hfirst]
    exact h.foundBreakpoints
  · rw [hlaunches, Store.foundLaunches_congr _ hsecond]
    exact h.foundLaunches

namespace Reflects

variable {w w' : World}

/-- Neither the files nor what is kept is changed. -/
lemma of_eq (hdisk : w'.disk = w.disk) (hstore : w'.debugger.store = w.debugger.store)
    (hbreakpoints : w'.debugger.breakpoints = w.debugger.breakpoints)
    (hlaunches : w'.debugger.launches = w.debugger.launches) : Reflects w w' := by
  intro h _ _
  refine h.of_untouched hstore hbreakpoints hlaunches ?_
  rw [hdisk]
  exact ⟨h.settled.standing, fun _ _ => ⟨rfl, rfl⟩⟩

lemma refl (w : World) : Reflects w w := .of_eq rfl rfl rfl rfl

/-- The editor is told. -/
lemma note (h : Reflects w w') (notes : List Note) : Reflects w (w'.note notes) := by
  intro hmirrored hroom hwrites
  have hafter := h hmirrored hroom ⟨hwrites.breakpoints, hwrites.launches⟩
  exact ⟨hafter.settled, hafter.breakpoints, hafter.launches, hafter.foundBreakpoints, hafter.foundLaunches⟩

/-- Breakpoints are changed and stored. -/
lemma saveBreakpoints {c : Breakpoint.Catalog} (hc : w.Mirrored → w.Roomy → c.Storable) :
    Reflects w (w.setBreakpoints c).saveBreakpoints := by
  intro h hroom hwrites
  have hstorable := hc h hroom
  have hsaved : w.debugger.store.saveBreakpoints w.disk c.entries
      = (.ok (), (w.debugger.store.saveBreakpoints w.disk c.entries).2) := Prod.ext hwrites.breakpoints rfl
  obtain ⟨hsettled, hfound, hother⟩ := w.debugger.store.saveBreakpoints_ok h.settled hstorable.fits hsaved
  exact .of_found rfl hsettled hstorable h.launches hfound (hother.trans h.foundLaunches)

/-- Breakpoints are changed in what is not kept of them. -/
lemma setBreakpoints {c : Breakpoint.Catalog} (hc : w.Mirrored → c.Storable ∧
    c.entries.map Breakpoint.stored = w.debugger.breakpoints.entries.map Breakpoint.stored) :
    Reflects w (w.setBreakpoints c) := by
  intro h _ _
  obtain ⟨hstorable, hsame⟩ := hc h
  exact .of_found rfl h.settled hstorable h.launches (h.foundBreakpoints.trans hsame.symm) h.foundLaunches

/-- Launch configurations are changed and stored. -/
lemma saveLaunches {c : Launch.Catalog} (hc : w.Mirrored → w.Roomy → c.Storable) :
    Reflects w (Editing.saveLaunches (Editing.setLaunches w c)) := by
  intro h hroom hwrites
  have hstorable := hc h hroom
  have hsaved : w.debugger.store.saveLaunches w.disk c.saved
      = (.ok (), (w.debugger.store.saveLaunches w.disk c.saved).2) := Prod.ext hwrites.launches rfl
  obtain ⟨hsettled, hfound, hother⟩ := w.debugger.store.saveLaunches_ok h.settled hstorable.fits hsaved
  exact .of_found rfl hsettled h.breakpoints hstorable (hother.trans h.foundBreakpoints) hfound

/-- Launch configurations are changed, but none that is saved. -/
lemma setLaunches {c : Launch.Catalog} (hc : w.Mirrored → w.Roomy → c.Storable ∧ c.saved = w.debugger.launches.saved) :
    Reflects w (Editing.setLaunches w c) := by
  intro h hroom _
  obtain ⟨hstorable, hsame⟩ := hc h hroom
  refine .of_found rfl h.settled h.breakpoints hstorable h.foundBreakpoints ?_
  show _ = c.saved.map Launch.stored
  rw [hsame]
  exact h.foundLaunches

end Reflects

/-! ## Breakpoints that follow their anchors, and answers of adapters -/

lemma reflects_relocate (w : World) (path : Path) : Reflects w (w.relocate path) := by
  unfold relocate Debugger.relocate
  dsimp only
  split
  · exact .refl w
  · next f _ =>
    let sent := Breakpoint.Catalog.followAll f (w.debugger.driftOf path) (w.debugger.breakpoints.forFile path)
      w.debugger.breakpoints
    have hfollow : w.Mirrored → sent.2.Storable ∧ (sent.1 = [] →
        sent.2.entries.map Breakpoint.stored = w.debugger.breakpoints.entries.map Breakpoint.stored) :=
      fun h => h.breakpoints.followAll (h.breakpoints.sound.awaits path)
    show Reflects w (if sent.1.isEmpty then w.setBreakpoints sent.2
      else (w.setBreakpoints sent.2).saveBreakpoints.noteBreakpoints .change sent.1)
    split
    · next hempty =>
      refine .setBreakpoints ?_
      intro h
      obtain ⟨hstorable, hsame⟩ := hfollow h
      exact ⟨hstorable, hsame (List.isEmpty_iff.mp hempty)⟩
    · exact Reflects.note (.saveBreakpoints fun h _ => (hfollow h).1) _

lemma reflects_verify (w : World) (ids : List Nat) (responses : List BreakpointResponse) :
    Reflects w (w.verify ids responses) :=
  Reflects.note (.setBreakpoints fun h => h.breakpoints.applyVerification ids responses) _

end World

open World (Reflects)

namespace Debug

/-! ## Synchronization -/

/-- Whatever adapters are sent and answer, the files mirror the debugger. -/
lemma Sync.allowed_reflects : Sync.Allowed Reflects where
  refl := .refl
  net := fun _ _ _ => .of_eq rfl rfl rfl rfl
  relocate := World.reflects_relocate
  verify := World.reflects_verify

/-! ## Commands -/

namespace Editing

/-- A breakpoint is placed on a line. -/
lemma reflects_placeBreakpoint (project : String) (path : Path) (line : UInt32) (column : Option UInt32) (w : World) :
    Reflects w (placeBreakpoint project path line.toNat (column.map (·.toNat)) w).2 := by
  have hline : line.toNat ≤ 0xFFFFFFFF := Nat.le_of_lt_succ line.toNat_lt
  have hcolumn : ∀ m ∈ column.map (·.toNat), m ≤ 0xFFFFFFFF := by
    intro m hm
    obtain ⟨c, -, rfl⟩ := Option.map_eq_some_iff.mp hm
    exact Nat.le_of_lt_succ c.toNat_lt
  unfold placeBreakpoint
  dsimp only
  split
  · exact .refl w
  · next id c hadd =>
    refine Reflects.note (.saveBreakpoints ?_) _
    intro h hroom
    rw [show c = _ from (congrArg Prod.snd hadd).symm]
    exact h.breakpoints.addLine hroom.breakpoints project path _ hline hcolumn

/-- The flags of the exception breakpoint are set. -/
lemma reflects_placeException (caught uncaught : Bool) (w : World) : Reflects w (placeException caught uncaught w).2 := by
  refine Reflects.note (.saveBreakpoints ?_) _
  intro h hroom
  exact h.breakpoints.setException hroom.breakpoints caught uncaught

/-- Edits are applied to a breakpoint, or nothing changes. -/
lemma reflects_applyEdits (id : Nat) (edits : List (String × String)) (w : World) :
    Reflects w (applyEdits id edits w).2 := by
  have hedited : w.Mirrored → w.Roomy → (w.debugger.breakpoints.edited id edits).Storable :=
    fun h _ => h.breakpoints.edited id edits
  unfold applyEdits
  unfold Breakpoint.Catalog.edited at hedited
  dsimp only
  split
  · exact .refl w
  · next b hget =>
    rw [hget] at hedited
    dsimp only at hedited
    split
    · exact .refl w
    · next happly =>
      rw [happly] at hedited
      exact Reflects.note (.saveBreakpoints hedited) _
    · next happly =>
      rw [happly] at hedited
      exact Reflects.note (.saveBreakpoints hedited) _

/-- All breakpoints are removed. -/
lemma reflects_dropBreakpoints (w : World) : Reflects w (dropBreakpoints w).2 := by
  have hcleared : Reflects w (w.setBreakpoints w.debugger.breakpoints.clear.2).saveBreakpoints :=
    .saveBreakpoints fun _ _ => Breakpoint.Catalog.Storable.clear
  exact hcleared.note _

lemma within_createLaunch (n : NewLaunch) (hn : Launch.Ordered n.attributes) :
    Attempt.Within Reflects (createLaunch n) := by
  refine within_onLaunches .refl ?_
  intro w l c hcreate
  refine Reflects.note ?_ _
  split
  · exact .saveLaunches fun h hroom => (h.launches.createIn hroom.launches hn hcreate).1
  · next hsave =>
    refine .setLaunches ?_
    intro h hroom
    obtain ⟨hstorable, hsame⟩ := h.launches.createIn hroom.launches hn hcreate
    exact ⟨hstorable, hsame (by simpa using hsave)⟩

lemma within_cloneLaunch (id : Nat) : Attempt.Within Reflects (cloneLaunch id) := by
  refine within_onLaunches .refl ?_
  intro w l c hclone
  obtain ⟨⟨copy, c'⟩, hcopy, hrest⟩ := Breakpoint.ok_of_bind_eq_ok hclone
  obtain rfl : c' = c := congrArg Prod.snd (Except.ok.inj hrest)
  exact Reflects.note (.saveLaunches fun h hroom => h.launches.clone hroom.launches hcopy) _

lemma within_editLaunch (id : Nat) (e : LaunchEdit) : Attempt.Within Reflects (editLaunch id e) := by
  refine within_onLaunches .refl ?_
  intro w l c hedit
  have hreflects : Reflects w (setLaunches w c) := .setLaunches fun h _ => h.launches.edit (Launch.mild_apply e) hedit
  split
  · exact hreflects
  · exact hreflects.note _

lemma within_commitLaunch (id : Nat) : Attempt.Within Reflects (commitLaunch id) := by
  refine .act ?_
  intro w
  split
  · exact .refl w
  · next committed c hcommit =>
    split
    · exact Reflects.note (.saveLaunches fun h _ => (h.launches.commit hcommit).1) _
    · next hnot =>
      refine .setLaunches ?_
      intro h _
      obtain ⟨hstorable, hsame⟩ := h.launches.commit hcommit
      exact ⟨hstorable, congrArg Launch.Catalog.saved (hsame (by simpa using hnot))⟩

lemma within_saveLaunch (id : Nat) : Attempt.Within Reflects (saveLaunch id) := by
  refine within_onLaunches .refl ?_
  intro w l c hsave
  obtain ⟨c', hsaving, hrest⟩ := Breakpoint.ok_of_bind_eq_ok hsave
  obtain rfl : c' = c := congrArg Prod.snd (Except.ok.inj hrest)
  exact Reflects.note (.saveLaunches fun h _ => h.launches.save hsaving) _

lemma within_deleteLaunch (id : Nat) : Attempt.Within Reflects (deleteLaunch id) := by
  refine .act ?_
  intro w
  have hdelete : w.Mirrored → _ := fun h => h.launches.delete id
  split
  · next e c hfault =>
    rw [hfault] at hdelete
    exact .setLaunches fun h _ => ⟨(hdelete h).1, (hdelete h).2 e rfl⟩
  · next l c hdone =>
    rw [hdone] at hdelete
    exact Reflects.note (.saveLaunches fun h _ => (hdelete h).1) _

end Editing

/-! ## Requests -/

/-- What is asked of the debugger that has to do with breakpoints and launch configurations. -/
inductive Desk.Request where
  | addBreakpoint (project : String) (path : Path) (line : UInt32) (column : Option UInt32)
  | setException (caught uncaught : Bool) (project : Option String)
  | editBreakpoint (id : Nat) (edits : List (String × String))
  | clearBreakpoints
  | createLaunch (n : Editing.NewLaunch) (ordered : Launch.Ordered n.attributes)
  | cloneLaunch (id : Nat)
  | editLaunch (id : Nat) (e : Editing.LaunchEdit)
  | commitLaunch (id : Nat)
  | saveLaunch (id : Nat)
  | deleteLaunch (id : Nat)
  /-- A session is sent all breakpoints, where their anchors are by then. -/
  | configure (s : SessionId)

/-- The work of a request. -/
def Desk.Request.work : Desk.Request → DebugWork Unit
  | addBreakpoint project path line column => do
    let _ ← Editing.addBreakpoint project path line.toNat (column.map (·.toNat))
  | setException caught uncaught project => do
    let _ ← Editing.setException caught uncaught project
  | editBreakpoint id edits => Editing.editBreakpoint id edits
  | clearBreakpoints => do
    let _ ← Editing.clearBreakpoints
  | createLaunch n _ => do
    let _ ← Editing.createLaunch n
  | cloneLaunch id => do
    let _ ← Editing.cloneLaunch id
  | editLaunch id e => do
    let _ ← Editing.editLaunch id e
  | commitLaunch id => do
    let _ ← Editing.commitLaunch id
  | saveLaunch id => do
    let _ ← Editing.saveLaunch id
  | deleteLaunch id => Editing.deleteLaunch id
  | configure s => Attempt.ofTask (Sync.everything s)

/-- Every access of a request leaves the files mirroring the debugger. -/
lemma Desk.Request.within_work (r : Desk.Request) : Attempt.Within Reflects r.work := by
  have hsync : Sync.Allowed Reflects := Sync.allowed_reflects
  cases r with
  | addBreakpoint project path line column =>
    have hplace := Editing.reflects_placeBreakpoint project path line column
    exact .bind (hsync.addBreakpoint hplace) fun _ => .pure ()
  | setException caught uncaught project =>
    have hplace := Editing.reflects_placeException caught uncaught
    exact .bind (hsync.setException project hplace) fun _ => .pure ()
  | editBreakpoint id edits => exact hsync.editBreakpoint (Editing.reflects_applyEdits id edits)
  | clearBreakpoints =>
    exact .bind (hsync.clearBreakpoints Editing.reflects_dropBreakpoints) fun _ => .pure ()
  | createLaunch n ordered => exact .bind (Editing.within_createLaunch n ordered) fun _ => .pure ()
  | cloneLaunch id => exact .bind (Editing.within_cloneLaunch id) fun _ => .pure ()
  | editLaunch id e => exact .bind (Editing.within_editLaunch id e) fun _ => .pure ()
  | commitLaunch id => exact .bind (Editing.within_commitLaunch id) fun _ => .pure ()
  | saveLaunch id => exact .bind (Editing.within_saveLaunch id) fun _ => .pure ()
  | deleteLaunch id => exact Editing.within_deleteLaunch id
  | configure s => exact .ofTask (hsync.everything s)

/-! ## Runs -/

/-- The world, and what is left of requests. -/
structure Desk where
  world : World
  calls : List (Task Wait World (Except Fault Unit)) := []

namespace Desk

/-- Whose turn it is, and what is new. -/
inductive Turn where
  | begins (r : Request)
  /-- A request makes one access, or passes a wait that is over. -/
  | step (i : Nat)
  /-- Anything else changes: sessions, targets, channels, source files and where their anchors are. -/
  | outside (world : World)

/-- What everything else makes of the world. -/
def around (w new : World) : World :=
  { new with
    debugger := { new.debugger with
      store := w.debugger.store
      breakpoints := w.debugger.breakpoints
      launches := w.debugger.launches } }

/-- One turn; what is not possible changes nothing. -/
def after (d : Desk) : Turn → Desk
  | .begins r => { d with calls := d.calls ++ [r.work.outcome] }
  | .step i =>
    match d.calls[i]? with
    | none => d
    | some work =>
      match work.tick? World.holds d.world with
      | none => d
      | some (work, world) => { world, calls := d.calls.set i work }
  | .outside new => { d with world := around d.world new }

/-- The desk after `n` turns. -/
def play (start : World) (schedule : Nat → Turn) : Nat → Desk
  | 0 => { world := start }
  | n + 1 => (play start schedule n).after (schedule n)

/-- The turn of a request: it can go on and makes one step, or nothing changes. -/
lemma after_step (d : Desk) (i : Nat) :
    (∃ work work' w', work ∈ d.calls ∧ work.tick? World.holds d.world = some (work', w') ∧
      d.after (.step i) = { world := w', calls := d.calls.set i work' }) ∨ d.after (.step i) = d := by
  unfold after
  cases hi : d.calls[i]? with
  | none => exact .inr (by simp only [hi])
  | some work =>
    cases htick : work.tick? World.holds d.world with
    | none => exact .inr (by simp only [hi, htick])
    | some r =>
      obtain ⟨work', w'⟩ := r
      exact .inl ⟨work, work', w', List.mem_of_getElem? hi, htick, by simp only [hi, htick]⟩

/-- The files mirror the debugger, and whatever is left of requests will keep it so. -/
structure Faithful (d : Desk) : Prop where
  mirrored : d.world.Mirrored
  calls : ∀ work ∈ d.calls, work.Within Reflects

/-- One turn in which requests can write and the state files are left alone by others. -/
lemma Faithful.after {d : Desk} (h : d.Faithful) {turn : Turn} (hroom : d.world.Roomy)
    (hwrites : ∀ i, turn = .step i → World.Writes d.world (d.after turn).world)
    (houtside : ∀ new, turn = .outside new → d.world.debugger.store.Untouched d.world.disk new.disk) :
    (d.after turn).Faithful := by
  cases turn with
  | begins r =>
    refine ⟨h.mirrored, ?_⟩
    intro work hwork
    rcases List.mem_append.mp hwork with hwork | hwork
    · exact h.calls work hwork
    · obtain rfl := List.mem_singleton.mp hwork
      exact r.within_work
  | step i =>
    have hstep := hwrites i rfl
    rcases d.after_step i with ⟨work, work', w', hmem, htick, heq⟩ | heq
    · rw [heq] at hstep ⊢
      obtain ⟨hreflects, hwithin⟩ := Task.Within.tick (h.calls work hmem) htick
      constructor
      · rcases hreflects with hreflects | hsame
        · exact hreflects h.mirrored hroom hstep
        · rw [hsame]
          exact h.mirrored
      · intro other hother
        rcases List.mem_or_eq_of_mem_set hother with hother | rfl
        · exact h.calls other hother
        · exact hwithin
    · rw [heq]
      exact h
  | outside new =>
    refine ⟨?_, h.calls⟩
    exact World.Mirrored.of_untouched h.mirrored rfl rfl rfl (houtside new rfl)

end Desk

end Debug

namespace World

/-- There are no breakpoints and no launch configurations, and nothing is found in the directory of the state files. -/
structure Fresh (w : World) : Prop where
  breakpoints : w.debugger.breakpoints = {}
  launches : w.debugger.launches = {}
  settled : w.debugger.store.Settled w.disk
  empty : ∀ p ∈ w.debugger.store.files, Store.text? w.disk p = none

lemma Fresh.mirrored {w : World} (h : w.Fresh) : w.Mirrored := by
  refine ⟨h.settled, ?_, ?_, ?_, ?_⟩
  · rw [h.breakpoints]
    exact Breakpoint.Catalog.storable_empty
  · rw [h.launches]
    exact Launch.Catalog.storable_empty
  · have hnone : (w.disk.readText w.debugger.store.breakpointsPath).toOption = none := h.empty _ List.mem_cons_self
    rw [Store.foundBreakpoints, Store.loadBreakpoints, Store.readList_getD, hnone, h.breakpoints]
    rfl
  · have hnone : (w.disk.readText w.debugger.store.launchesPath).toOption = none :=
      h.empty _ (List.mem_cons_of_mem _ List.mem_cons_self)
    rw [Store.foundLaunches, Store.loadLaunches, Store.readList_getD, hnone, h.launches]
    rfl

end World

namespace Debug.Desk

/-- In a run that starts with nothing the files mirror the debugger at any time. -/
lemma faithful_play {start : World} (hfresh : start.Fresh) (schedule : Nat → Turn) (n : Nat)
    (hroom : ∀ m < n, (play start schedule m).world.Roomy)
    (hwrites : ∀ m < n, ∀ i, schedule m = .step i →
      World.Writes (play start schedule m).world (play start schedule (m + 1)).world)
    (houtside : ∀ m < n, ∀ new, schedule m = .outside new →
      (play start schedule m).world.debugger.store.Untouched (play start schedule m).world.disk new.disk) :
    (play start schedule n).Faithful := by
  induction n with
  | zero => exact ⟨hfresh.mirrored, fun _ h => absurd h List.not_mem_nil⟩
  | succ n ih =>
    have hbefore := ih (fun m hm => hroom m (Nat.lt_succ_of_lt hm)) (fun m hm => hwrites m (Nat.lt_succ_of_lt hm))
      fun m hm => houtside m (Nat.lt_succ_of_lt hm)
    exact hbefore.after (hroom n (Nat.lt_succ_self n)) (hwrites n (Nat.lt_succ_self n)) (houtside n (Nat.lt_succ_self n))

/-- Requests are made one access at a time in any order, starting with nothing. At any time a debugger that is started on
the state directory has the same breakpoints, without their anchors and what adapters said of them, and the launch
configurations that are saved, without the edits that were not committed. -/
theorem found_of_play (start : World) (hfresh : start.Fresh) (schedule : Nat → Turn) (n : Nat)
    (hroom : ∀ m < n, (play start schedule m).world.Roomy)
    (hwrites : ∀ m < n, ∀ i, schedule m = .step i →
      World.Writes (play start schedule m).world (play start schedule (m + 1)).world)
    (houtside : ∀ m < n, ∀ new, schedule m = .outside new →
      (play start schedule m).world.debugger.store.Untouched (play start schedule m).world.disk new.disk)
    (settings : Settings) (sources : Sources) :
    let w := (play start schedule n).world
    let found := Debugger.ofDisk settings sources w.debugger.store.directory w.disk
    found.breakpoints.entries = w.debugger.breakpoints.entries.map Breakpoint.stored ∧
      found.launches.entries = w.debugger.launches.saved ∧ found.launches.working = [] := by
  intro w found
  have hmirrored := (faithful_play hfresh schedule n hroom hwrites houtside).mirrored
  have hbreakpoints : found.breakpoints = .ofList (w.debugger.store.foundBreakpoints w.disk) := rfl
  have hlaunches : found.launches = .ofList (w.debugger.store.foundLaunches w.disk) := rfl
  rw [hmirrored.foundBreakpoints] at hbreakpoints
  rw [hmirrored.foundLaunches] at hlaunches
  rw [hbreakpoints, hlaunches]
  exact ⟨hmirrored.breakpoints.sound.entries_ofList_stored, hmirrored.launches.ofList_saved⟩

/-- Nothing is kept yet. -/
def startOfDay : World := { debugger := { store := ⟨⟨"/s"⟩⟩ } }

/-- A breakpoint is set, and a configuration is saved and then edited. -/
def dayOfWork : Nat → Turn
  | 0 => .begins (.addBreakpoint "p" ⟨"/b.py"⟩ 2 none)
  | 1 => .step 0
  | 2 => .begins (.createLaunch { name := "a", language := "python", project := "p", save := true } .nil)
  | 3 => .step 1
  | 4 => .begins (.editLaunch 1 { name := some "b" })
  | _ => .step 2

/-- The breakpoint and the configuration are found, but not the edit. -/
theorem found_of_play_dayOfWork :
    let w := (play startOfDay dayOfWork 6).world
    let found := Debugger.ofDisk {} {} w.debugger.store.directory w.disk
    found.breakpoints.entries.map (·.line?) = [some 2] ∧ found.launches.entries.map (·.name) = ["a"] ∧
      w.debugger.launches.working.map (·.2.name) = ["b"] ∧ found.launches.working = [] := by
  have hfresh : startOfDay.Fresh := by
    refine ⟨rfl, rfl, ⟨?_, ?_⟩, ?_⟩
    · intro above habove
      rw [List.prefix_nil.mp habove]
      rfl
    · decide +kernel
    · decide +kernel
  have hroom : ∀ m < 6, (play startOfDay dayOfWork m).world.Roomy := by
    have hcounts : ∀ m < 6, (play startOfDay dayOfWork m).world.debugger.breakpoints.nextId ≤ 2 ∧
        (play startOfDay dayOfWork m).world.debugger.launches.nextId ≤ 2 := by decide +kernel
    intro m hm
    obtain ⟨hbreakpoints, hlaunches⟩ := hcounts m hm
    exact ⟨Nat.lt_of_le_of_lt (Nat.succ_le_succ hbreakpoints) (by decide),
      Nat.lt_of_le_of_lt (Nat.succ_le_succ hlaunches) (by decide)⟩
  have hwrites : ∀ m < 6, ∀ i, dayOfWork m = .step i →
      World.Writes (play startOfDay dayOfWork m).world (play startOfDay dayOfWork (m + 1)).world := by
    have hdone : ∀ {e : Except Fault Unit}, e.toOption = some () → e = .ok () := by
      intro e he
      cases e with
      | ok _ => rfl
      | error _ => cases he
    -- files are written at these times only
    have hsteps : ∀ m < 6, ∀ i, dayOfWork m = .step i → m ∈ [1, 3, 5] := by
      intro m hm i hstep
      match m, hm, hstep with
      | 0, _, hbegins | 2, _, hbegins | 4, _, hbegins => cases hbegins
      | 1, _, _ | 3, _, _ | 5, _, _ => decide
      | _ + 6, hm, _ => omega
    have hboth : ∀ m ∈ [1, 3, 5],
        let w := (play startOfDay dayOfWork m).world
        let w' := (play startOfDay dayOfWork (m + 1)).world
        (w.debugger.store.saveBreakpoints w.disk w'.debugger.breakpoints.entries).1.toOption = some () ∧
          (w.debugger.store.saveLaunches w.disk w'.debugger.launches.saved).1.toOption = some () := by decide +kernel
    intro m hm i hstep
    obtain ⟨hbreakpoints, hlaunches⟩ := hboth m (hsteps m hm i hstep)
    exact ⟨hdone hbreakpoints, hdone hlaunches⟩
  have houtside : ∀ m < 6, ∀ new, dayOfWork m = .outside new →
      (play startOfDay dayOfWork m).world.debugger.store.Untouched (play startOfDay dayOfWork m).world.disk new.disk := by
    intro m _ new hnew
    unfold dayOfWork at hnew
    split at hnew <;> cases hnew
  obtain ⟨hbreakpoints, hlaunches, hworking⟩ :=
    found_of_play startOfDay hfresh dayOfWork 6 hroom hwrites houtside {} {}
  refine ⟨?_, ?_, ?_, hworking⟩
  · rw [hbreakpoints]
    decide +kernel
  · rw [hlaunches]
    decide +kernel
  · decide +kernel

end Debug.Desk

end Switchboard
