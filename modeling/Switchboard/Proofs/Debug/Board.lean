import Switchboard.Proofs.Debug.Synchronizing
import Switchboard.Proofs.Launch.Shown

/-!
# The editor's board of breakpoints and launch configurations

An editor that has read both listings follows the notes: what is added, changed or removed it adds, replaces or takes
away, by id.

* `Board.hear`: what becomes of the board with a message;
* `World.board`: what there is to see now;
* `World.Informs`: an access after which an editor that heard what was told sees what there is to see;
* `Board.allowed_informs`, `within_createLaunch` and so on: every access of commands on breakpoints and launch
  configurations is one, whatever adapters answer.
-/

namespace Switchboard

open Debug

/-- What an editor has of breakpoints and of launch configurations, by id. -/
structure Board where
  breakpoints : Nat → Option Breakpoint
  launches : Nat → Option Launch

/-- Is this said of breakpoints or of launch configurations? -/
def Message.isOfCatalogs : Message → Bool
  | .debug (.breakpoint _ _) | .debug (.launch _ _) => true
  | _ => false

namespace Board

/-- What is on the board when both listings have been read. -/
def ofLists (breakpoints : List Breakpoint) (launches : List Launch) : Board where
  breakpoints id := (breakpoints.find? (·.id = id)).map Breakpoint.unanchored
  launches id := launches.find? (·.id = id)

/-- What is on the board after a message. -/
def hear (b : Board) : Message → Board
  | .debug (.breakpoint what x) => { b with breakpoints := what.revise x.id x.unanchored b.breakpoints }
  | .debug (.launch what l) => { b with launches := what.revise l.id l b.launches }
  | _ => b

lemma hear_of_aside {m : Message} (h : m.isOfCatalogs = false) (b : Board) : b.hear m = b := by
  unfold hear
  split
  · cases h
  · cases h
  · rfl

lemma foldl_hear_of_aside {l : List Message} (h : ∀ m ∈ l, m.isOfCatalogs = false) (b : Board) : l.foldl hear b = b := by
  induction l with
  | nil => rfl
  | cons m rest ih =>
    rw [List.foldl_cons, hear_of_aside (h m List.mem_cons_self)]
    exact ih fun m hm => h m (List.mem_cons_of_mem _ hm)

lemma foldl_hear_breakpoints (what : Change) (l : List Breakpoint) (b : Board) :
    ((l.map (Note.breakpoint what)).map Message.debug).foldl hear b =
      { b with breakpoints := Breakpoint.hear what b.breakpoints l } := by
  induction l generalizing b with
  | nil => rfl
  | cons x rest ih => exact ih _

end Board

/-- A session apart from whether somebody takes up its events. -/
def Debug.Session.unserved (s : Session) : Session := { s with served := false }

namespace World

/-- What there is to see of breakpoints and launch configurations. -/
def board (w : World) : Board := .ofLists w.debugger.breakpoints.entries w.debugger.launches.entries

/-- In either catalog entries are in order of their ids. -/
structure Listed (w : World) : Prop where
  breakpoints : w.debugger.breakpoints.Listed
  launches : w.debugger.launches.Listed

/-- The sessions that there were are still there, over the same channels. -/
def Stays (w w' : World) : Prop :=
  w.debugger.sessions.map Session.unserved <+: w'.debugger.sessions.map Session.unserved

/-- Sessions stay, catalogs stay in order, and an editor that hears what is told sees what there is to see. -/
structure Informs (w w' : World) : Prop where
  stays : w.Stays w'
  listed : w.Listed → w'.Listed
  told : w.Listed → ∃ more, w'.told = w.told ++ more ∧ more.foldl Board.hear w.board = w'.board

lemma stays_of_eq {w w' : World} (h : w'.debugger.sessions = w.debugger.sessions) : w.Stays w' := by
  rw [Stays, h]

/-- A session that there was stays the same one, but for who takes up its events. -/
lemma Stays.session {w w' : World} (h : w.Stays w') {s : SessionId} (hs : s < w.debugger.sessions.length) :
    s < w'.debugger.sessions.length ∧ (w'.debugger.session s).unserved = (w.debugger.session s).unserved := by
  have hget := h.getElem (by rwa [List.length_map] : s < (w.debugger.sessions.map Session.unserved).length)
  have hlater : s < w'.debugger.sessions.length := by
    have hlength := h.length_le
    rw [List.length_map, List.length_map] at hlength
    exact Nat.lt_of_lt_of_le hs hlength
  refine ⟨hlater, ?_⟩
  rw [List.getElem_map, List.getElem_map] at hget
  rw [Debugger.session, Debugger.session, List.getD_eq_getElem _ _ hlater, List.getD_eq_getElem _ _ hs]
  exact hget.symm

namespace Informs

variable {w w' : World}

/-- Neither catalog changes, and nothing is told of them. -/
lemma of_aside (hstays : w.Stays w') (hbreakpoints : w'.debugger.breakpoints = w.debugger.breakpoints)
    (hlaunches : w'.debugger.launches = w.debugger.launches)
    (htold : ∃ more, w'.told = w.told ++ more ∧ ∀ m ∈ more, m.isOfCatalogs = false) : Informs w w' := by
  obtain ⟨more, htold, haside⟩ := htold
  refine ⟨hstays, fun h => ⟨?_, ?_⟩, fun _ => ⟨more, htold, ?_⟩⟩
  · rw [hbreakpoints]
    exact h.breakpoints
  · rw [hlaunches]
    exact h.launches
  · rw [Board.foldl_hear_of_aside haside, board, board, hbreakpoints, hlaunches]

/-- Nothing is told at all. -/
lemma of_eq (hsessions : w'.debugger.sessions = w.debugger.sessions)
    (hbreakpoints : w'.debugger.breakpoints = w.debugger.breakpoints)
    (hlaunches : w'.debugger.launches = w.debugger.launches) (htold : w'.told = w.told) : Informs w w' :=
  .of_aside (stays_of_eq hsessions) hbreakpoints hlaunches
    ⟨[], htold.trans (List.append_nil _).symm, List.forall_mem_nil _⟩

lemma refl (w : World) : Informs w w := .of_eq rfl rfl rfl rfl

lemma trans {w'' : World} (h : Informs w w') (h' : Informs w' w'') : Informs w w'' := by
  refine ⟨h.stays.trans h'.stays, fun hw => h'.listed (h.listed hw), fun hw => ?_⟩
  obtain ⟨more, htold, hboard⟩ := h.told hw
  obtain ⟨rest, htold', hboard'⟩ := h'.told (h.listed hw)
  refine ⟨more ++ rest, ?_, ?_⟩
  · rw [htold', htold, List.append_assoc]
  · rw [List.foldl_append, hboard, hboard']

/-- Breakpoints change, and an editor is told of them. -/
lemma of_breakpoints {what : Change} {l : List Breakpoint} (hsessions : w'.debugger.sessions = w.debugger.sessions)
    (hlaunches : w'.debugger.launches = w.debugger.launches)
    (htold : w'.told = w.told ++ (l.map (Note.breakpoint what)).map Message.debug)
    (h : w.debugger.breakpoints.Listed →
      Breakpoint.Catalog.Told what l w.debugger.breakpoints w'.debugger.breakpoints) : Informs w w' := by
  refine ⟨stays_of_eq hsessions, fun hw => ⟨(h hw.breakpoints).listed, ?_⟩, fun hw => ⟨_, htold, ?_⟩⟩
  · rw [hlaunches]
    exact hw.launches
  · rw [Board.foldl_hear_breakpoints]
    show Board.mk (Breakpoint.hear what w.debugger.breakpoints.shown l) _ = Board.mk w'.debugger.breakpoints.shown _
    rw [(h hw.breakpoints).shown, hlaunches]
    rfl

/-- A launch configuration changes, and an editor is told of it. -/
lemma of_launch {what : Change} {l : Launch} (hsessions : w'.debugger.sessions = w.debugger.sessions)
    (hbreakpoints : w'.debugger.breakpoints = w.debugger.breakpoints)
    (htold : w'.told = w.told ++ [.debug (.launch what l)])
    (h : w.debugger.launches.Listed → Launch.Catalog.Told what l w.debugger.launches w'.debugger.launches) :
    Informs w w' := by
  refine ⟨stays_of_eq hsessions, fun hw => ⟨?_, (h hw.launches).listed⟩, fun hw => ⟨_, htold, ?_⟩⟩
  · rw [hbreakpoints]
    exact hw.breakpoints
  · show Board.mk _ (what.revise l.id l w.debugger.launches.get?) = Board.mk _ w'.debugger.launches.get?
    rw [(h hw.launches).shown, hbreakpoints]
    rfl

/-- Launch configurations change in what is not told of. -/
lemma of_untold (hsessions : w'.debugger.sessions = w.debugger.sessions)
    (hbreakpoints : w'.debugger.breakpoints = w.debugger.breakpoints) (htold : w'.told = w.told)
    (h : w.debugger.launches.Listed → Launch.Catalog.Untold w.debugger.launches w'.debugger.launches) :
    Informs w w' := by
  refine ⟨stays_of_eq hsessions, fun hw => ⟨?_, (h hw.launches).listed⟩, fun hw => ⟨[], ?_, ?_⟩⟩
  · rw [hbreakpoints]
    exact hw.breakpoints
  · rw [htold, List.append_nil]
  · show Board.mk _ w.debugger.launches.get? = Board.mk _ w'.debugger.launches.get?
    rw [(h hw.launches).shown, hbreakpoints]

end Informs

/-! ## Breakpoints that follow their anchors, and answers of adapters -/

lemma informs_relocate (w : World) (path : Path) : w.Informs (w.relocate path) := by
  unfold relocate Debugger.relocate
  dsimp only
  split
  · exact .refl w
  · next f _ =>
    have htold := fun h : w.debugger.breakpoints.Listed =>
      Breakpoint.Catalog.told_followFile h path f (w.debugger.driftOf path)
    generalize Breakpoint.Catalog.followAll f (w.debugger.driftOf path) (w.debugger.breakpoints.forFile path)
      w.debugger.breakpoints = sent at htold
    obtain ⟨moved, c⟩ := sent
    dsimp only at htold ⊢
    split
    · next hempty =>
      -- nothing moved, and nothing is told
      obtain rfl := List.isEmpty_iff.mp hempty
      exact .of_breakpoints rfl rfl (List.append_nil _).symm htold
    · exact .of_breakpoints rfl rfl rfl htold

lemma informs_verify (w : World) (ids : List Nat) (responses : List BreakpointResponse) :
    w.Informs (w.verify ids responses) :=
  .of_breakpoints rfl rfl rfl fun h => Breakpoint.Catalog.told_applyVerification h ids responses

end World

open World (Informs)

namespace Board

/-! ## Commands on breakpoints -/

section Breakpoints

open Editing

/-- Whatever adapters are sent and answer, editors are told of what there is to see. -/
lemma allowed_informs : Sync.Allowed Informs where
  refl := .refl
  net := fun _ _ _ => .of_eq rfl rfl rfl rfl
  relocate := World.informs_relocate
  verify := World.informs_verify

lemma informs_placeBreakpoint (project : String) (path : Path) (line : Nat) (column : Option Nat) (w : World) :
    w.Informs (placeBreakpoint project path line column w).2 := by
  unfold placeBreakpoint
  dsimp only
  split
  · exact .refl w
  · next hadd => exact .of_breakpoints rfl rfl rfl fun h => Breakpoint.Catalog.told_addLine h hadd

lemma informs_placeException (caught uncaught : Bool) (w : World) : w.Informs (placeException caught uncaught w).2 :=
  .of_breakpoints rfl rfl rfl fun h => Breakpoint.Catalog.told_setException h caught uncaught

lemma informs_applyEdits (id : Nat) (edits : List (String × String)) (w : World) :
    w.Informs (applyEdits id edits w).2 := by
  unfold applyEdits
  dsimp only
  split
  · exact .refl w
  · next b hget =>
    split
    · exact .refl w
    · exact .of_breakpoints rfl rfl rfl fun h => Breakpoint.Catalog.told_remove h hget
    · next now happly =>
      have hid : now.id = id :=
        (Breakpoint.samePlace_of_applyAll happly).id.trans (Breakpoint.Catalog.id_of_get? hget)
      exact .of_breakpoints rfl rfl rfl fun h => Breakpoint.Catalog.told_replace h hget hid

lemma informs_dropBreakpoints (w : World) : w.Informs (dropBreakpoints w).2 :=
  .of_breakpoints rfl rfl rfl fun _ => Breakpoint.Catalog.told_clear

end Breakpoints

/-! ## Commands on launch configurations -/

section Launches

open Editing

lemma within_createLaunch (n : NewLaunch) : Attempt.Within Informs (createLaunch n) := by
  refine within_onLaunches .refl ?_
  intro w l c hcreate
  have htold := fun h => Launch.Catalog.told_createIn (c := w.debugger.launches) h hcreate
  split
  · exact .of_launch rfl rfl rfl htold
  · exact .of_launch rfl rfl rfl htold

lemma within_cloneLaunch (id : Nat) : Attempt.Within Informs (cloneLaunch id) := by
  refine within_onLaunches .refl ?_
  intro w l c hclone
  obtain ⟨⟨copy, d⟩, hcopy, hrest⟩ := Breakpoint.ok_of_bind_eq_ok hclone
  obtain ⟨rfl, rfl⟩ := Prod.mk.inj (Except.ok.inj hrest)
  refine .of_launch rfl rfl rfl fun h => ?_
  obtain ⟨now, hget, htold⟩ := Launch.Catalog.told_clone h hcopy
  rw [hget]
  exact htold

lemma within_editLaunch (id : Nat) (e : LaunchEdit) : Attempt.Within Informs (editLaunch id e) := by
  have hmild := Launch.mild_apply e
  refine within_onLaunches .refl ?_
  intro w l c hedit
  have htold := fun h => Launch.Catalog.told_edit (c := w.debugger.launches) h hmild.id hmild.saved hedit
  -- of a configuration that is saved the working copy alone changes, and that is not shown
  show Informs w (if ((c.get? id).map (·.saved)).getD false then _ else _)
  split
  · next hsaved => exact .of_untold rfl rfl rfl fun h => (if_pos hsaved).mp (htold h)
  · next hsaved => exact .of_launch rfl rfl rfl fun h => (if_neg hsaved).mp (htold h)

lemma within_commitLaunch (id : Nat) : Attempt.Within Informs (commitLaunch id) := by
  refine .act ?_
  intro w
  split
  · exact .refl w
  · next committed c hcommit =>
    have htold := fun h => Launch.Catalog.told_commit (c := w.debugger.launches) h hcommit
    cases committed with
    | false => exact .of_untold rfl rfl rfl htold
    | true =>
      refine .of_launch rfl rfl rfl fun h => ?_
      obtain ⟨now, hget, htold⟩ := htold h
      rw [hget]
      exact htold

lemma within_saveLaunch (id : Nat) : Attempt.Within Informs (saveLaunch id) := by
  refine within_onLaunches .refl ?_
  intro w l c hsave
  obtain ⟨d, hsaving, hrest⟩ := Breakpoint.ok_of_bind_eq_ok hsave
  obtain ⟨rfl, rfl⟩ := Prod.mk.inj (Except.ok.inj hrest)
  refine .of_launch rfl rfl rfl fun h => ?_
  obtain ⟨now, hget, htold⟩ := Launch.Catalog.told_save h hsaving
  rw [hget]
  exact htold

lemma within_deleteLaunch (id : Nat) : Attempt.Within Informs (deleteLaunch id) := by
  refine .act ?_
  intro w
  have htold := fun h => Launch.Catalog.told_delete (c := w.debugger.launches) h id
  split
  · next e c hfault =>
    rw [hfault] at htold
    exact .of_untold rfl rfl rfl htold
  · next l c hdone =>
    rw [hdone] at htold
    exact .of_launch rfl rfl rfl htold

end Launches

end Board

end Switchboard
