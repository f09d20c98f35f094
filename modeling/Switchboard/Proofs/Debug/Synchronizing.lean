import Switchboard.Debug.Editing
import Switchboard.Proofs.Channel.Steady
import Switchboard.Proofs.Debug.Touches

/-!
# Commands on breakpoints, access by access

To add, edit and remove breakpoints is one access that changes them, and after that the same for all: adapters are sent
what they have to know, and what they answer is recorded.

* `Session.within_civil_request`, `within_civil_shutdown` and so on: what the calls of a session do to phases, all but the
  first half of the handshake, which does not open a channel again either (`within_steady_introduce`);
* `Sync.Allowed`: a relation allows each kind of access by which adapters are sent breakpoints;
* `Allowed.file`, `everything`, `addBreakpoint` and so on: what such a relation then allows.
-/

namespace Switchboard

open Debug

/-! ## Calls of sessions -/

namespace Debug.Session

open Network (Civil Steady)

variable (s : Session) {wanted : List String}

lemma within_civil_request {command : String} (hcommand : command ∉ wanted) (arguments : Json) :
    Attempt.Within (Civil wanted) (s.request command arguments) :=
  .mapError (Network.within_civil_requestUntil hcommand arguments none) _

lemma within_civil_requestAs {α : Type} (shape : Json.Shape α) {command : String} (hcommand : command ∉ wanted)
    (arguments : Json) : Attempt.Within (Civil wanted) (s.requestAs shape command arguments) := by
  refine .bind (s.within_civil_request hcommand arguments) ?_
  intro body
  split
  · exact .pure _
  · exact .throw _

/-- A handshake opens no channel and closes none. -/
lemma within_steady_introduce : Attempt.Within Steady s.introduce := by
  refine .mapError (Network.within_steady_initializeWith ?_) _
  refine .bind (Network.within_steady_requestUntil _ _ none) ?_
  intro body
  exact .ofTask (.modify (.update fun _ => Iff.rfl))

/-- A session becomes ready whatever the adapter answered. -/
lemma within_civil_ready (outcome : Except Fault Json) :
    Attempt.Within (Civil wanted) (do
      Attempt.ofTask (Task.modify fun n => n.update s.channel (·.setPhase .ready))
      match outcome with
      | .ok _ => return ()
      | .error e => throw e : Call Unit) := by
  refine .bind (.ofTask (.modify Network.civil_setReady)) ?_
  intro _
  cases outcome with
  | ok _ => exact .pure ()
  | error e => exact .throw e

lemma within_civil_finishConfiguration (hdone : "configurationDone" ∉ wanted) :
    Attempt.Within (Civil wanted) s.finishConfiguration := by
  refine .bind (.ofTask (.view (.refl wanted))) ?_
  intro f
  dsimp only
  split
  · exact .bind (.ofTask (s.within_civil_request hdone _)) s.within_civil_ready
  · exact .bind (.pure _) s.within_civil_ready

lemma within_civil_shutdown (hdisconnect : "disconnect" ∉ wanted) : s.shutdown.Within (Civil wanted) := by
  refine .andThen (.view (f := id) (.refl wanted)) ?_
  intro n
  dsimp only
  split
  · refine .andThen (Network.within_civil_requestUntil hdisconnect _ _) ?_
    intro _
    exact Network.within_civil_shutdown wanted
  · exact Network.within_civil_shutdown wanted

end Debug.Session

/-! ## What adapters are sent -/

namespace Debug.Sync

/-- What adapters are sent besides launches, and what is made of their answers, is allowed. -/
structure Allowed (R : World → World → Prop) : Prop where
  refl : ∀ w, R w w
  net : ∀ (w : World) (n : Network), Network.Civil Target.launchings w.net n → R w { w with net := n }
  relocate : ∀ (w : World) (path : Path), R w (w.relocate path)
  verify : ∀ (w : World) (ids : List Nat) (responses : List BreakpointResponse), R w (w.verify ids responses)

namespace Allowed

variable {R : World → World → Prop}

lemma onNet (h : Allowed R) {α : Type} {t : Task Wait Network α}
    (ht : t.Within (Network.Civil Target.launchings)) : (World.onNet t).Within R :=
  .zoom h.net ht

lemma call (h : Allowed R) {ε α : Type} {a : Attempt Wait Network ε α}
    (ha : Attempt.Within (Network.Civil Target.launchings) a) : Attempt.Within R (World.call a) :=
  h.onNet ha

lemma fileWith (h : Allowed R) (s : SessionId) (path : Path) : (Sync.fileWith s path).Within R := by
  refine .andThen (.modify fun w => h.relocate w path) ?_
  intro _
  refine .andThen (.view (f := id) h.refl) ?_
  intro w
  refine .andThen (h.call (Session.within_civil_requestAs _ _ (by decide) _)) ?_
  intro outcome
  cases outcome with
  | ok body => exact .modify fun w => h.verify w _ _
  | error e => exact trivial

lemma exceptionsWith (h : Allowed R) (s : SessionId) : (Sync.exceptionsWith s).Within R := by
  refine .andThen (.view (f := id) h.refl) ?_
  intro w
  exact .andThen (h.call (Session.within_civil_request _ (by decide) _)) fun _ => trivial

lemma forSessions (h : Allowed R) {language : World → Option String} {work : SessionId → Task Wait World Unit}
    (hwork : ∀ s, (work s).Within R) : (Sync.forSessions language work).Within R := by
  have hready : ∀ s, (ifReady work s).Within R := by
    intro s
    refine .andThen (.view h.refl) ?_
    intro ready
    split
    · exact hwork s
    · exact trivial
  refine .andThen (t := Task.await _) trivial ?_
  intro _
  refine .andThen (.view h.refl) ?_
  intro sessions
  exact .forEach hready sessions

lemma file (h : Allowed R) (project : String) (path : Path) : (Sync.file project path).Within R :=
  h.forSessions fun s => h.fileWith s path

lemma exceptions (h : Allowed R) (project : Option String) : (Sync.exceptions project).Within R :=
  h.forSessions h.exceptionsWith

lemma everything (h : Allowed R) (s : SessionId) : (Sync.everything s).Within R := by
  refine .andThen (.view h.refl) ?_
  intro files
  exact .andThen (.forEach (h.fileWith s) files) fun _ => h.exceptionsWith s

/-! ## Commands -/

open Editing

lemma addBreakpoint (h : Allowed R) {project : String} {path : Path} {line : Nat} {column : Option Nat}
    (hplace : ∀ w, R w (placeBreakpoint project path line column w).2) :
    Attempt.Within R (Editing.addBreakpoint project path line column) := by
  unfold Editing.addBreakpoint
  split
  · exact .throw _
  · refine .bind (.ofTask (.act hplace)) ?_
    intro added
    cases added with
    | none => exact .pure none
    | some id => exact .bind (.ofTask (h.file project path)) fun _ => .pure (some id)

lemma setException (h : Allowed R) {caught uncaught : Bool} (project : Option String)
    (hplace : ∀ w, R w (placeException caught uncaught w).2) :
    Attempt.Within R (Editing.setException caught uncaught project) := by
  refine .bind (.ofTask (.act hplace)) ?_
  intro id
  exact .bind (.ofTask (h.exceptions project)) fun _ => .pure id

lemma editBreakpoint (h : Allowed R) {id : Nat} {edits : List (String × String)}
    (hedit : ∀ w, R w (applyEdits id edits w).2) : Attempt.Within R (Editing.editBreakpoint id edits) := by
  refine .bind (.act hedit) ?_
  intro b
  split
  · exact .ofTask (h.file _ _)
  · exact .ofTask (h.exceptions none)

lemma clearBreakpoints (h : Allowed R) (hdrop : ∀ w, R w (dropBreakpoints w).2) :
    Attempt.Within R Editing.clearBreakpoints := by
  have hfile : ∀ f : String × Path, (Sync.file f.1 f.2).Within R := fun f => h.file f.1 f.2
  refine .bind (.ofTask (.act hdrop)) ?_
  intro removed
  refine .bind (.ofTask (.forEach hfile _)) ?_
  intro _
  dsimp only
  split
  · exact .bind (.ofTask (h.exceptions none)) fun _ => .pure removed.length
  · exact .pure removed.length

end Allowed

end Debug.Sync

/-- Work on launch configurations in one step. -/
lemma Debug.Editing.within_onLaunches {R : World → World → Prop} (hrefl : ∀ w, R w w)
    {f : Launch.Catalog → Except Fault (Launch × Launch.Catalog)} {finish : Launch → World → World}
    (h : ∀ w l c, f w.debugger.launches = .ok (l, c) → R w (finish l (setLaunches w c))) :
    Attempt.Within R (onLaunches f finish) := by
  refine .act ?_
  intro w
  split
  · next hok => exact h w _ _ hok
  · exact hrefl w

end Switchboard
