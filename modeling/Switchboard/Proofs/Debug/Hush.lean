import Switchboard.Proofs.Channel.Hush
import Switchboard.Proofs.Debug.Grounding

/-!
# Work of the debugger that takes no event away

* `World.Hushed`: on no channel an event is passed on or taken up;
* `Session.within_hushed_finishConfiguration`, `shutdown`: so it is with the calls of a session;
* `Running.within_hushed_handleEvent`, `within_hushed_sessionClosed`: and with all that an event loop does about an
  event that it has taken up, and at the end.
-/

namespace Switchboard

open Debug

/-- On no channel of the world an event is passed on or taken up. -/
def World.Hushed (w w' : World) : Prop := w.net.Hushed w'.net

namespace World.Hushed

variable {w w' : World}

lemma refl (w : World) : World.Hushed w w := Network.Hushed.refl w.net

lemma of_net_eq (h : w'.net = w.net) : World.Hushed w w' := by
  rw [World.Hushed, h]
  exact .refl w.net

lemma onNet {α : Type} {t : Task Wait Network α} (ht : t.Within Network.Hushed) :
    (World.onNet t).Within World.Hushed := by
  have hput : ∀ (w : World) (n : Network), w.net.Hushed n → World.Hushed w { w with net := n } := fun _ _ h => h
  exact .zoom hput ht

lemma call {ε α : Type} {a : Attempt Wait Network ε α} (ha : Attempt.Within Network.Hushed a) :
    Attempt.Within World.Hushed (World.call a) := onNet ha

end World.Hushed

/-! ## Calls of sessions -/

namespace Debug.Session

variable (s : Session)

lemma within_hushed_request (command : String) (arguments : Json) :
    Attempt.Within Network.Hushed (s.request command arguments) :=
  .mapError (Network.within_hushed_requestUntil command arguments none) _

lemma within_hushed_requestAs {α : Type} (shape : Json.Shape α) (command : String) (arguments : Json) :
    Attempt.Within Network.Hushed (s.requestAs shape command arguments) := by
  refine .bind (s.within_hushed_request command arguments) ?_
  intro body
  split
  · exact .pure _
  · exact .throw _

lemma within_hushed_finishConfiguration : Attempt.Within Network.Hushed s.finishConfiguration := by
  refine .bind (.ofTask (.view .refl)) ?_
  intro f
  dsimp only
  split
  case' isTrue => refine .bind (.ofTask (s.within_hushed_request _ _)) ?_
  case' isFalse => refine .bind (.pure _) ?_
  -- the session is ready whatever came of the request
  all_goals
    intro outcome
    refine .bind (.ofTask (.modify (.update fun ch => .setPhase ch .ready))) ?_
    intro _
    cases outcome with
    | ok _ => exact .pure ()
    | error e => exact .throw e

lemma within_hushed_shutdown : s.shutdown.Within Network.Hushed := by
  refine .andThen (.view (f := id) .refl) ?_
  intro n
  dsimp only
  split
  · refine .andThen (Network.within_hushed_requestUntil _ _ _) ?_
    intro _
    exact Network.within_hushed_shutdown
  · exact Network.within_hushed_shutdown

end Debug.Session

/-! ## Events and the end of a session -/

namespace Debug.Running

open World (Hushed)

lemma within_hushed_fileWith (x : SessionId) (path : Path) : (Sync.fileWith x path).Within Hushed := by
  refine .andThen (.modify fun w => .of_net_eq (w.net_relocate path)) ?_
  intro _
  refine .andThen (.view (f := id) .refl) ?_
  intro w
  refine .andThen (Hushed.call (Session.within_hushed_requestAs _ _ _ _)) ?_
  intro outcome
  cases outcome with
  | ok body => exact .modify fun w => .of_net_eq rfl
  | error e => exact trivial

lemma within_hushed_configure (x : SessionId) : (configure x).Within Hushed := by
  have hexceptions : (Sync.exceptionsWith x).Within Hushed := by
    refine .andThen (.view (f := id) .refl) ?_
    intro w
    exact .andThen (Hushed.call (Session.within_hushed_request _ _ _)) fun _ => trivial
  have heverything : (Sync.everything x).Within Hushed := by
    refine .andThen (.view .refl) ?_
    intro files
    exact .andThen (.forEach (within_hushed_fileWith x) files) fun _ => hexceptions
  refine .andThen heverything ?_
  intro _
  refine .andThen (.view .refl) ?_
  intro session
  exact .andThen (Hushed.call session.within_hushed_finishConfiguration) fun _ => trivial

lemma within_hushed_close (x : SessionId) : (close x).Within Hushed := by
  refine .andThen (.view .refl) ?_
  intro session
  exact Hushed.onNet session.within_hushed_shutdown

lemma within_hushed_retire (x : SessionId) : (retire x).Within Hushed := by
  refine .andThen (t := Task.await _) trivial ?_
  intro _
  exact .andThen (.modify fun w => .of_net_eq rfl) fun _ => within_hushed_close x

/-- To handle an event takes no other event away. -/
theorem within_hushed_handleEvent (x : SessionId) (e : Channel.Event) : (handleEvent x e).Within Hushed := by
  unfold handleEvent
  split
  · exact within_hushed_configure x
  · refine .andThen (.act fun w => .of_net_eq (w.net_applyDebugEvent x e)) ?_
    intro effect
    split
    · exact .modify fun w => .of_net_eq rfl
    · exact within_hushed_retire x
    · exact trivial

/-- Neither does the end of a session. -/
theorem within_hushed_sessionClosed (x : SessionId) : (sessionClosed x).Within Hushed := by
  have hforgets : ((do
      Task.await .table
      Task.modify fun w => { w with debugger := w.debugger.forget x }) : Task Wait World Unit).Within Hushed :=
    .andThen (t := Task.await _) trivial fun _ => .modify fun w => .of_net_eq rfl
  refine .andThen (.view .refl) ?_
  intro live
  cases live with
  | none => exact hforgets
  | some t => exact .andThen (.modify fun w => .of_net_eq rfl) fun _ => hforgets

end Debug.Running

end Switchboard
