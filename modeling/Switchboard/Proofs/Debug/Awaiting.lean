import Switchboard.Debug.Running
import Switchboard.Proofs.Channel.Awaiting

/-!
# Work on a session whose channel closes

* `Session.ends_request`, `ends_finishConfiguration`, `ends_shutdown`: the calls of such a session come to their ends;
* `Running.Leaving.ends_handleEvent`, `ends_sessionClosed`: and so does all that an event loop does about an event
  that it has taken up, and at the end.
-/

namespace Switchboard.Debug

/-! ## Calls of sessions -/

namespace Session

variable {v : Viewpoint Wait Network} {s : Session}

lemma ends_request (h : Network.Leaving v s.channel) (command : String) (arguments : Json) (n : Nat) :
    (s.request command arguments).Ends v n := .mapError (h.ends_request command arguments none n) _

lemma ends_requestAs (h : Network.Leaving v s.channel) {α : Type} (shape : Json.Shape α) (command : String)
    (arguments : Json) (n : Nat) : (s.requestAs shape command arguments).Ends v n := by
  refine .bind (ends_request h command arguments n) fun m body _ => ?_
  split
  · exact .pure
  · exact .throw

lemma ends_finishConfiguration (h : Network.Leaving v s.channel) (n : Nat) : s.finishConfiguration.Ends v n := by
  refine .bind (.ofTask .look) fun m f _ => ?_
  dsimp only
  split
  case' isTrue => refine .bind (.ofTask (ends_request h _ _ m)) fun k outcome _ => ?_
  case' isFalse => refine .bind .pure fun k outcome _ => ?_
  -- whatever came of the request, nothing more is waited for
  all_goals
    refine .bind (.ofTask .modify) fun _ _ _ => ?_
    cases outcome with
    | ok _ => exact .pure
    | error e => exact .throw

lemma ends_shutdown (h : Network.Leaving v s.channel) (n : Nat) : s.shutdown.Ends v n := by
  refine .view (g := id) fun m _ => ?_
  dsimp only
  split
  · exact .andThen (h.ends_request _ _ _ _) fun k _ _ => h.ends_shutdown k
  · exact h.ends_shutdown _

end Session

/-! ## Events and the end of a session -/

namespace Running

/-- The run of somebody who works on a session whose channel closes. -/
structure Leaving (v : Viewpoint Wait World) (x : SessionId) (c : ChannelId) : Prop where
  holds : v.holds = World.holds
  net : Network.Leaving (v.part Wait.holds (·.net)) c
  session : ∀ n, ((v.state n).debugger.session x).channel = c

namespace Leaving

variable {v : Viewpoint Wait World} {x : SessionId} {c : ChannelId} (h : Leaving v x c)
include h

lemma closing (n : Nat) : Network.Leaving (v.part Wait.holds (·.net)) ((v.state n).debugger.session x).channel := by
  rw [h.session n]
  exact h.net

lemma onNet {α : Type} {t : Task Wait Network α} {n : Nat} (ht : t.Ends (v.part Wait.holds (·.net)) n) :
    (World.onNet t).Ends v n := by
  refine .zoom (fun _ _ => rfl) ?_ ht
  intro wait w
  rw [h.holds]
  rfl

lemma table (n : Nat) : (Task.await Wait.table : Task Wait World Unit).Ends v n := by
  refine .await (Viewpoint.comes_of_always ⟨0, fun m _ => ?_⟩ n)
  rw [h.holds]
  rfl

lemma ends_fileWith (path : Path) (n : Nat) : (Sync.fileWith x path).Ends v n := by
  refine .andThen .modify fun m _ _ => .view (g := id) fun k _ => ?_
  refine .andThen (h.onNet (Session.ends_requestAs (h.closing k) _ _ _ _)) fun i outcome _ => ?_
  cases outcome with
  | ok body => exact .modify
  | error e => trivial

lemma ends_everything (n : Nat) : (Sync.everything x).Ends v n := by
  refine .view fun m _ => .andThen (.forEach (fun path k _ => h.ends_fileWith path k) _) fun k _ _ => ?_
  refine .view (g := id) fun i _ => ?_
  exact .andThen (h.onNet (Session.ends_request (h.closing i) _ _ _)) fun _ _ _ => trivial

lemma ends_configure (n : Nat) : (configure x).Ends v n := by
  refine .andThen (h.ends_everything n) fun m _ _ => .view fun k _ => ?_
  exact .andThen (h.onNet (Session.ends_finishConfiguration (h.closing k) _)) fun _ _ _ => trivial

lemma ends_close (n : Nat) : (close x).Ends v n :=
  .view fun m _ => h.onNet (Session.ends_shutdown (h.closing m) _)

lemma ends_retire (n : Nat) : (retire x).Ends v n :=
  .andThen (h.table n) fun _ _ _ => .andThen .modify fun k _ _ => h.ends_close k

/-- To handle an event takes its time, but not for ever. -/
theorem ends_handleEvent (e : Channel.Event) (n : Nat) : (handleEvent x e).Ends v n := by
  unfold handleEvent
  split
  · exact h.ends_configure n
  · refine .andThen .act fun m effect _ => ?_
    split
    · exact .modify
    · exact h.ends_retire m
    · trivial

/-- So does the end of a session. -/
theorem ends_sessionClosed (n : Nat) : (sessionClosed x).Ends v n := by
  have hforgets : ∀ m, ((do
      Task.await .table
      Task.modify fun w => { w with debugger := w.debugger.forget x }) : Task Wait World Unit).Ends v m :=
    fun m => .andThen (h.table m) fun _ _ _ => .modify
  refine .view fun m _ => ?_
  cases (v.state m).debugger.liveTarget? x with
  | none => exact hforgets _
  | some t => exact .andThen .modify fun k _ _ => hforgets k

end Leaving

end Running

end Switchboard.Debug
