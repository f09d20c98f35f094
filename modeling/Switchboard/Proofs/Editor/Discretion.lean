import Switchboard.Editor.Service
import Switchboard.Proofs.Analysis.Custody
import Switchboard.Proofs.Concurrency.Carrying
import Switchboard.Proofs.Debug.Bustle

/-!
# Who replies to an editor

* `World.replies`: the replies among all that an editor was told;
* `Network.Endures`: no channel goes, and none that is closed opens;
* `World.Onward`, `Discreet`: channels go on, debug sessions keep theirs, and nothing is replied;
* `Debug.Bustle.allowed_discreet`, `Analysis.Command.within_discreet_perform`: so it is with all that is done for commands;
* `Json.IsAnswer`: a value or an error, and not both;
* `Commands.Proper`: commands reply nothing themselves, and what they end with is an answer, unless they break down;
* `Commands.proper_all`: so do the commands of the debugger and of analysis.
-/

namespace Switchboard

/-! ## Discreet accesses -/

/-- The reply that a message is. -/
def Message.reply? : Message → Option Json
  | .reply v => some v
  | .debug _ | .diagnostics _ => none

namespace Network

/-- No channel goes, and none that is closed opens. -/
structure Endures (n n' : Network) : Prop where
  length : n.channels.length ≤ n'.channels.length
  ages : Ages n n'

namespace Endures

variable {n n' n'' : Network}

lemma refl (n : Network) : Endures n n := ⟨Nat.le_refl _, .refl n⟩

lemma trans (h : Endures n n') (h' : Endures n' n'') : Endures n n'' :=
  ⟨h.length.trans h'.length, fun c hc => h'.ages c (h.ages c hc)⟩

lemma of_steady (h : Steady n n') : Endures n n' := ⟨h.length.ge, h.ages⟩

lemma of_said {c : ChannelId} {names : List String} (h : Says c names n n') : Endures n n' := ⟨h.present.ge, h.ages⟩

lemma of_civil {wanted : List String} (h : Civil wanted n n') : Endures n n' :=
  ⟨le_of_forall_lt fun c hc => (h.mild c).present hc, h.ages⟩

/-- A channel changes, and does not open. -/
lemma update {c : ChannelId} {f : Channel → Channel} (hf : ∀ ch : Channel, ch.phase = .closed → (f ch).phase = .closed)
    (n : Network) : Endures n (n.update c f) := ⟨(List.length_modify ..).ge, .update hf⟩

/-- A channel is replaced by one in the same phase. -/
lemma put {c : ChannelId} {n : Network} {ch : Channel} (hphase : ch.phase = (n.channel c).phase) :
    Endures n (n.update c fun _ => ch) := by
  refine ⟨(List.length_modify ..).ge, fun d hd => ?_⟩
  rcases channel_update_cases n c (fun _ => ch) d with hsame | ⟨rfl, hnew⟩
  · exact (congrArg Channel.phase hsame).trans hd
  · exact (congrArg Channel.phase hnew).trans (hphase.trans hd)

lemma connect (n : Network) (ch : Channel) : Endures n (n.connect ch).2 :=
  ⟨(List.prefix_append ..).length_le, World.ages_connect n ch⟩

end Endures

end Network

namespace World

variable {w w' w'' : World}

/-- The replies among what an editor was told, in order. -/
def replies (w : World) : List Json := w.told.filterMap Message.reply?

lemma replies_append_notes (told : List Message) (notes : List Debug.Note) :
    (told ++ notes.map Message.debug).filterMap Message.reply? = told.filterMap Message.reply? := by
  have hnone : (notes.map Message.debug).filterMap Message.reply? = [] := by
    rw [List.filterMap_eq_nil_iff]
    intro m hm
    obtain ⟨note, -, rfl⟩ := List.mem_map.mp hm
    rfl
  rw [List.filterMap_append, hnone, List.append_nil]

lemma replies_tell_reply (w : World) (v : Json) : (w.tell (.reply v)).replies = w.replies ++ [v] := by
  rw [replies, tell, List.filterMap_append]
  rfl

/-- Channels go on, and debug sessions keep theirs. -/
structure Onward (w w' : World) : Prop where
  endures : w.net.Endures w'.net
  stays : w.Stays w'

/-- Nothing is replied, either. -/
structure Discreet (w w' : World) : Prop extends Onward w w' where
  replies : w'.replies = w.replies

namespace Onward

lemma refl (w : World) : Onward w w := ⟨.refl _, stays_of_eq rfl⟩

lemma trans (h : Onward w w') (h' : Onward w' w'') : Onward w w'' :=
  ⟨h.endures.trans h'.endures, h.stays.trans h'.stays⟩

lemma tell (w : World) (m : Message) : Onward w (w.tell m) := ⟨.refl _, stays_of_eq rfl⟩

end Onward

namespace Discreet

lemma refl (w : World) : Discreet w w := ⟨.refl w, rfl⟩

lemma trans (h : Discreet w w') (h' : Discreet w' w'') : Discreet w w'' :=
  ⟨h.toOnward.trans h'.toOnward, h'.replies.trans h.replies⟩

/-- Channels change, and nothing is told. -/
lemma of_net {n : Network} (h : w.net.Endures n) : Discreet w { w with net := n } := ⟨⟨h, stays_of_eq rfl⟩, rfl⟩

/-- No channel changes, and perhaps the debugger tells something. -/
lemma of_notes {notes : List Debug.Note} (hnet : w'.net = w.net) (hsessions : w'.debugger.sessions = w.debugger.sessions)
    (htold : w'.told = w.told ++ notes.map Message.debug) : Discreet w w' where
  endures := by
    rw [hnet]
    exact .refl _
  stays := stays_of_eq hsessions
  replies := by rw [World.replies, htold, replies_append_notes, World.replies]

/-- No channel changes, and nothing is told. -/
lemma of_eq (hnet : w'.net = w.net) (hsessions : w'.debugger.sessions = w.debugger.sessions) (htold : w'.told = w.told) :
    Discreet w w' :=
  have hnotes : w'.told = w.told ++ ([] : List Debug.Note).map Message.debug := htold.trans (List.append_nil _).symm
  of_notes hnet hsessions hnotes

end Discreet

lemma discreet_relocate (w : World) (path : Path) : Discreet w (w.relocate path) := by
  have hsessions : (w.debugger.relocate w.disk path).2.sessions = w.debugger.sessions := by
    unfold Debug.Debugger.relocate
    dsimp only
    split <;> rfl
  unfold relocate
  dsimp only
  split
  · exact .of_eq rfl hsessions rfl
  · exact .of_notes rfl hsessions rfl

lemma discreet_touches {id : Nat} {names : List String} (h : Debug.Target.Touches id names w w') : Discreet w w' := by
  cases h with
  | speech c n said => exact .of_net (.of_said said)
  | deed deed fresh => exact .of_notes rfl rfl rfl

lemma discreet_event (w : World) (s : Debug.SessionId) (e : Channel.Event) : Discreet w (w.applyDebugEvent s e).2 := by
  unfold applyDebugEvent
  split
  · exact .refl w
  · exact .of_notes rfl rfl rfl

lemma discreet_claim (w : World) (launch : Debug.Launch) (root : Option Path) : Discreet w (w.claim launch root).2 := by
  have hreserve : ∀ (v : World) (x : Debug.SessionId), Discreet v (v.reserve launch x).2 := fun v x => .of_notes rfl rfl rfl
  have hstays := (w.informs_claim launch root).stays
  have hclaimed := w.claimed launch root
  generalize w.claim launch root = r at hclaimed hstays
  cases hclaimed with
  | refused e => exact .refl w
  | joins x entry isOpen free => exact hreserve w x
  | starts w' started =>
    have hreplies : w'.replies = w.replies := congrArg (List.filterMap Message.reply?) started.told
    exact ⟨⟨started.connects.elim fun ch h => h.2.2 ▸ .connect w.net ch, hstays⟩, (hreserve w' _).replies.trans hreplies⟩

end World

open World (Discreet)

/-! ## Commands of the debugger -/

namespace Debug.Bustle

open Editing

lemma discreet_of_launches {f : Launch.Catalog → Except Fault (Launch × Launch.Catalog)} {finish : Launch → World → World}
    (hfinish : ∀ w l c, Discreet w (finish l (setLaunches w c))) : Attempt.Within Discreet (onLaunches f finish) :=
  within_onLaunches .refl fun w l c _ => hfinish w l c

/-- All that the debugger does for requests is discreet, but for runs and the insertion of sessions. -/
theorem allowed_discreet : Allowed Discreet where
  refl := .refl
  net := fun _ _ h => .of_net (.of_civil h)
  relocate := World.discreet_relocate
  verify := fun _ _ _ => .of_notes rfl rfl rfl
  touches := fun _ => World.discreet_touches
  ends := fun _ _ => .of_notes rfl rfl rfl
  forget := fun _ _ => .of_eq rfl rfl rfl
  clear := fun _ => .of_eq rfl rfl rfl
  event := World.discreet_event
  putOff := fun _ _ _ => .of_eq rfl rfl rfl
  placeBreakpoint := by
    intro project path line column w
    unfold placeBreakpoint
    dsimp only
    split
    · exact .refl w
    · exact .of_notes rfl rfl rfl
  placeException := fun _ _ _ => .of_notes rfl rfl rfl
  applyEdits := by
    intro id edits w
    unfold applyEdits
    dsimp only
    split
    · exact .refl w
    · split
      · exact .refl w
      · exact .of_notes rfl rfl rfl
      · exact .of_notes rfl rfl rfl
  dropBreakpoints := fun _ => .of_notes rfl rfl rfl
  createLaunch := fun _ => discreet_of_launches fun _ _ _ => by
    split
    · exact .of_notes rfl rfl rfl
    · exact .of_notes rfl rfl rfl
  cloneLaunch := fun _ => discreet_of_launches fun _ _ _ => .of_notes rfl rfl rfl
  editLaunch := fun _ _ => discreet_of_launches fun _ _ _ => by
    split
    · exact .of_eq rfl rfl rfl
    · exact .of_notes rfl rfl rfl
  commitLaunch := by
    intro id
    refine .act fun w => ?_
    split
    · exact .refl w
    · dsimp only
      split
      · exact .of_notes rfl rfl rfl
      · exact .of_eq rfl rfl rfl
  saveLaunch := fun _ => discreet_of_launches fun _ _ _ => .of_notes rfl rfl rfl
  deleteLaunch := by
    intro id
    refine .act fun w => ?_
    split
    · exact .of_eq rfl rfl rfl
    · exact .of_notes rfl rfl rfl

/-- The same of what a run does. -/
lemma pursuits_discreet : Running.AllowedPursuits Discreet where
  toAllowedCalls := AllowedCommands.toAllowedCalls (Allowed.toAllowedCommands allowed_discreet)
  launches := World.discreet_touches
  introduces := fun _ _ h => .of_net (.of_steady h)

lemma within_discreet_run (id : Nat) : Attempt.Within Discreet (Running.run id) := by
  refine .bind (.ofTask (.view (f := fun w : World => w) .refl)) ?_
  intro w
  split
  · exact .throw _
  · next launch _ =>
    refine .bind (.ofTask (t := Task.await _) trivial) ?_
    intro _
    refine .bind (.act fun w => w.discreet_claim launch _) ?_
    intro target
    exact Running.AllowedPursuits.pursuing pursuits_discreet _ target

/-- Every access of a command is discreet. -/
theorem within_discreet_command (c : Command) : Attempt.Within Discreet c.perform :=
  AllowedCommands.command (Allowed.toAllowedCommands allowed_discreet) c fun launch _ => within_discreet_run launch

end Debug.Bustle

/-! ## Commands of analysis -/

namespace Analysis

open Network (Endures)

namespace Session

variable (s : Session)

lemma within_endures_introduce : Attempt.Within Endures s.introduce :=
  Task.Within.mono (fun _ _ => .of_steady) s.within_steady_introduce

lemma within_endures_shutdown : s.shutdown.Within Endures := by
  have hclose : (Network.shutdown s.channel).Within Endures :=
    Task.Within.mono (fun _ _ => .of_civil) (Network.within_civil_shutdown [])
  refine .andThen (.view (f := fun n : Network => n) .refl) ?_
  intro n
  split
  · refine .andThen (Task.Within.mono (fun _ _ => .of_steady) (Network.within_steady_requestUntil _ _ _)) ?_
    intro _
    exact .andThen (Task.Within.mono (fun _ _ => .of_steady) (Network.within_steady_notify _ _)) fun _ => hclose
  · exact hclose

lemma within_endures_request (method : String) (params : Json) : Attempt.Within Endures (s.request method params) :=
  .bind s.within_endures_introduce fun _ =>
    .mapError (Task.Within.mono (fun _ _ => .of_steady) (Network.within_steady_requestUntil _ _ _)) _

lemma within_endures_notify (method : String) (params : Json) : Attempt.Within Endures (s.notify method params) :=
  .bind s.within_endures_introduce fun _ =>
    .mapError (Task.Within.mono (fun _ _ => .of_steady) (Network.within_steady_notify _ _)) _

end Session

lemma within_discreet_call {ε α : Type} {work : Attempt Wait Network ε α} (h : Attempt.Within Endures work) :
    Attempt.Within Discreet (World.call work) := .zoom (fun _ _ => .of_net) h

lemma within_discreet_onNet {α : Type} {work : Task Wait Network α} (h : work.Within Endures) :
    (World.onNet work).Within Discreet := .zoom (fun _ _ => .of_net) h

lemma discreet_claimServer (server : Server) (features : Json) (w : World) :
    Discreet w (w.claimServer server features).2 := by
  unfold World.claimServer
  split
  · exact .refl w
  · unfold World.startServer World.spawn
    split
    · exact .refl w
    · exact ⟨⟨.connect w.net _, World.stays_of_eq rfl⟩, rfl⟩

namespace Running

lemma within_discreet_start (server : Server) (features : Json) : Attempt.Within Discreet (start server features) := by
  refine .bind (.act (discreet_claimServer server features)) ?_
  intro k
  refine .bind (.ofTask (.view .refl)) ?_
  intro s
  exact .bind (within_discreet_call s.within_endures_introduce) fun _ => .pure k

lemma within_discreet_require (language : String) (workspace : Path) :
    Attempt.Within Discreet (require language workspace) :=
  .bind (.ofTask (.view (f := fun w : World => w) .refl)) fun _ => .ofExcept _

lemma within_discreet_stop (language : String) (workspace : Path) :
    Attempt.Within Discreet (stop language workspace) := by
  refine .bind (.act fun w => ?_) fun s => .ofTask (within_discreet_onNet s.within_endures_shutdown)
  unfold forget
  split
  · exact .of_eq rfl rfl rfl
  · exact .refl w

lemma within_discreet_stopAll : stopAll.Within Discreet :=
  .andThen (.act fun _ => .of_eq rfl rfl rfl) fun sessions =>
    .forEach (fun s => within_discreet_onNet s.within_endures_shutdown) sessions

end Running

namespace Command

lemma within_discreet_rootOf (project : String) : Attempt.Within Discreet (rootOf project) := by
  refine .bind (.ofTask (.view .refl)) ?_
  intro root
  cases root with
  | some root => exact .pure root
  | none => exact .throw _

lemma within_discreet_sessionAt (place : Place) : Attempt.Within Discreet (sessionAt place) := by
  refine .bind (within_discreet_rootOf _) ?_
  intro root
  refine .bind (.ofTask (.view .refl)) ?_
  intro settings
  exact .bind (.ofExcept _) fun server => Running.within_discreet_start server _

lemma within_discreet_openAt (place : Place) : Attempt.Within Discreet (openAt place) :=
  .bind (within_discreet_rootOf _) fun root => Running.within_discreet_require _ root

/-- Every access of a command is discreet. -/
theorem within_discreet_perform (c : Command) : Attempt.Within Discreet c.perform := by
  have hlook : ∀ {α : Type} (f : World → α), Attempt.Within Discreet (Attempt.ofTask (Task.view f) : AnalysisWork α) :=
    fun f => .ofTask (.view .refl)
  cases c with
  | start place =>
    exact .bind (within_discreet_sessionAt place) fun k => .bind (hlook _) fun _ => .pure _
  | stop place =>
    exact .bind (within_discreet_rootOf _) fun root => .bind (Running.within_discreet_stop _ root) fun _ => .pure _
  | sessions => exact .bind (hlook _) fun _ => .pure _
  | tell event document =>
    refine .bind (within_discreet_sessionAt _) fun k => .bind (hlook _) fun s => .bind (hlook _) fun uri => ?_
    refine .bind (within_discreet_call ?_) fun _ => .pure _
    cases event with
    | opened | changed | saved | closed => exact s.within_endures_notify _ _
  | request place method params =>
    exact .bind (within_discreet_sessionAt place) fun k => .bind (hlook _) fun s =>
      within_discreet_call (s.within_endures_request method params)
  | diagnostics document =>
    exact .bind (within_discreet_openAt _) fun k => .bind (hlook _) fun uri => .bind (hlook _) fun _ => .pure _
  | legend place => exact .bind (within_discreet_openAt _) fun k => .bind (hlook _) fun _ => .pure _

end Command

end Analysis

/-! ## Answers -/

namespace Editor

/-- A value or an error. -/
inductive Order.IsAnswer : Json → Prop
  | value (v : Json) : IsAnswer (.obj [("ok", v)])
  | error (e : Json) : IsAnswer (.obj [("error", e)])

/-- An answer, unless the work broke down. -/
def Order.Ending.IsProper : Ending → Prop
  | answered answer => IsAnswer answer
  | aborted _ => True

/-- The work on a command is discreet, and ends with an answer or breaks down. Nothing is held along the way. -/
def Commands.Behaves (work : Task Wait World Order.Ending) : Prop :=
  work.Carries (fun _ w _ w' => Discreet w w') (fun ending _ => ending.IsProper) ()

/-- Commands reply nothing themselves and open nothing that is closed, and what they end with is an answer. They may
wait for ever, and they may break down. -/
def Commands.Proper (commands : Commands) : Prop := ∀ name arguments, Commands.Behaves (commands name arguments)

namespace Order

lemma isAnswer_failure (message : String) : IsAnswer (failure message) := .error _

lemma Ending.isAnswer_answer {ending : Ending} (h : ending.IsProper) (command : String) :
    IsAnswer (ending.answer command) := by
  cases ending with
  | answered answer => exact h
  | aborted reason => exact isAnswer_failure _

lemma reply_value (id v : Json) : reply id (.obj [("ok", v)]) = .obj [("id", id), ("ok", v)] := by
  have hbefore : "id" < "ok" := by decide
  simp only [reply, Json.set, Json.sortMembers, List.foldl_cons, List.foldl_nil, Json.insertMember, if_pos hbefore]

lemma reply_error (id e : Json) : reply id (.obj [("error", e)]) = .obj [("error", e), ("id", id)] := by
  have hbefore : ¬ "id" < "error" := by decide
  have hother : "id" ≠ "error" := by decide
  simp only [reply, Json.set, Json.sortMembers, List.foldl_cons, List.foldl_nil, Json.insertMember, if_neg hbefore,
    if_neg hother]

/-- A reply has the id of its order. -/
lemma IsAnswer.get?_id {answer : Json} (h : IsAnswer answer) (id : Json) : (reply id answer).get? "id" = some id := by
  cases h with
  | value v => simp [reply_value, Json.get?, List.lookup]
  | error e => simp [reply_error, Json.get?, List.lookup]

/-- A reply has a value or an error, and not both. -/
lemma IsAnswer.one {answer : Json} (h : IsAnswer answer) (id : Json) :
    ((reply id answer).get? "ok").isSome = !((reply id answer).get? "error").isSome := by
  cases h with
  | value v => simp [reply_value, Json.get?, List.lookup]
  | error e => simp [reply_error, Json.get?, List.lookup]

end Order

namespace Commands

/-- What is done for an answer, and what it ends with. -/
lemma behaves_answer {ε : Type} {work : Attempt Wait World ε Json} (hwork : Attempt.Within Discreet work)
    {conclude : Except ε Json → Task Wait World Json}
    (hconclude : ∀ outcome, ∃ v, conclude outcome = .done v ∧ Order.IsAnswer v) :
    Behaves (.answered <$> work.outcome.andThen conclude) := by
  have hanswer : (work.outcome.andThen conclude).Carries (fun _ w _ w' => Discreet w w') (fun v _ => Order.IsAnswer v) () := by
    refine .andThen (.of_within (W := Discreet) (fun _ _ h => h) hwork) ?_
    intro outcome _ _
    obtain ⟨v, hv, hanswer⟩ := hconclude outcome
    rw [hv]
    exact hanswer
  exact .andThen hanswer fun _ _ h => h

/-- The commands of the debugger and of analysis are proper. -/
theorem proper_all : all.Proper := by
  intro name arguments
  unfold all Order.answer
  split
  · refine behaves_answer (.bind (.ofExcept _) fun c => Debug.Bustle.within_discreet_command c) fun outcome => ?_
    cases outcome with
    | ok v => exact ⟨_, rfl, .value v⟩
    | error e => exact ⟨_, rfl, .error _⟩
  · refine behaves_answer (.bind (.ofExcept _) fun c => Analysis.Command.within_discreet_perform c) fun outcome => ?_
    cases outcome with
    | ok v => exact ⟨_, rfl, .value v⟩
    | error e => exact ⟨_, rfl, .error _⟩

end Commands

/-- To end every session is discreet. -/
lemma within_discreet_endSessions : Service.endSessions.Within Discreet :=
  .andThen Analysis.Running.within_discreet_stopAll fun _ => Debug.Bustle.allowed_discreet.shutdown

end Editor

end Switchboard
