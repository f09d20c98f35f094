import Switchboard.Proofs.Channel.Traffic
import Switchboard.Proofs.Debug.Course

/-!
# The accesses of calls on a target

* `Touches`: an access says something over a channel, or it does a deed;
* `Speaks`: a relation allows that requests of some names leave; `Speaks.requestAs`, `expandScopes` and so on;
* `within_work`: every access of a call on a target touches the world in one of these two ways;
* `atMost_launching`: a launch that has begun is asked for at most once.
-/

namespace Switchboard

namespace Debug.Target

open Course (Call Deed)

/-- An access of work on a target: at most a request of one of some names leaves over a channel, or the target is
changed by a deed. -/
inductive Touches (id : Nat) (names : List String) (w : World) : World → Prop where
  | speech (c : ChannelId) (n : Network) (said : Network.Says c names w.net n) : Touches id names w { w with net := n }
  | deed (deed : Deed) (fresh : deed = .begins → (w.target id).state = .created) :
    Touches id names w (w.changeTarget id deed.apply)

namespace Touches

variable {id : Nat} {names : List String} {w w' : World}

lemma refl (id : Nat) (names : List String) (w : World) : Touches id names w w := .speech 0 w.net (.refl 0 names w.net)

/-- Deeds say nothing to an adapter. -/
lemma exists_says (h : Touches id names w w') : ∃ c, Network.Says c names w.net w'.net := by
  cases h with
  | speech c n said => exact ⟨c, said⟩
  | deed deed fresh => exact ⟨0, .refl 0 names w.net⟩

/-- What is not among the names is not handed over. -/
lemma not_hands (h : Touches id names w w') {wanted : List String} (hwanted : ∀ name ∈ wanted, name ∉ names) :
    ¬ Network.Hands wanted w.net w'.net := by
  intro hhands
  obtain ⟨c, hspoken⟩ := h.exists_says
  obtain ⟨name, hname, hmem⟩ := hspoken.mem_of_hands hhands
  exact hwanted name hname hmem

end Touches

/-! ## Steps on a target -/

/-- At most a request of one of some names leaves over a channel, and that is allowed. -/
def Speaks (names : List String) (R : World → World → Prop) : Prop :=
  ∀ (w : World) (c : ChannelId) (n : Network), Network.Says c names w.net n → R w { w with net := n }

lemma within_sessionRequest (s : Session) (command : String) (arguments : Json) :
    Attempt.Within (Network.Says s.channel [command]) (s.request command arguments) :=
  .mapError (Network.within_requestUntil command arguments none) _

namespace Speaks

variable {names : List String} {R : World → World → Prop} {id : Nat}

lemma refl (h : Speaks names R) (w : World) : R w w := h w 0 w.net (.refl 0 names w.net)

lemma look (h : Speaks names R) {α : Type} (f : Target → α) : Attempt.Within R (Target.look id f) :=
  .ofTask (.view h.refl)

lemma demand (h : Speaks names R) {α : Type} (f : Target → Except Fault α) : Attempt.Within R (Target.demand id f) :=
  .bind (h.look f) fun e => .ofExcept e

lemma sessionOf (h : Speaks names R) : Attempt.Within R (Target.sessionOf id) := .ofTask (.view h.refl)

/-- Work on the network that says something. -/
lemma call (h : Speaks names R) {ε α : Type} {c : ChannelId} {said : List String} {work : Attempt Wait Network ε α}
    (hwork : Attempt.Within (Network.Says c said) work) (hsaid : said ⊆ names) : Attempt.Within R (World.call work) := by
  refine .zoom ?_ hwork
  intro w n hspoken
  exact h w c n (hspoken.mono hsaid)

lemma request (h : Speaks names R) {command : String} (arguments : Json) (hcommand : command ∈ names) :
    Attempt.Within R (Target.request id command arguments) := by
  refine .bind h.sessionOf ?_
  intro s
  exact h.call (within_sessionRequest s command arguments) (by simpa using hcommand)

lemma requestAs (h : Speaks names R) {α : Type} (shape : Json.Shape α) {command : String} (arguments : Json)
    (hcommand : command ∈ names) : Attempt.Within R (Target.requestAs id shape command arguments) := by
  refine .bind h.sessionOf ?_
  intro s
  have hasked : Attempt.Within (Network.Says s.channel [command]) (s.requestAs shape command arguments) := by
    refine .bind (within_sessionRequest s command arguments) ?_
    intro body
    split
    · exact .pure _
    · exact .throw _
  exact h.call hasked (by simpa using hcommand)

lemma features (h : Speaks names R) : Attempt.Within R (Target.features id) := by
  refine .bind h.sessionOf ?_
  intro s
  have hlooked : Attempt.Within (Network.Says s.channel []) s.features := .ofTask (.view (.refl s.channel []))
  exact h.call hlooked (List.nil_subset names)

lemma expandScopes (h : Speaks names R) (hvariables : "variables" ∈ names) (rules : Rules) (scopes : List Stack.Scope) :
    Attempt.Within R (Target.expandScopes id rules scopes) := by
  induction scopes with
  | nil => exact .pure _
  | cons s rest ih =>
    -- whatever the first scope gives, that of the others follows
    have hrest : ∀ own, Attempt.Within R (do return own ++ (← Target.expandScopes id rules rest)) := by
      intro own
      exact .bind ih fun more => .pure _
    rw [Target.expandScopes]
    dsimp only
    split
    · exact .bind (.pure _) hrest
    · exact .bind (.bind (h.requestAs _ _ hvariables) fun body => .pure _) hrest

end Speaks

/-- Whatever is said is a touch. -/
lemma speaks_touches (id : Nat) (names : List String) : Speaks names (Touches id names) :=
  fun _ c n said => .speech c n said

section Steps

variable {id : Nat} {names : List String}

lemma within_look {α : Type} (f : Target → α) : Attempt.Within (Touches id names) (look id f) :=
  (speaks_touches id names).look f

lemma within_demand {α : Type} (f : Target → Except Fault α) : Attempt.Within (Touches id names) (demand id f) :=
  (speaks_touches id names).demand f

lemma within_change (deed : Deed) (hdeed : deed ≠ .begins) : Attempt.Within (Touches id names) (change id deed.apply) :=
  .ofTask (.modify fun _ => .deed deed fun h => absurd h hdeed)

lemma within_sessionOf : Attempt.Within (Touches id names) (sessionOf id) := (speaks_touches id names).sessionOf

lemma within_request {command : String} (arguments : Json) (hcommand : command ∈ names) :
    Attempt.Within (Touches id names) (request id command arguments) :=
  (speaks_touches id names).request arguments hcommand

lemma within_requestAs {α : Type} (shape : Json.Shape α) {command : String} (arguments : Json)
    (hcommand : command ∈ names) : Attempt.Within (Touches id names) (requestAs id shape command arguments) :=
  (speaks_touches id names).requestAs shape arguments hcommand

lemma within_features : Attempt.Within (Touches id names) (features id) := (speaks_touches id names).features

end Steps

/-! ## Calls -/

/-- The names of the requests that are made of a running target. -/
def questions : List String :=
  ["threads", "stackTrace", "scopes", "variables", "continue", "stepIn", "next", "stepOut", "pause", "terminate",
    "disconnect", "restartFrame"]

/-- The names of the requests that launch a target. -/
def launchings : List String := Launch.Mode.byName.map (·.1)

/-- The names of the requests that a call makes. -/
def Course.Call.names : Call → List String
  | .start _ => launchings
  | _ => questions

lemma name_mem_launchings (mode : Launch.Mode) : mode.name ∈ launchings := by
  cases mode with
  | launch => exact List.mem_cons_self ..
  | attach => exact List.mem_cons_of_mem _ (List.mem_cons_self ..)

/-- A running target is not asked to be launched. -/
lemma not_mem_questions : ∀ name ∈ launchings, name ∉ questions := by decide

section Calls

variable {id : Nat}

lemma within_stack (thread : Int) : Attempt.Within (Touches id questions) (Target.stack id thread) := by
  refine .bind (within_demand _) ?_
  intro stop
  refine .bind (within_look _) ?_
  intro kept
  cases kept with
  | some frames => exact .pure _
  | none =>
    refine .bind (within_requestAs _ _ (by decide)) ?_
    intro body
    refine .bind (.ofTask (.view (.refl id questions))) ?_
    intro frames
    exact .bind (within_change (.keepsFrames thread stop frames) nofun) fun _ => .pure _

lemma within_frameVariables (thread : Int) (index : Nat) :
    Attempt.Within (Touches id questions) (frameVariables id thread index) := by
  refine .bind (within_stack thread) ?_
  intro frames
  refine .bind (within_demand _) ?_
  intro stop
  refine .bind (.ofExcept _) ?_
  intro frame
  split
  · exact .pure _
  · split
    · exact .pure _
    · refine .bind within_features ?_
      intro f
      refine .bind (within_requestAs _ _ (by decide)) ?_
      intro body
      refine .bind ((speaks_touches id questions).expandScopes (by decide) _ _) ?_
      intro contents
      exact .bind (within_change (.keepsContents thread stop index _ contents) nofun) fun _ => .pure _

lemma within_resumed (thread : Int) (all : Bool) (detail : String) :
    Attempt.Within (Touches id questions) (resumed id thread all detail) :=
  within_change (.resumes thread all detail) nofun

lemma within_act (thread : Int) (frame : Option Nat) (action : Action) :
    Attempt.Within (Touches id questions) (act id thread frame action) := by
  have hstep : ∀ command detail, command ∈ questions →
      Attempt.Within (Touches id questions) (stepThread id thread command detail) := by
    intro command detail hcommand
    exact .bind (within_request _ hcommand) fun _ => within_resumed thread false detail
  cases action with
  | resume =>
    refine .bind (within_request _ (by decide)) ?_
    intro body
    exact .bind (.ofExcept _) fun all => within_resumed thread all "resume"
  | stepInto => exact hstep _ _ (by decide)
  | stepOver => exact hstep _ _ (by decide)
  | stepReturn => exact hstep _ _ (by decide)
  | suspend => exact .bind (within_request _ (by decide)) fun _ => .pure ()
  | terminate =>
    refine .bind within_features ?_
    intro f
    split
    · exact .bind (within_request _ (by decide)) fun _ => .pure ()
    · exact .bind (within_request _ (by decide)) fun _ => .pure ()
  | dropToFrame =>
    refine .bind (within_stack thread) ?_
    intro frames
    refine .bind (.ofExcept _) ?_
    intro f
    exact .bind (within_request _ (by decide)) fun _ => within_resumed thread false "drop_to_frame"

lemma within_perform (action : Action) (thread : Option Int) (frame : Option Nat) :
    Attempt.Within (Touches id questions) (Target.perform id action thread frame) := by
  refine .bind (within_look _) ?_
  intro state
  split
  · exact .pure false
  · have hact : ∀ i, Attempt.Within (Touches id questions) (do act id i frame action; return true) := by
      intro i
      exact .bind (within_act i frame action) fun _ => .pure true
    cases thread with
    | some i => exact .bind (.pure i) hact
    | none => exact .bind (within_demand _) hact

lemma within_refreshThreads : Attempt.Within (Touches id questions) (refreshThreads id) := by
  refine .bind (within_requestAs _ _ (by decide)) ?_
  intro body
  exact .bind (within_change (.lists body.threads) nofun) fun _ => within_look _

end Calls

/-! ## Launches -/

section Launches

variable {id : Nat}

/-- What the outcome of the request for a launch makes of the target. -/
def settled (id : Nat) : Except Fault Json → DebugWork Unit
  | .ok _ => change id launched
  | .error e => do
    change id launchFailed
    throw e

/-- What is left of a launch once it has begun. -/
def launching (id : Nat) (root : Option Path) : DebugWork Unit := do
  let launch ← look id (·.launch)
  let session ← sessionOf id
  let arguments := Template.render (launch.vars root) (session.template launch.mode)
  settled id (← Attempt.ofTask (request id launch.mode.name arguments).outcome)

lemma within_settled {names : List String} (reply : Except Fault Json) :
    Attempt.Within (Touches id names) (settled id reply) := by
  cases reply with
  | ok answer => exact within_change .launches nofun
  | error e => exact .bind (within_change .fails nofun) fun _ => .throw e

lemma within_launching (root : Option Path) : Attempt.Within (Touches id launchings) (launching id root) := by
  refine .bind (within_look _) ?_
  intro launch
  refine .bind within_sessionOf ?_
  intro session
  refine .bind (.ofTask (within_request _ (name_mem_launchings launch.mode))) ?_
  intro reply
  exact within_settled reply

/-- What a target makes of the beginning of a launch: one that is new begins, and any other refuses. -/
lemma beginLaunch_cases (t : Target) :
    t.state = .created ∧ beginLaunch t = .ok (Deed.begins.apply t) ∨
      beginLaunch t = .error (.alreadyStarted t.id) := by
  unfold beginLaunch
  split
  · next hcreated => exact .inl ⟨hcreated, rfl⟩
  · exact .inr rfl

/-- The first access of a launch. -/
lemma within_beginLaunch {names : List String} : Attempt.Within (Touches id names) (tryChange id beginLaunch) := by
  refine .act ?_
  intro w
  rcases beginLaunch_cases (w.target id) with ⟨hcreated, hbegin⟩ | hrefuse
  · rw [hbegin]
    exact .deed .begins fun _ => hcreated
  · rw [hrefuse]
    exact .refl id names w

lemma within_start (root : Option Path) : Attempt.Within (Touches id launchings) (Target.start id root) := by
  refine .bind within_beginLaunch ?_
  intro _
  exact within_launching root

/-- Every access of a call on a target says at most what the call asks for, or does a deed. -/
theorem Course.Call.within_work (call : Call) : Attempt.Within (Touches id call.names) (call.work id) := by
  cases call with
  | start root => exact .bind (within_start root) fun _ => .pure true
  | perform action thread frame => exact within_perform action thread frame
  | refresh => exact .bind within_refreshThreads fun _ => .pure true
  | stack thread => exact .bind (within_stack thread) fun _ => .pure true
  | inspect thread index => exact .bind (within_frameVariables thread index) fun _ => .pure true

/-- A message leaves that asks to launch something. -/
def Launches (w w' : World) : Prop := Network.Hands launchings w.net w'.net

/-- Work that says nothing launches nothing. -/
lemma atMost_of_touches {α : Type} {names : List String} (hnames : ∀ name ∈ launchings, name ∉ names)
    {work : DebugWork α} (h : Attempt.Within (Touches id names) work) : Attempt.AtMost Launches work 0 := by
  refine .of_within (.mono ?_ h) 0
  intro w w' htouches
  exact htouches.not_hands hnames

/-- A request of a target is handed over at most once. -/
lemma atMost_request (command : String) (arguments : Json) :
    Attempt.AtMost Launches (request id command arguments) 1 := by
  have hlooked : Attempt.Within (Touches id []) (sessionOf id) := within_sessionOf
  refine .bind (j := 0) (k := 1) (atMost_of_touches (by decide) hlooked) ?_
  intro s
  have hasked : Attempt.AtMost (Network.Hands launchings) (s.request command arguments) 1 := by
    show Task.AtMost _ (s.request command arguments).outcome 1
    rw [Session.outcome_request]
    exact .andThen (j := 1) (k := 0) (Network.atMost_requestUntil launchings command arguments none) fun _ => trivial
  have hzoom : ∀ (w : World) (n : Network), Launches w { w with net := n } ↔ Network.Hands launchings w.net n :=
    fun _ _ => .rfl
  exact Task.AtMost.zoom hzoom hasked

/-- A launch that has begun is asked for at most once. -/
theorem atMost_launching (root : Option Path) : Attempt.AtMost Launches (launching id root) 1 := by
  have hsilent : ∀ name ∈ launchings, name ∉ ([] : List String) := by
    intro name _
    exact List.not_mem_nil
  refine .bind (j := 0) (k := 1) (atMost_of_touches hsilent (within_look _)) ?_
  intro launch
  refine .bind (j := 0) (k := 1) (atMost_of_touches hsilent within_sessionOf) ?_
  intro session
  refine .bind (j := 1) (k := 0) (.andThen (j := 1) (k := 0) (atMost_request _ _) fun _ => trivial) ?_
  intro reply
  exact atMost_of_touches hsilent (within_settled reply)

/-- The first step of a launch: everything hangs on what the target makes of the beginning. -/
lemma tick?_start_eq (root : Option Path) (w : World) :
    ((Call.start root).work id).outcome.tick? World.holds w =
      let begun : Except Fault Unit × World := match beginLaunch (w.target id) with
        | .ok r => (pure (), w.changeTarget id fun _ => r)
        | .error e => (throw e, w)
      let first : Task Wait World (Except Fault Unit) := ExceptT.bindCont (fun _ => launching id root) begun.1
      some (first.andThen (ExceptT.bindCont fun _ => pure true), begun.2) := rfl

/-- The first step of a launch asks for nothing. If there is more to come, the target was new and has begun. -/
lemma tick?_start {root : Option Path} {w w' : World} {work : Task Wait World (Except Fault Bool)}
    (htick : ((Call.start root).work id).outcome.tick? World.holds w = some (work, w')) :
    ¬ Launches w w' ∧ (work.AtMost Launches 0 ∨
      (w.target id).state = .created ∧ w' = w.changeTarget id Deed.begins.apply ∧ work.AtMost Launches 1) := by
  rw [tick?_start_eq] at htick
  rcases beginLaunch_cases (w.target id) with ⟨hcreated, hbegin⟩ | hrefuse
  · rw [hbegin] at htick
    obtain ⟨rfl, rfl⟩ := Prod.mk.inj (Option.some.inj htick)
    refine ⟨Network.not_hands_refl launchings w.net, .inr ⟨hcreated, rfl, ?_⟩⟩
    exact Attempt.AtMost.bind (j := 1) (k := 0) (atMost_launching root) fun _ => trivial
  · rw [hrefuse] at htick
    obtain ⟨rfl, rfl⟩ := Prod.mk.inj (Option.some.inj htick)
    exact ⟨Network.not_hands_refl launchings w.net, .inl trivial⟩

end Launches

end Debug.Target

end Switchboard
