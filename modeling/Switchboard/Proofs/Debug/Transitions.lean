import Switchboard.Proofs.Debug.Grounding

/-!
# Transitions of targets

* `Target.Transition`: a target that has not ended is changed by an event of a thread, a stop, threads going on, or its end;
* `Target.Refusal`: it ends because its launch is refused, and no version is raised;
* `Target.Passes`: what one access makes of a target, by its version and by whether it has ended;
* `World.Drifts`: an access after which targets are still there, and of each was made one of these three things;
* `Bustle.allowed_drifts`, `Request.within_drifts`: so are the accesses of every request but events, and they put nothing
  off; `drifts_applyDebugEvent`: and so is an event.
-/

namespace Switchboard

open Debug

namespace Debug.Target

/-! ## Changes of one target -/

/-- A transition of a target that has not ended. -/
inductive Transition (t : Target) : Target → Prop where
  /-- A thread started, exited or changed. -/
  | thread (body : ThreadBody) (live : t.isTerminated = false) : Transition t (t.applyThread body).1
  | stop (body : StoppedBody) (live : t.isTerminated = false) : Transition t (t.applyStop body).1
  /-- Threads went on, as the adapter said or as an editor asked. -/
  | resume (thread : Int) (all : Bool) (detail : String) (live : t.isTerminated = false) :
    Transition t (t.applyResume thread all detail).1
  | terminate (live : t.isTerminated = false) : Transition t t.terminate.1

/-- A target that has not ended does so because its launch is refused. -/
structure Refusal (t u : Target) : Prop where
  live : t.isTerminated = false
  fails : u = t.launchFailed.1

/-- What one access makes of a target. -/
inductive Passes (t u : Target) : Prop where
  | rests (stamp : u.stamp = t.stamp) (ended : u.isTerminated = t.isTerminated)
  | transits (h : t.Transition u)
  | refused (h : t.Refusal u)

/-! ## Versions -/

lemma stamp_meet (t : Target) (i : Int) : (t.meet i).1.stamp = t.stamp := by
  unfold meet
  split <;> rfl

lemma stamp_changeThread (t : Target) (i : Int) (detail data : Option String) (f : DebugThread → DebugThread) :
    (t.changeThread i detail data f).1.stamp = t.stamp := by
  unfold changeThread
  split <;> rfl

lemma stamp_forThreads {f : Target → Int → Target × List Note} (hf : ∀ t i, (f t i).1.stamp = t.stamp) (t : Target)
    (ids : List Int) : (forThreads f t ids).1.stamp = t.stamp := by
  induction ids generalizing t with
  | nil => rfl
  | cons i rest ih => exact (ih (f t i).1).trans (hf t i)

lemma stamp_applyThread {t : Target} (hlive : t.isTerminated = false) (body : ThreadBody) :
    (t.applyThread body).1.stamp = Deferred.raised t.stamp := by
  unfold applyThread
  rw [if_neg (by simp [hlive])]
  dsimp only
  split
  · split <;> rfl
  · split
    · split <;> rfl
    · show (changeThread _ _ _ _ _).1.stamp = _
      rw [stamp_changeThread, stamp_meet]
      rfl

lemma stamp_applyStop {t : Target} (hlive : t.isTerminated = false) (body : StoppedBody) :
    (t.applyStop body).1.stamp = Deferred.raised t.stamp := by
  unfold applyStop
  rw [if_neg (by simp [hlive])]
  show (forThreads _ _ _).1.stamp = _
  rw [stamp_forThreads fun u i => stamp_changeThread u i _ _ _]
  cases body.threadId with
  | none => rfl
  | some i => exact stamp_meet _ i

lemma stamp_applyResume {t : Target} (hlive : t.isTerminated = false) (thread : Int) (all : Bool) (detail : String) :
    (t.applyResume thread all detail).1.stamp = Deferred.raised t.stamp := by
  unfold applyResume
  rw [if_neg (by simp [hlive])]
  show (forThreads _ _ _).1.stamp = _
  rw [stamp_forThreads]
  · rfl
  · intro u i
    dsimp only
    split
    · split
      · exact stamp_meet u i
      · exact (stamp_changeThread _ i _ _ _).trans (stamp_meet u i)
    · exact stamp_meet u i

lemma stamp_terminate {t : Target} (hlive : t.isTerminated = false) :
    t.terminate.1.stamp = Deferred.raised t.stamp := by
  unfold terminate
  rw [if_neg (by simp [hlive])]
  rfl

lemma stamp_mergeThreads (t : Target) (threads : List ThreadInfo) : (t.mergeThreads threads).1.stamp = t.stamp := by
  unfold mergeThreads
  split
  · rfl
  · refine List.foldlRecOn (motive := fun r : Target × List Note => r.1.stamp = t.stamp) threads _ rfl ?_
    intro r hr info _
    dsimp only
    split <;> exact hr

lemma stamp_keepFrames (t : Target) (thread : Int) (stop : Nat) (frames : List Stack.Frame) :
    (t.keepFrames thread stop frames).stamp = t.stamp := by
  unfold keepFrames
  split <;> rfl

lemma stamp_keepContents (t : Target) (thread : Int) (stop index : Nat) (scopes : List Stack.Scope)
    (contents : List Stack.Variable) : (t.keepContents thread stop index scopes contents).stamp = t.stamp := by
  unfold keepContents
  split <;> rfl

lemma isTerminated_eq {t u : Target} (h : u.state = t.state) : u.isTerminated = t.isTerminated := by
  simp only [isTerminated, h]

namespace Transition

variable {t u : Target}

lemma live (h : t.Transition u) : t.isTerminated = false := by
  cases h with
  | thread body live => exact live
  | stop body live => exact live
  | resume thread all detail live => exact live
  | terminate live => exact live

/-- Every transition raises the version. -/
theorem stamp (h : t.Transition u) : u.stamp = Deferred.raised t.stamp := by
  cases h with
  | thread body live => exact stamp_applyThread live body
  | stop body live => exact stamp_applyStop live body
  | resume thread all detail live => exact stamp_applyResume live thread all detail
  | terminate live => exact stamp_terminate live

end Transition

namespace Passes

variable {t u : Target}

/-- What has ended stays so. -/
lemma ended (h : t.Passes u) (ht : t.isTerminated = true) : u.isTerminated = true := by
  cases h with
  | rests stamp ended => rw [ended, ht]
  | transits h => exact absurd (h.live.symm.trans ht) (by decide)
  | refused h => exact absurd (h.live.symm.trans ht) (by decide)

/-- The version changes in transitions only. -/
lemma stamp_eq (h : t.Passes u) (hu : ¬ t.Transition u) : u.stamp = t.stamp := by
  cases h with
  | rests stamp ended => exact stamp
  | transits h => exact absurd h hu
  | refused h =>
    rw [h.fails]
    rfl

/-- A target ends in a transition, or because its launch is refused. -/
lemma ends (h : t.Passes u) (ht : t.isTerminated = false) (hu : u.isTerminated = true) : t.Transition u ∨ t.Refusal u := by
  cases h with
  | rests stamp ended => exact absurd (hu.symm.trans (ended.trans ht)) (by decide)
  | transits h => exact .inl h
  | refused h => exact .inr h

/-- A change that does nothing to a target that has ended. -/
lemma of_transition (hinert : t.isTerminated = true → u = t) (hlive : t.isTerminated = false → t.Transition u) :
    t.Passes u := by
  cases ht : t.isTerminated with
  | true =>
    rw [hinert ht]
    exact .rests rfl rfl
  | false => exact .transits (hlive ht)

end Passes

/-! ## What is done to a target -/

lemma passes_applyThread (t : Target) (body : ThreadBody) : t.Passes (t.applyThread body).1 :=
  .of_transition (fun ht => congrArg Prod.fst ((guarded_applyThread t body).inert ht)) (.thread body)

lemma passes_applyStop (t : Target) (body : StoppedBody) : t.Passes (t.applyStop body).1 :=
  .of_transition (fun ht => congrArg Prod.fst ((guarded_applyStop t body).inert ht)) (.stop body)

lemma passes_applyResume (t : Target) (thread : Int) (all : Bool) (detail : String) :
    t.Passes (t.applyResume thread all detail).1 :=
  .of_transition (fun ht => congrArg Prod.fst ((guarded_applyResume t thread all detail).inert ht))
    (.resume thread all detail)

lemma passes_terminate (t : Target) : t.Passes t.terminate.1 := by
  refine .of_transition ?_ .terminate
  intro ht
  rw [terminate, if_pos ht]

lemma passes_withBody {α : Type} (t : Target) (shape : Json.Shape α) (body : Json) {f : α → Target × List Note}
    (hf : ∀ a, t.Passes (f a).1) : t.Passes (t.withBody shape body f).1 := by
  unfold withBody
  split
  · exact hf _
  · exact .rests rfl rfl

/-- Whatever the adapter says. -/
lemma passes_heard (t : Target) (name : String) (body : Json) : t.Passes (heard name body t).1 := by
  unfold heard process_
  split
  · exact passes_withBody t _ body fun b => .rests rfl rfl
  · exact passes_withBody t _ body t.passes_applyThread
  · split
    · exact t.passes_applyStop _
    · exact .rests rfl rfl
  · exact passes_withBody t _ body fun b => t.passes_applyResume _ _ _
  · exact passes_withBody t _ body fun b => .rests rfl rfl
  · exact t.passes_terminate
  · exact passes_withBody t _ body fun b => .rests rfl rfl
  · exact .rests rfl rfl

/-- Whatever a call does; a launch begins only once. -/
lemma passes_apply (deed : Course.Deed) {t : Target} (hfresh : deed = .begins → t.state = .created) :
    t.Passes (deed.apply t).1 := by
  cases deed with
  | begins =>
    refine .rests rfl ?_
    simp [Course.Deed.apply, isTerminated, hfresh rfl]
  | launches =>
    show t.Passes (launched t).1
    unfold launched
    split
    · next hstate => exact .rests rfl (by simp [isTerminated, hstate])
    · exact .rests rfl rfl
  | fails =>
    cases ht : t.isTerminated with
    | true => exact .rests rfl ht.symm
    | false => exact .refused ⟨ht, rfl⟩
  | lists threads => exact .rests (stamp_mergeThreads t threads) (isTerminated_eq (guarded_mergeThreads t threads).state)
  | resumes thread all detail => exact t.passes_applyResume thread all detail
  | keepsFrames thread stop frames => exact .rests (stamp_keepFrames ..) (isTerminated_eq (state_keepFrames ..))
  | keepsContents thread stop index scopes contents =>
    exact .rests (stamp_keepContents ..) (isTerminated_eq (state_keepContents ..))

end Debug.Target

namespace World

/-! ## Targets of the world -/

/-- Targets still go by different ids, and what becomes of each is one of the three things. -/
structure Drift (w w' : World) : Prop where
  numbered : w'.debugger.Numbered
  targets : ∀ t ∈ w.debugger.targets, ∃ u ∈ w'.debugger.targets, u.id = t.id ∧ t.Passes u

/-- The same provided that targets go by different ids before, and nothing is put off or taken up. -/
structure Drifts (w w' : World) : Prop where
  pool : w'.debugger.pool = w.debugger.pool
  drift : w.debugger.Numbered → w.Drift w'

namespace Drift

variable {w w' : World}

/-- Targets stay as they are. -/
lemma of_eq (h : w.debugger.Numbered) (htargets : w'.debugger.targets = w.debugger.targets)
    (hnext : w'.debugger.nextTarget = w.debugger.nextTarget) : w.Drift w' where
  numbered := h.of_eq htargets hnext
  targets := by
    rw [htargets]
    exact fun t ht => ⟨t, ht, rfl, .rests rfl rfl⟩

/-- A target is still there. -/
lemma target?_isSome (h : w.Drift w') {id : Nat} (hid : (w.debugger.target? id).isSome = true) :
    (w'.debugger.target? id).isSome = true := by
  obtain ⟨t, ht⟩ := Option.isSome_iff_exists.mp hid
  obtain ⟨u, hu, hsame, -⟩ := h.targets t (List.mem_of_find?_eq_some ht)
  have htid : t.id = id := by simpa using List.find?_some ht
  exact List.find?_isSome.mpr ⟨u, hu, by simp [hsame, htid]⟩

/-- What becomes of a target that is there. -/
lemma passes (h : w.Drift w') (hw : w.debugger.Numbered) {id : Nat}
    (hid : (w.debugger.target? id).isSome = true) : (w.target id).Passes (w'.target id) := by
  obtain ⟨t, ht⟩ := Option.isSome_iff_exists.mp hid
  obtain ⟨u, hu, hsame, hpasses⟩ := h.targets t (List.mem_of_find?_eq_some ht)
  have htid : t.id = id := by simpa using List.find?_some ht
  have hbefore : w.target id = t := by
    rw [← htid]
    exact hw.target_eq (List.mem_of_find?_eq_some ht)
  have hafter : w'.target id = u := by
    rw [← htid, ← hsame]
    exact h.numbered.target_eq hu
  rw [hbefore, hafter]
  exact hpasses

end Drift

section Drifts

variable {w w' : World}

lemma drifts_of_eq (hpool : w'.debugger.pool = w.debugger.pool) (htargets : w'.debugger.targets = w.debugger.targets)
    (hnext : w'.debugger.nextTarget = w.debugger.nextTarget) : w.Drifts w' :=
  ⟨hpool, fun h => .of_eq h htargets hnext⟩

lemma drifts_refl (w : World) : w.Drifts w := drifts_of_eq rfl rfl rfl

/-- One target changes. -/
lemma drift_changeTarget (hw : w.debugger.Numbered) {id : Nat} {f : Target → Target × List Note}
    (hspares : w.Spares (w.changeTarget id f)) (hid : (f (w.target id)).1.id = (w.target id).id)
    (hf : (w.target id).Passes (f (w.target id)).1) : w.Drift (w.changeTarget id f) where
  numbered := (hspares hw).numbered hw
  targets := by
    intro t ht
    refine ⟨_, List.mem_map_of_mem ht, ?_⟩
    by_cases hsame : t.id = (f (w.target id)).1.id
    · have htarget : t = w.target id := hw.eq_target ht (hsame.trans hid)
      rw [if_pos hsame, htarget]
      exact ⟨hid, hf⟩
    · rw [if_neg hsame]
      exact ⟨rfl, .rests rfl rfl⟩

lemma drifts_changeTarget {id : Nat} {f : Target → Target × List Note} (hspares : w.Spares (w.changeTarget id f))
    (hid : (f (w.target id)).1.id = (w.target id).id) (hf : (w.target id).Passes (f (w.target id)).1) :
    w.Drifts (w.changeTarget id f) :=
  ⟨rfl, fun hw => drift_changeTarget hw hspares hid hf⟩

lemma drifts_touches {id : Nat} {names : List String} (h : Target.Touches id names w w') : w.Drifts w' := by
  cases h with
  | speech c n said => exact drifts_of_eq rfl rfl rfl
  | deed deed fresh =>
    have htouches : Target.Touches id names w (w.changeTarget id deed.apply) := .deed deed fresh
    exact drifts_changeTarget htouches.spares (deed.id_apply _) (Target.passes_apply deed fresh)

lemma drifts_relocate (w : World) (path : Path) : w.Drifts (w.relocate path) := by
  have hdebugger : (w.debugger.relocate w.disk path).2.pool = w.debugger.pool ∧
      (w.debugger.relocate w.disk path).2.targets = w.debugger.targets ∧
      (w.debugger.relocate w.disk path).2.nextTarget = w.debugger.nextTarget := by
    unfold Debug.Debugger.relocate
    dsimp only
    split <;> exact ⟨rfl, rfl, rfl⟩
  obtain ⟨hpool, htargets, hnext⟩ := hdebugger
  unfold relocate
  dsimp only
  split <;> exact drifts_of_eq hpool htargets hnext

lemma drifts_ends (w : World) (id : Nat) : w.Drifts (w.changeTarget id Target.terminate) :=
  drifts_changeTarget (.of_onward (Target.onward_terminate _)) (Target.onward_terminate _).id (Target.passes_terminate _)

/-- An event of an adapter. -/
lemma drifts_applyDebugEvent (w : World) (s : SessionId) (e : Channel.Event) : w.Drifts (w.applyDebugEvent s e).2 := by
  refine ⟨?_, fun hw => ?_⟩
  · unfold applyDebugEvent
    split <;> rfl
  · cases hlive : w.debugger.liveTarget? s with
    | none =>
      rw [applyDebugEvent, hlive]
      exact .of_eq hw rfl rfl
    | some t =>
      have htarget : w.target t.id = t := hw.target_eq (List.mem_of_find?_eq_some hlive)
      have hspares := Target.spares_applyDebugEvent w s e
      rw [Target.applyDebugEvent_eq hlive htarget] at hspares ⊢
      exact drift_changeTarget hw hspares (Target.onward_heard _ e.name e.body).id (Target.passes_heard _ e.name e.body)

/-! ## Claims -/

lemma drift_reserve (hw : w.debugger.Numbered) (launch : Launch) (x : SessionId) : w.Drift (w.reserve launch x).2 where
  numbered := hw.addTarget launch x
  targets := fun t ht => ⟨t, List.mem_append_left _ ht, rfl, .rests rfl rfl⟩

/-- A target comes, perhaps on a new session; all others stay as they are. -/
lemma drifts_claim (w : World) (launch : Launch) (root : Option Path) : w.Drifts (w.claim launch root).2 := by
  have hclaimed := w.claimed launch root
  generalize w.claim launch root = r at hclaimed
  cases hclaimed with
  | refused e => exact drifts_refl w
  | joins x entry isOpen free => exact ⟨rfl, fun hw => drift_reserve hw launch x⟩
  | starts w' started =>
    obtain ⟨session, -, -, -, hdebugger⟩ := started.debugger
    have hpool : w'.debugger.pool = w.debugger.pool := by
      rw [hdebugger]
      unfold Debugger.setCurrent
      split <;> rfl
    have htargets : w'.debugger.targets = w.debugger.targets := by
      rw [hdebugger, Debugger.setCurrent_targets]
      rfl
    have hnext : w'.debugger.nextTarget = w.debugger.nextTarget := by
      rw [hdebugger, Debugger.setCurrent_nextTarget]
      rfl
    refine ⟨hpool, fun hw => ?_⟩
    have hdrift := drift_reserve (hw.of_eq htargets hnext) launch w.debugger.sessions.length
    refine ⟨hdrift.numbered, ?_⟩
    rw [← htargets]
    exact hdrift.targets

end Drifts

end World

/-! ## Requests -/

namespace Debug.Bustle

open World (Drifts)

lemma drifts_of_launches {f : Launch.Catalog → Except Fault (Launch × Launch.Catalog)}
    {finish : Launch → World → World} (hfinish : ∀ w l c, Drifts w (finish l (Editing.setLaunches w c))) :
    Attempt.Within Drifts (Editing.onLaunches f finish) :=
  Editing.within_onLaunches World.drifts_refl fun w l c _ => hfinish w l c

/-- Everything that the debugger does for requests but events lets targets drift, and puts nothing off. -/
theorem allowed_drifts : AllowedCommands Drifts where
  refl := World.drifts_refl
  net := fun _ _ _ => World.drifts_of_eq rfl rfl rfl
  relocate := World.drifts_relocate
  verify := fun _ _ _ => World.drifts_of_eq rfl rfl rfl
  touches := fun _ => World.drifts_touches
  ends := World.drifts_ends
  forget := fun _ _ => World.drifts_of_eq rfl rfl rfl
  clear := fun _ => World.drifts_of_eq rfl rfl rfl
  placeBreakpoint := by
    intro project path line column w
    unfold Editing.placeBreakpoint
    dsimp only
    split <;> exact World.drifts_of_eq rfl rfl rfl
  placeException := fun _ _ _ => World.drifts_of_eq rfl rfl rfl
  applyEdits := by
    intro id edits w
    unfold Editing.applyEdits
    dsimp only
    split
    · exact World.drifts_refl w
    · split <;> exact World.drifts_of_eq rfl rfl rfl
  dropBreakpoints := fun _ => World.drifts_of_eq rfl rfl rfl
  createLaunch := fun _ => drifts_of_launches fun _ _ _ => by
    split <;> exact World.drifts_of_eq rfl rfl rfl
  cloneLaunch := fun _ => drifts_of_launches fun _ _ _ => World.drifts_of_eq rfl rfl rfl
  editLaunch := fun _ _ => drifts_of_launches fun _ _ _ => by
    split <;> exact World.drifts_of_eq rfl rfl rfl
  commitLaunch := by
    intro id
    refine .act fun w => ?_
    split
    · exact World.drifts_refl w
    · dsimp only
      split <;> exact World.drifts_of_eq rfl rfl rfl
  saveLaunch := fun _ => drifts_of_launches fun _ _ _ => World.drifts_of_eq rfl rfl rfl
  deleteLaunch := by
    intro id
    refine .act fun w => ?_
    split <;> exact World.drifts_of_eq rfl rfl rfl

/-- The same of what a run does. -/
lemma pursuits_drifts : Running.AllowedPursuits Drifts where
  toAllowedCalls := AllowedCommands.toAllowedCalls allowed_drifts
  launches := World.drifts_touches
  introduces := fun _ _ _ => World.drifts_of_eq rfl rfl rfl

lemma within_drifts_run (id : Nat) : Attempt.Within Drifts (Running.run id) := by
  refine .bind (.ofTask (.view (f := fun w : World => w) World.drifts_refl)) ?_
  intro w
  split
  · exact .throw _
  · next launch _ =>
    refine .bind (.ofTask (t := Task.await _) trivial) ?_
    intro _
    refine .bind (.act fun w => w.drifts_claim launch _) ?_
    intro target
    exact Running.AllowedPursuits.pursuing pursuits_drifts _ target

lemma within_drifts_insertSession (s : SessionId) : (Running.insertSession s).Within Drifts := by
  have hallowed : AllowedCommands Drifts := allowed_drifts
  refine within_insertSession (fun w => ?_) hallowed.close fun w => World.drifts_of_eq rfl rfl rfl
  refine World.drifts_of_eq ?_ (Debugger.setCurrent_targets ..) (Debugger.setCurrent_nextTarget ..)
  unfold Debugger.setCurrent
  split <;> rfl

/-- Every access of a request but an event lets targets drift, and puts nothing off. -/
theorem Request.within_drifts {r : Request} (hevent : ∀ s e, r ≠ .event s e) : r.work.Within Drifts :=
  AllowedCommands.work allowed_drifts r hevent (fun launch _ => within_drifts_run launch) fun s _ =>
    within_drifts_insertSession s

end Debug.Bustle

end Switchboard
