import Switchboard.Proofs.Debug.Deeds
import Switchboard.Proofs.Debug.Freshness

/-!
# The editor's roster of threads

An editor that follows the notes on threads of a target keeps of every thread what it does, why it stopped and the
description of that. A thread may be created only if it is not on the roster, and may change or end only if it is.

* `Roster.hear`: what becomes of a roster with a message, where this order is kept;
* `Target.Tells`: a change whose notes lead from the roster of the target to that of what it becomes;
* `tells_heard`, `Deed.tells`: whatever the adapter says and whatever calls do to a target is such a change;
* `roster_of_told`: at all times the editor has the roster of the target.
-/

namespace Switchboard

namespace Debug

/-- What an editor keeps of a thread. -/
structure Roster.Entry where
  state : DebugThread.State
  reason : Option String
  description : Option String
deriving DecidableEq, Repr

/-- Threads by id. -/
abbrev Roster := Int → Option Roster.Entry

/-- What an editor keeps of this thread. -/
def DebugThread.entry (x : DebugThread) : Roster.Entry := ⟨x.state, x.reason, x.description⟩

/-- The threads of a target. -/
def Target.roster (t : Target) : Roster := fun i => (t.thread? i).map DebugThread.entry

namespace Roster

/-- A roster after what is told of a thread, unless it cannot be told of this one. -/
def note (r : Roster) (x : DebugThread) (what : ThreadChange) : Option Roster :=
  match what, r x.id with
  | .create, none => some (Function.update r x.id (some x.entry))
  | .change, some _ => some (Function.update r x.id (some x.entry))
  | .terminate, some _ => some (Function.update r x.id none)
  | _, _ => none

lemma note_create {r : Roster} {x : DebugThread} (h : r x.id = none) :
    r.note x .create = some (Function.update r x.id (some x.entry)) := by
  simp only [note, h]

lemma note_change {r : Roster} {x : DebugThread} {e : Entry} (h : r x.id = some e) :
    r.note x .change = some (Function.update r x.id (some x.entry)) := by
  simp only [note, h]

lemma note_terminate {r : Roster} {x : DebugThread} {e : Entry} (h : r x.id = some e) :
    r.note x .terminate = some (Function.update r x.id none) := by
  simp only [note, h]

/-- A roster of one target after a message. -/
def hear (id : Nat) (r : Roster) : Message → Option Roster
  | .debug (.thread target what _ _ x) => if target = id then r.note x what else some r
  | _ => some r

lemma hear_of_aside {id : Nat} {m : Message} (h : m.isOfThreads id = false) (r : Roster) : r.hear id m = some r := by
  unfold hear
  split
  · exact if_neg (of_decide_eq_false h)
  · rfl

lemma foldlM_hear_of_aside {id : Nat} {l : List Message} (h : ∀ m ∈ l, m.isOfThreads id = false) (r : Roster) :
    l.foldlM (hear id) r = some r := by
  induction l with
  | nil => rfl
  | cons m rest ih =>
    rw [List.foldlM_cons, hear_of_aside (h m List.mem_cons_self)]
    exact ih fun m hm => h m (List.mem_cons_of_mem _ hm)

end Roster

namespace Target

/-! ## Threads in order -/

/-- The threads are in order of their ids. -/
def Listed (t : Target) : Prop := t.threads.Pairwise (·.id < ·.id)

lemma listed_putThread {t : Target} (h : t.Listed) (x : DebugThread) : (t.putThread x).Listed := inserts.pairwise x h

lemma roster_putThread (t : Target) (x : DebugThread) :
    (t.putThread x).roster = Function.update t.roster x.id (some x.entry) := by
  funext i
  rw [roster, thread?_putThread, Function.update_apply]
  by_cases hi : i = x.id
  · rw [if_pos hi, if_pos hi.symm]
    rfl
  · rw [if_neg hi, if_neg (Ne.symm hi)]
    rfl

/-! ## Changes that tell of threads -/

/-- A change whose notes lead from the roster of the target to that of what it becomes. -/
def Tells (t : Target) (r : Target × List Note) : Prop :=
  r.1.id = t.id ∧ (t.Listed → r.1.Listed ∧
    (r.2.map Message.debug).foldlM (Roster.hear t.id) t.roster = some r.1.roster)

namespace Tells

lemma append {t u w : Target} {a b : List Note} (hu : t.Tells (u, a)) (hw : u.Tells (w, b)) : t.Tells (w, a ++ b) := by
  refine ⟨hw.1.trans hu.1, fun ht => ?_⟩
  obtain ⟨hlisted, hfirst⟩ := hu.2 ht
  obtain ⟨hlast, hrest⟩ := hw.2 hlisted
  rw [hu.1] at hrest
  refine ⟨hlast, ?_⟩
  rw [List.map_append, List.foldlM_append, hfirst]
  exact hrest

/-- Nothing is told of threads, and the roster is the same. -/
lemma of_quiet {t u : Target} {notes : List Note} (hid : u.id = t.id) (hlisted : t.Listed → u.Listed)
    (hroster : u.roster = t.roster) (hquiet : ∀ m ∈ notes.map Message.debug, m.isOfThreads t.id = false) :
    t.Tells (u, notes) :=
  ⟨hid, fun ht => ⟨hlisted ht, (Roster.foldlM_hear_of_aside hquiet _).trans (congrArg some hroster.symm)⟩⟩

lemma refl (t : Target) : t.Tells (t, []) := of_quiet rfl (fun h => h) rfl (List.forall_mem_nil _)

/-- Nothing happens to threads, and nothing is told of them. -/
lemma of_threads_eq {t u : Target} {notes : List Note} (hid : u.id = t.id) (hthreads : u.threads = t.threads)
    (hquiet : ∀ m ∈ notes.map Message.debug, m.isOfThreads t.id = false) : t.Tells (u, notes) := by
  refine of_quiet hid (fun h => ?_) ?_ hquiet
  · unfold Listed
    rw [hthreads]
    exact h
  · funext i
    simp only [roster, thread?, hthreads]

end Tells

/-- What one note makes of the roster of its target. -/
lemma tells_note {t u : Target} {what : ThreadChange} {detail data : Option String} {x : DebugThread} (hid : u.id = t.id)
    (hlisted : t.Listed → u.Listed) (hnote : t.roster.note x what = some u.roster) :
    t.Tells (u, [t.threadNote what detail data x]) := by
  refine ⟨hid, fun ht => ⟨hlisted ht, ?_⟩⟩
  have hhear : t.roster.hear t.id (.debug (t.threadNote what detail data x)) = some u.roster := (if_pos rfl).trans hnote
  rw [List.map_singleton, List.foldlM_cons, hhear]
  rfl

/-- A thread that was not there is put into the target. -/
lemma tells_create {t : Target} {x : DebugThread} (hnone : t.thread? x.id = none) (detail data : Option String) :
    t.Tells (t.putThread x, [t.threadNote .create detail data x]) := by
  have habsent : t.roster x.id = none := congrArg (Option.map DebugThread.entry) hnone
  refine tells_note rfl (fun h => listed_putThread h x) ?_
  rw [Roster.note_create habsent, roster_putThread]

/-- A thread that was there is put into the target. -/
lemma tells_change {t : Target} {x y : DebugThread} (hsome : t.thread? x.id = some y) (detail data : Option String) :
    t.Tells (t.putThread x, [t.threadNote .change detail data x]) := by
  have hthere : t.roster x.id = some y.entry := congrArg (Option.map DebugThread.entry) hsome
  refine tells_note rfl (fun h => listed_putThread h x) ?_
  rw [Roster.note_change hthere, roster_putThread]

/-- A thread that was there is put into the target, and an editor would keep the same of it. -/
lemma tells_quietly {t : Target} {x y : DebugThread} (hsome : t.thread? x.id = some y) (hentry : x.entry = y.entry) :
    t.Tells (t.putThread x, []) := by
  refine .of_quiet rfl (fun h => listed_putThread h x) ?_ (List.forall_mem_nil _)
  rw [roster_putThread, hentry, Function.update_eq_self_iff]
  exact (congrArg (Option.map DebugThread.entry) hsome).symm

lemma tells_raise (t : Target) : t.Tells (t.raise, []) := .of_threads_eq rfl rfl (List.forall_mem_nil _)

lemma tells_meet (t : Target) (i : Int) : t.Tells (t.meet i) := by
  unfold meet
  split
  · exact .refl t
  · next hnone => exact tells_create hnone none none

lemma tells_changeThread (t : Target) (i : Int) (detail data : Option String) {f : DebugThread → DebugThread}
    (hid : ∀ x, (f x).id = x.id) : t.Tells (t.changeThread i detail data f) := by
  unfold changeThread
  split
  · next x hx =>
    refine tells_change (y := x) ?_ detail data
    rw [hid, id_of_thread? hx, hx]
  · exact .refl t

lemma tells_forThreads {f : Target → Int → Target × List Note} (hf : ∀ (t : Target) (i : Int), t.Tells (f t i))
    (t : Target) (ids : List Int) : t.Tells (forThreads f t ids) := by
  induction ids generalizing t with
  | nil => exact .refl t
  | cons i rest ih => exact (hf t i).append (ih (f t i).1)

/-- One thread is taken away. -/
lemma tells_exit {t : Target} {i : Int} {x : DebugThread} (hx : t.thread? i = some x) (detail data : Option String) :
    t.Tells ({ t with threads := t.threads.filter (·.id ≠ i) }, [t.threadNote .terminate detail data x.terminate]) := by
  have hid : x.terminate.id = i := id_of_thread? (x := x) hx
  have hthere : t.roster x.terminate.id = some x.entry := by
    rw [hid]
    exact congrArg (Option.map DebugThread.entry) hx
  refine tells_note rfl (fun h => List.Pairwise.filter _ h) ?_
  rw [Roster.note_terminate hthere, hid]
  refine congrArg some (funext fun j => ?_)
  rw [roster, thread?_filter, Function.update_apply]
  by_cases hj : j = i
  · rw [if_pos hj, if_pos hj]
    rfl
  · rw [if_neg hj, if_neg hj]
    rfl

/-- All threads are taken away, one after the other. -/
lemma tells_end (t : Target) (detail data : Option String) {u : Target} (hid : u.id = t.id) (hu : u.threads = []) :
    t.Tells (u, t.threads.map fun x => t.threadNote .terminate detail data x.terminate) := by
  have hgone : ∀ (l : List DebugThread) (r : Roster), l.Pairwise (·.id < ·.id) → (∀ x ∈ l, (r x.id).isSome = true) →
      ((l.map fun x => t.threadNote .terminate detail data x.terminate).map Message.debug).foldlM (Roster.hear t.id) r =
        some fun i => if l.any (·.id = i) then none else r i := by
    intro l
    induction l with
    | nil => exact fun r _ _ => rfl
    | cons x rest ih =>
      intro r hordered hthere
      obtain ⟨hfirst, hrest⟩ := List.pairwise_cons.mp hordered
      obtain ⟨e, he⟩ := Option.isSome_iff_exists.mp (hthere x List.mem_cons_self)
      have hhear : r.hear t.id (.debug (t.threadNote .terminate detail data x.terminate)) =
          some (Function.update r x.id none) := (if_pos rfl).trans (Roster.note_terminate (x := x.terminate) he)
      rw [List.map_cons, List.map_cons, List.foldlM_cons, hhear]
      refine (ih _ hrest fun y hy => ?_).trans (congrArg some (funext fun i => ?_))
      · rw [Function.update_of_ne (by have := hfirst y hy; omega)]
        exact hthere y (List.mem_cons_of_mem _ hy)
      · rw [List.any_cons, Function.update_apply]
        by_cases hi : x.id = i
        · simp [hi]
        · simp [hi, Ne.symm hi]
  refine ⟨hid, fun ht => ⟨by simp [Listed, hu], ?_⟩⟩
  rw [hgone t.threads t.roster ht ?_]
  · refine congrArg some (funext fun i => ?_)
    have hafter : u.roster i = none := by simp [roster, thread?, hu]
    rw [hafter]
    split
    · rfl
    · next hnot => simpa [roster, thread?] using hnot
  · intro x hx
    rw [roster, Option.isSome_map, thread?, List.find?_isSome]
    exact ⟨x, hx, by simp⟩

/-! ## Whatever happens to a target -/

lemma tells_terminate (t : Target) : t.Tells t.terminate := by
  unfold terminate
  split
  · exact .refl t
  · have hends := tells_end t.raise (some "terminated") none
      (u := { t.raise with threads := [], state := .terminated }) rfl rfl
    exact (tells_raise t).append (hends.append (.of_threads_eq rfl rfl (by simp [Message.isOfThreads])))

lemma tells_applyThread (t : Target) (body : ThreadBody) : t.Tells (t.applyThread body) := by
  unfold applyThread
  split
  · exact .refl t
  · dsimp only
    split
    · -- exited
      split
      · next x hx => exact (tells_raise t).append (tells_exit hx _ _)
      · exact tells_raise t
    · split
      · -- started
        split
        · exact tells_raise t
        · next hnone => exact (tells_raise t).append (tells_create hnone _ _)
      · exact (tells_raise t).append ((tells_meet _ _).append (tells_changeThread _ _ _ _ fun _ => rfl))

lemma tells_applyStop (t : Target) (body : StoppedBody) : t.Tells ((t.applyStop body).1, (t.applyStop body).2.1) := by
  unfold applyStop
  split
  · exact .refl t
  · refine (tells_raise t).append (Tells.append ?_ (tells_forThreads (fun u i => ?_) _ _))
    · cases body.threadId with
      | none => exact .refl _
      | some i => exact tells_meet _ i
    · exact tells_changeThread u i _ _ fun _ => rfl

lemma tells_applyResume (t : Target) (thread : Int) (all : Bool) (detail : String) :
    t.Tells (t.applyResume thread all detail) := by
  unfold applyResume
  split
  · exact .refl t
  · refine (tells_raise t).append (tells_forThreads (fun u i => ?_) _ _)
    dsimp only
    split
    · split
      · exact tells_meet u i
      · exact (tells_meet u i).append (tells_changeThread _ i _ _ DebugThread.id_resume)
    · exact tells_meet u i

/-- New threads of the adapter's list are created, and of others an editor keeps what it had. -/
lemma tells_mergeThreads (t : Target) (threads : List ThreadInfo) : t.Tells (t.mergeThreads threads) := by
  unfold mergeThreads
  split
  · exact .refl t
  · refine List.foldlRecOn threads _ (Tells.refl t) fun r hr info _ => ?_
    obtain ⟨u, notes⟩ := r
    dsimp only
    split
    · next x hx =>
      have hthere : u.thread? x.id = some x := by rw [id_of_thread? hx, hx]
      simpa using hr.append (tells_quietly (x := { x with name := info.name }) hthere rfl)
    · next hnone => exact hr.append (tells_create hnone none none)

lemma tells_withBody {α : Type} (t : Target) (shape : Json.Shape α) (body : Json) {f : α → Target × List Note}
    (hf : ∀ a, t.Tells (f a)) : t.Tells ((t.withBody shape body f).1, (t.withBody shape body f).2.1) := by
  unfold withBody
  split
  · exact hf _
  · exact .refl t

/-- Whatever the adapter says is told. -/
theorem tells_heard (t : Target) (name : String) (body : Json) : t.Tells (heard name body t) := by
  unfold heard process_
  split
  · exact tells_withBody t _ body fun b => .of_threads_eq rfl rfl (by simp [Message.isOfThreads])
  · exact tells_withBody t _ body (tells_applyThread t)
  · split
    · exact tells_applyStop t _
    · exact .refl t
  · exact tells_withBody t _ body fun b => tells_applyResume t b.threadId _ _
  · exact tells_withBody t _ body fun b => .of_threads_eq rfl rfl (by simp [Message.isOfThreads])
  · exact tells_terminate t
  · exact tells_withBody t _ body fun b => .of_threads_eq rfl rfl (by simp [Message.isOfThreads])
  · exact .refl t

lemma tells_keepFrames (t : Target) (thread : Int) (stop : Nat) (frames : List Stack.Frame) :
    t.Tells (t.keepFrames thread stop frames, []) := by
  unfold keepFrames
  split
  · next x hx =>
    have hthere : t.thread? x.id = some x := by rw [id_of_thread? hx, hx]
    unfold DebugThread.storeFrames
    split
    · exact tells_quietly (x := { x with frames := some frames }) hthere rfl
    · exact tells_quietly hthere rfl
  · exact .refl t

lemma tells_keepContents (t : Target) (thread : Int) (stop index : Nat) (scopes : List Stack.Scope)
    (contents : List Stack.Variable) : t.Tells (t.keepContents thread stop index scopes contents, []) := by
  unfold keepContents
  split
  · next x hx =>
    have hthere : t.thread? x.id = some x := by rw [id_of_thread? hx, hx]
    unfold DebugThread.storeContents
    split
    · split
      · exact tells_quietly (x := { x with frames := _ }) hthere rfl
      · exact tells_quietly hthere rfl
    · exact tells_quietly hthere rfl
  · exact .refl t

namespace Course

/-- Whatever a call does is told. -/
theorem Deed.tells (deed : Deed) (t : Target) : t.Tells (deed.apply t) := by
  cases deed with
  | begins => exact .of_threads_eq rfl rfl (by simp [Message.isOfThreads])
  | launches =>
    show t.Tells (launched t)
    unfold launched
    split
    · exact .of_threads_eq rfl rfl (by simp [Message.isOfThreads])
    · exact .refl t
  | fails => exact .of_threads_eq rfl rfl (by simp [Message.isOfThreads])
  | lists threads => exact tells_mergeThreads t threads
  | resumes thread all detail => exact tells_applyResume t thread all detail
  | keepsFrames thread stop frames => exact tells_keepFrames t thread stop frames
  | keepsContents thread stop index scopes contents => exact tells_keepContents t thread stop index scopes contents

variable {id : Nat} {start : World} {schedule : Nat → Turn}

/-- A change that tells of threads brings the editor up to date. -/
lemma told_of_change (hpresent : (start.debugger.target? id).isSome = true) {n : Nat} {f : Target → Target × List Note}
    (hf : ∀ t : Target, t.Tells (f t))
    (hworld : (course id start schedule (n + 1)).world = (course id start schedule n).world.changeTarget id f)
    (hlisted : ((course id start schedule n).target id).Listed) :
    ((course id start schedule (n + 1)).target id).Listed ∧ ∃ more,
      (course id start schedule (n + 1)).world.told = (course id start schedule n).world.told ++ more ∧
        more.foldlM (Roster.hear id) ((course id start schedule n).target id).roster =
          some ((course id start schedule (n + 1)).target id).roster := by
  obtain ⟨hnext, hnotes⟩ := (hf ((course id start schedule n).target id)).2 hlisted
  have hid : ((course id start schedule n).target id).id = id := id_target (present hpresent n)
  rw [hid] at hnotes
  rw [target_of_change hpresent (fun t => (hf t).1) hworld]
  refine ⟨hnext, _, ?_, hnotes⟩
  rw [hworld]
  rfl

/-- Whatever the order in which calls, events and everything around a target take their steps: what is told of its
threads leads an editor from their states at the start to their states now. No thread is created that is on the roster,
and none changes or ends that is not. -/
theorem roster_of_told (hpresent : (start.debugger.target? id).isSome = true) (hlisted : (start.target id).Listed)
    (schedule : Nat → Turn) (n : Nat) : ∃ more, (course id start schedule n).world.told = start.told ++ more ∧
      more.foldlM (Roster.hear id) (start.target id).roster = some ((course id start schedule n).target id).roster := by
  suffices h : ((course id start schedule n).target id).Listed ∧ ∃ more,
      (course id start schedule n).world.told = start.told ++ more ∧ more.foldlM (Roster.hear id) (start.target id).roster =
        some ((course id start schedule n).target id).roster from h.2
  induction n with
  | zero => exact ⟨hlisted, [], (List.append_nil _).symm, rfl⟩
  | succ n ih =>
    obtain ⟨hhere, before, htold, hbefore⟩ := ih
    -- what one turn tells goes on where all that was told before it ended
    have hturn : ((course id start schedule (n + 1)).target id).Listed ∧ ∃ more,
        (course id start schedule (n + 1)).world.told = (course id start schedule n).world.told ++ more ∧
          more.foldlM (Roster.hear id) ((course id start schedule n).target id).roster =
            some ((course id start schedule (n + 1)).target id).roster := by
      cases happens id start schedule n with
      | aside more targets told silent =>
        rw [target_of_aside targets]
        exact ⟨hhere, more, told, Roster.foldlM_hear_of_aside silent _⟩
      | deed i call work deed turn underway justified world => exact told_of_change hpresent deed.tells world hhere
      | event name body turn world => exact told_of_change hpresent (fun t => tells_heard t name body) world hhere
      | ended turn world => exact told_of_change hpresent tells_terminate world hhere
    obtain ⟨hnext, more, hmore, hafter⟩ := hturn
    refine ⟨hnext, before ++ more, by rw [hmore, htold, List.append_assoc], ?_⟩
    rw [List.foldlM_append, hbefore]
    exact hafter

/-- A thread starts, stops and exits. -/
def startsStopsExits (n : Nat) : Turn :=
  [Turn.event "thread" (.obj [("reason", "started"), ("threadId", .int 7)]),
    .event "stopped" (.obj [("reason", "breakpoint"), ("threadId", .int 7), ("description", "Paused")]),
    .event "thread" (.obj [("reason", "exited"), ("threadId", .int 7)])].getD n .ended

/-- An editor that knew of no threads has the one that stopped, and then none. -/
theorem roster_startsStopsExits :
    (∃ r, (course 1 Freshness.oneTarget startsStopsExits 2).world.told.foldlM (Roster.hear 1) (fun _ => none) = some r ∧
      r 7 = some ⟨.suspended, some "breakpoint", some "Paused"⟩) ∧
    ∃ r, (course 1 Freshness.oneTarget startsStopsExits 3).world.told.foldlM (Roster.hear 1) (fun _ => none) = some r ∧
      r 7 = none := by
  have hpresent : (Freshness.oneTarget.debugger.target? 1).isSome = true := by decide
  have hlisted : (Freshness.oneTarget.target 1).Listed := List.Pairwise.nil
  obtain ⟨more, htold, hstopped⟩ := roster_of_told hpresent hlisted startsStopsExits 2
  obtain ⟨more', htold', hexited⟩ := roster_of_told hpresent hlisted startsStopsExits 3
  rw [htold, htold']
  exact ⟨⟨_, hstopped, by decide +kernel⟩, ⟨_, hexited, by decide +kernel⟩⟩

end Course

end Target

end Debug

end Switchboard
