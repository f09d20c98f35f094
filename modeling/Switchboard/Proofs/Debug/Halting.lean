import Switchboard.Proofs.Debug.Roster
import Switchboard.Proofs.Debug.Stepping

/-!
# Which threads stop and which go on

* `DebugThread.Plain`, `Target.Registry`: threads are in order of their ids, none of them has ended, and one that runs has
  nothing left of a stop; this is so at all times (`registry`);
* `Singly`: something is done to a thread by its id, and told; `Singly.forThreads`: the same for several threads;
* `Halts`, `Proceeds`: what the adapter's word on a stop, or on threads that go on, makes of every thread, and what is
  told, in order;
* `halts_or_proceeds`: at any time of any run this is what either word does.
-/

namespace Switchboard.Debug

/-! ## Threads that have not ended -/

/-- The thread is in a stop, or it runs and has nothing left of one. -/
def DebugThread.Plain (x : DebugThread) : Prop :=
  x.state = .suspended ∨ x.state = .running ∧ x.reason = none ∧ x.description = none ∧ x.frames = none

namespace DebugThread

lemma plain_new (id : Int) (name : String) : ({ id, name } : DebugThread).Plain := .inr ⟨rfl, rfl, rfl, rfl⟩

lemma plain_suspend (x : DebugThread) (reason : String) (description : Option String) :
    (x.suspend reason description).Plain := .inl rfl

/-- A thread that goes on. -/
lemma Plain.resume_eq {x : DebugThread} (h : x.Plain) :
    x.resume = { x with state := .running, reason := none, description := none, frames := none } := by
  refine if_neg ?_
  rcases h with h | ⟨h, -⟩
  · rw [h]
    nofun
  · rw [h]
    nofun

lemma Plain.resume {x : DebugThread} (h : x.Plain) : x.resume.Plain := by
  rw [h.resume_eq]
  exact .inr ⟨rfl, rfl, rfl, rfl⟩

/-- It may be given another name. -/
lemma Plain.rename {x : DebugThread} (h : x.Plain) (name : String) : { x with name := name }.Plain := h

lemma plain_of_isIn {x : DebugThread} {stop : Nat} (h : x.isIn stop = true) (frames : Option (List Stack.Frame)) :
    { x with frames := frames }.Plain := by
  simp only [isIn, isSuspended, Bool.and_eq_true, decide_eq_true_eq] at h
  exact .inl h.1

lemma Plain.storeFrames {x : DebugThread} (h : x.Plain) (stop : Nat) (frames : List Stack.Frame) :
    (x.storeFrames stop frames).2.Plain := by
  unfold DebugThread.storeFrames
  split
  · next hin => exact plain_of_isIn hin _
  · exact h

lemma Plain.storeContents {x : DebugThread} (h : x.Plain) (stop index : Nat) (scopes : List Stack.Scope)
    (contents : List Stack.Variable) : (x.storeContents stop index scopes contents).2.Plain := by
  unfold DebugThread.storeContents
  split
  · split
    · next hin => exact plain_of_isIn hin.1 _
    · exact h
  · exact h

end DebugThread

namespace Target

/-- All threads are in a stop or run. -/
def Plain (t : Target) : Prop := ∀ x ∈ t.threads, x.Plain

section Plain

variable {t : Target}

lemma Plain.thread? (h : t.Plain) {i : Int} {x : DebugThread} (hx : t.thread? i = some x) : x.Plain :=
  h x (List.mem_of_find?_eq_some hx)

lemma Plain.putThread (h : t.Plain) {x : DebugThread} (hx : x.Plain) : (t.putThread x).Plain := by
  intro z hz
  rcases inserts.mem hz with rfl | hz
  · exact hx
  · exact h z hz

lemma Plain.meet (h : t.Plain) (i : Int) : (t.meet i).1.Plain := by
  unfold Target.meet
  split
  · exact h
  · exact h.putThread (DebugThread.plain_new i _)

lemma Plain.changeThread (h : t.Plain) (i : Int) (detail data : Option String) {f : DebugThread → DebugThread}
    (hf : ∀ x : DebugThread, x.Plain → (f x).Plain) : (t.changeThread i detail data f).1.Plain := by
  unfold Target.changeThread
  split
  · next x hx => exact h.putThread (hf x (h.thread? hx))
  · exact h

lemma Plain.forThreads {f : Target → Int → Target × List Note} (hf : ∀ (t : Target) i, t.Plain → (f t i).1.Plain)
    (h : t.Plain) (ids : List Int) : (Target.forThreads f t ids).1.Plain := by
  induction ids generalizing t with
  | nil => exact h
  | cons i rest ih => exact ih (hf t i h)

lemma Plain.applyThread (h : t.Plain) (body : ThreadBody) : (t.applyThread body).1.Plain := by
  unfold Target.applyThread
  split
  · exact h
  · dsimp only
    split
    · -- exited
      split
      · exact fun x hx => h x (List.mem_filter.mp hx).1
      · exact h
    · split
      · -- started
        split
        · exact h
        · exact Plain.putThread (t := t.raise) h (DebugThread.plain_new _ _)
      · exact ((Plain.meet (t := t.raise) h _).changeThread _ _ _ fun _ hx => hx)

lemma Plain.applyStop (h : t.Plain) (body : StoppedBody) : (t.applyStop body).1.Plain := by
  unfold Target.applyStop
  split
  · exact h
  · refine Plain.forThreads (fun u i hu => hu.changeThread i _ _ fun x _ => x.plain_suspend _ _) ?_ _
    cases body.threadId with
    | none => exact h
    | some i => exact Plain.meet (t := t.raise) h i

lemma Plain.applyResume (h : t.Plain) (thread : Int) (all : Bool) (detail : String) :
    (t.applyResume thread all detail).1.Plain := by
  unfold Target.applyResume
  split
  · exact h
  · refine Plain.forThreads (fun u i hu => ?_) (t := t.raise) h _
    dsimp only
    split
    · split
      · exact hu.meet i
      · exact (hu.meet i).changeThread i _ _ fun _ hx => hx.resume
    · exact hu.meet i

lemma Plain.mergeThreads (h : t.Plain) (threads : List ThreadInfo) : (t.mergeThreads threads).1.Plain := by
  unfold Target.mergeThreads
  split
  · exact h
  · refine List.foldlRecOn (motive := fun r : Target × List Note => r.1.Plain) threads _ h fun r hr info _ => ?_
    dsimp only
    split
    · next x hx => exact hr.putThread ((hr.thread? hx).rename info.name)
    · exact hr.putThread (DebugThread.plain_new _ _)

lemma Plain.terminate (h : t.Plain) : t.terminate.1.Plain := by
  unfold Target.terminate
  split
  · exact h
  · exact List.forall_mem_nil _

lemma Plain.withBody (h : t.Plain) {α : Type} (shape : Json.Shape α) (body : Json) {f : α → Target × List Note}
    (hf : ∀ a, (f a).1.Plain) : (t.withBody shape body f).1.Plain := by
  unfold Target.withBody
  split
  · exact hf _
  · exact h

/-- Whatever the adapter says, threads are in a stop or run. -/
lemma Plain.heard (h : t.Plain) (name : String) (body : Json) : (Target.heard name body t).1.Plain := by
  unfold Target.heard process_
  split
  · exact h.withBody _ body fun _ => h
  · exact h.withBody _ body h.applyThread
  · split
    · exact h.applyStop _
    · exact h
  · exact h.withBody _ body fun b => h.applyResume b.threadId _ _
  · exact h.withBody _ body fun _ => h
  · exact h.terminate
  · exact h.withBody _ body fun _ => h
  · exact h

lemma Plain.keepFrames (h : t.Plain) (thread : Int) (stop : Nat) (frames : List Stack.Frame) :
    (t.keepFrames thread stop frames).Plain := by
  unfold Target.keepFrames
  split
  · next x hx => exact h.putThread ((h.thread? hx).storeFrames stop frames)
  · exact h

lemma Plain.keepContents (h : t.Plain) (thread : Int) (stop index : Nat) (scopes : List Stack.Scope)
    (contents : List Stack.Variable) : (t.keepContents thread stop index scopes contents).Plain := by
  unfold Target.keepContents
  split
  · next x hx => exact h.putThread ((h.thread? hx).storeContents stop index scopes contents)
  · exact h

/-- Whatever calls do, threads are in a stop or run. -/
lemma Plain.apply (h : t.Plain) (deed : Course.Deed) : (deed.apply t).1.Plain := by
  cases deed with
  | begins | fails => exact h
  | launches =>
    show (launched t).1.Plain
    unfold launched
    split <;> exact h
  | lists threads => exact h.mergeThreads threads
  | resumes thread all detail => exact h.applyResume thread all detail
  | keepsFrames thread stop frames => exact h.keepFrames thread stop frames
  | keepsContents thread stop index scopes contents => exact h.keepContents thread stop index scopes contents

end Plain

/-- Threads are in order of their ids, and are in a stop or run. -/
structure Registry (t : Target) : Prop where
  listed : t.Listed
  plain : t.Plain

namespace Course

variable {id : Nat} {start : World} {schedule : Nat → Turn}

/-- What the target is at first, and whatever the adapter says and calls do keep, it is at all times. -/
theorem target_invariant (hpresent : (start.debugger.target? id).isSome = true) {I : Target → Prop}
    (hdeed : ∀ (deed : Deed) t, I t → I (deed.apply t).1) (hheard : ∀ name body t, I t → I (heard name body t).1)
    (hends : ∀ t, I t → I t.terminate.1) (hstart : I (start.target id)) (n : Nat) :
    I ((course id start schedule n).target id) := by
  induction n with
  | zero => exact hstart
  | succ n ih =>
    cases happens id start schedule n with
    | aside more targets told silent =>
      rw [target_of_aside targets]
      exact ih
    | deed i call work deed turn underway justified world =>
      rw [target_of_change hpresent deed.id_apply world]
      exact hdeed deed _ ih
    | event name body turn world =>
      rw [target_of_change hpresent (fun t => (moves_process t name body).1) world]
      exact hheard name body _ ih
    | ended turn world =>
      rw [target_of_change hpresent (fun t => (moves_terminate t).1) world]
      exact hends _ ih

/-- At all times threads are in order of their ids, and are in a stop or run. -/
theorem registry (hpresent : (start.debugger.target? id).isSome = true) (h : (start.target id).Registry) (n : Nat) :
    ((course id start schedule n).target id).Registry :=
  target_invariant hpresent
    (fun deed t ht => ⟨((deed.tells t).2 ht.listed).1, ht.plain.apply deed⟩)
    (fun name body t ht => ⟨((tells_heard t name body).2 ht.listed).1, ht.plain.heard name body⟩)
    (fun t ht => ⟨((tells_terminate t).2 ht.listed).1, ht.plain.terminate⟩) h n

end Course

/-! ## Something is done for several threads -/

/-- What is done for a thread makes something of this thread alone, and what is told hangs on it alone. -/
structure Singly (f : Target → Int → Target × List Note) (made : Int → Option DebugThread → Option DebugThread)
    (told : Nat → Int → Option DebugThread → List Note) : Prop where
  thread : ∀ t i j, (f t i).1.thread? j = if i = j then made j (t.thread? j) else t.thread? j
  notes : ∀ t i, (f t i).2 = told t.id i (t.thread? i)
  rest : ∀ t i, (f t i).1 = { t with threads := (f t i).1.threads }

/-- The same holds of each of several threads. -/
lemma Singly.forThreads {f : Target → Int → Target × List Note} {made : Int → Option DebugThread → Option DebugThread}
    {told : Nat → Int → Option DebugThread → List Note} (h : Singly f made told) (t : Target) {ids : List Int}
    (hids : ids.Nodup) :
    (∀ j, (Target.forThreads f t ids).1.thread? j = if j ∈ ids then made j (t.thread? j) else t.thread? j) ∧
      (Target.forThreads f t ids).2 = ids.flatMap (fun i => told t.id i (t.thread? i)) ∧
      (Target.forThreads f t ids).1 = { t with threads := (Target.forThreads f t ids).1.threads } := by
  induction ids generalizing t with
  | nil => exact ⟨fun j => rfl, rfl, rfl⟩
  | cons i rest ih =>
    obtain ⟨hnot, hrest⟩ := List.nodup_cons.mp hids
    obtain ⟨hthread, hnotes, hframe⟩ := ih (f t i).1 hrest
    have hid : (f t i).1.id = t.id := by rw [h.rest t i]
    -- those that come later are as they were
    have hlater : ∀ j ∈ rest, (f t i).1.thread? j = t.thread? j := by
      intro j hj
      rw [h.thread, if_neg]
      rintro rfl
      exact hnot hj
    refine ⟨?_, ?_, ?_⟩
    · intro j
      show (Target.forThreads f (f t i).1 rest).1.thread? j = _
      rw [hthread]
      by_cases hj : j ∈ rest
      · rw [if_pos hj, if_pos (List.mem_cons_of_mem _ hj), hlater j hj]
      · rw [if_neg hj, h.thread]
        by_cases hij : i = j
        · rw [if_pos hij, if_pos (List.mem_cons.mpr (.inl hij.symm))]
        · have hmem : j ∉ i :: rest := fun hmem => (List.mem_cons.mp hmem).elim (fun h => hij h.symm) hj
          rw [if_neg hij, if_neg hmem]
    · show (f t i).2 ++ (Target.forThreads f (f t i).1 rest).2 = _
      rw [hnotes, h.notes, hid, List.flatMap_cons]
      congr 1
      exact List.flatMap_congr fun j hj => by rw [hlater j hj]
    · show (Target.forThreads f (f t i).1 rest).1 = { t with threads := (Target.forThreads f (f t i).1 rest).1.threads }
      rw [hframe, h.rest t i]

/-- The ids of threads in order. -/
lemma Listed.ids {t : Target} (h : t.Listed) : (t.threads.map (·.id)).Pairwise (· < ·) := List.pairwise_map.mpr h

lemma mem_ids_iff {t : Target} {i : Int} : i ∈ t.threads.map (·.id) ↔ (t.thread? i).isSome = true := by
  refine ⟨?_, mem_ids⟩
  intro hi
  obtain ⟨x, hx, rfl⟩ := List.mem_map.mp hi
  rw [thread?, List.find?_isSome]
  exact ⟨x, hx, by simp⟩

/-! ## Stops -/

/-- The thread of an id, or what it is when it is first met. -/
def known (t : Target) (i : Int) : DebugThread := (t.thread? i).getD (.unnamed i)

/-- What is told when a thread is met: its beginning, if it was not known. -/
def greeting (t : Target) (i : Int) : List Note :=
  match t.thread? i with
  | some _ => []
  | none => [.thread t.id .create none none (.unnamed i)]

lemma meet_notes (t : Target) (i : Int) : (t.meet i).2 = t.greeting i := by
  unfold meet greeting
  cases t.thread? i <;> rfl

lemma meet_rest (t : Target) (i : Int) : (t.meet i).1 = { t with threads := (t.meet i).1.threads } := by
  unfold meet
  cases t.thread? i <;> rfl

lemma known_meet (t : Target) (i j : Int) : (t.meet i).1.known j = t.known j := by
  unfold known
  rw [thread?_meet]
  split <;> rfl

lemma isSome_meet (t : Target) (i j : Int) :
    ((t.meet i).1.thread? j).isSome = true ↔ i = j ∨ (t.thread? j).isSome = true := by
  rw [thread?_meet]
  split
  · next h => exact iff_of_true rfl (.inl h)
  · next h => exact ⟨.inr, fun hj => hj.resolve_left h⟩

/-- A thread in the stop that the adapter tells of. -/
def halted (b : StoppedBody) (x : DebugThread) : DebugThread where
  id := x.id
  name := x.name
  state := .suspended
  reason := some b.reason
  description := b.description
  stop := x.stop + 1
  frames := none

/-- What a stop that the adapter tells of makes of a target, what is told, and which threads stopped. -/
structure Halts (t : Target) (b : StoppedBody) (u : Target) (notes : List Note) (ids : List Int) : Prop where
  /-- Those that stop are the named one, and all that are known if it is said of all. -/
  stops : ∀ i, i ∈ ids ↔ b.threadId = some i ∨ b.allThreadsStopped = true ∧ (t.thread? i).isSome = true
  ascending : ids.Pairwise (· < ·)
  /-- Each of them is in a new stop, and all others are as they were. -/
  thread : ∀ i, u.thread? i = if i ∈ ids then some (halted b (t.known i)) else t.thread? i
  /-- The named one is announced if it was not known; then a change is told of each that stopped, in order. -/
  notes : notes = b.threadId.toList.flatMap t.greeting ++
    ids.map fun i => .thread t.id .change (some b.reason) b.text (halted b (t.known i))
  /-- Besides, only the version is raised. -/
  rest : u = { t with threads := u.threads, stamp := Deferred.raised t.stamp }

/-- A known thread stops. -/
lemma singly_suspend (b : StoppedBody) :
    Singly (fun t i => t.changeThread i (some b.reason) b.text (·.suspend b.reason b.description))
      (fun _ x => x.map (halted b))
      (fun k _ x => x.toList.map fun x => .thread k .change (some b.reason) b.text (halted b x)) where
  thread t i j := thread?_changeThread t i j _ _ fun _ => rfl
  notes t i := by
    unfold changeThread
    cases t.thread? i <;> rfl
  rest t i := by
    unfold changeThread
    cases t.thread? i <;> rfl

/-- Which threads stop. -/
def stopIds (t : Target) (b : StoppedBody) : List Int :=
  if b.allThreadsStopped then t.threads.map (·.id) else b.threadId.toList

/-- The target once the thread of a stop is known. -/
def met (t : Target) : Option Int → Target × List Note
  | some i => t.meet i
  | none => (t, [])

/-- A stop is for the threads that are known once the named one is. -/
lemma applyStop_eq {t : Target} (hlive : t.isTerminated = false) (b : StoppedBody) :
    t.applyStop b =
      let m := t.raise.met b.threadId
      let r := forThreads (fun t i => t.changeThread i (some b.reason) b.text (·.suspend b.reason b.description)) m.1
        (m.1.stopIds b)
      (r.1, m.2 ++ r.2, m.1.stopIds b) := by
  have halive : ¬ t.isTerminated = true := by simp [hlive]
  unfold applyStop met stopIds
  refine (if_neg halive).trans ?_
  cases b.threadId <;> rfl

/-- What has changed once the thread of a stop is known. -/
structure Meets (t : Target) (named : Option Int) (m : Target × List Note) : Prop where
  known : ∀ j, m.1.known j = t.known j
  there : ∀ j, (m.1.thread? j).isSome = true ↔ named = some j ∨ (t.thread? j).isSome = true
  others : ∀ j, named ≠ some j → m.1.thread? j = t.thread? j
  notes : m.2 = named.toList.flatMap t.greeting
  listed : m.1.Listed
  rest : m.1 = { t with threads := m.1.threads, stamp := Deferred.raised t.stamp }

lemma meets_met {t : Target} (hlisted : t.Listed) (named : Option Int) : t.Meets named (t.raise.met named) := by
  cases named with
  | none => exact ⟨fun _ => rfl, fun _ => ⟨.inr, fun h => h.resolve_left nofun⟩, fun _ _ => rfl, rfl, hlisted, rfl⟩
  | some i =>
    refine ⟨known_meet t.raise i, fun j => ?_, fun j hj => ?_, ?_, ((tells_meet t.raise i).2 hlisted).1, meet_rest t.raise i⟩
    · exact (isSome_meet t.raise i j).trans (or_congr_left (Option.some_inj (a := i) (b := j)).symm)
    · show (t.raise.meet i).1.thread? j = _
      rw [thread?_meet, if_neg fun hij => hj (congrArg some hij)]
      rfl
    · exact (meet_notes t.raise i).trans (List.append_nil _).symm

namespace Meets

variable {t : Target} {b : StoppedBody} {m : Target × List Note}

/-- Those that stop are the named thread, and all that were known if it is said of all. -/
lemma mem_stopIds_iff (h : t.Meets b.threadId m) (i : Int) :
    i ∈ m.1.stopIds b ↔ b.threadId = some i ∨ b.allThreadsStopped = true ∧ (t.thread? i).isSome = true := by
  unfold stopIds
  split
  · next hall =>
    rw [mem_ids_iff, h.there]
    simp only [hall, true_and]
  · next hone => simp [hone]

lemma pairwise_stopIds (h : t.Meets b.threadId m) : (m.1.stopIds b).Pairwise (· < ·) := by
  unfold stopIds
  split
  · exact h.listed.ids
  · cases b.threadId <;> simp

/-- All that stop are known. -/
lemma thread?_of_mem (h : t.Meets b.threadId m) {i : Int} (hi : i ∈ m.1.stopIds b) :
    m.1.thread? i = some (t.known i) := by
  have hsome : (m.1.thread? i).isSome = true := (h.there i).mpr (((h.mem_stopIds_iff i).mp hi).imp_right And.right)
  obtain ⟨x, hx⟩ := Option.isSome_iff_exists.mp hsome
  rw [hx, ← h.known, Target.known, hx]
  rfl

end Meets

/-- A stop halts the threads that it is about. -/
theorem halts_applyStop {t : Target} (hlisted : t.Listed) (hlive : t.isTerminated = false) (b : StoppedBody) :
    t.Halts b (t.applyStop b).1 (t.applyStop b).2.1 (t.applyStop b).2.2 := by
  -- the named thread is known from here on
  obtain ⟨m, hm⟩ : ∃ m, m = t.raise.met b.threadId := ⟨_, rfl⟩
  have hmeets : t.Meets b.threadId m := hm ▸ meets_met hlisted b.threadId
  have hid : m.1.id = t.id := by rw [hmeets.rest]
  have hascending := hmeets.pairwise_stopIds
  obtain ⟨hthread, htold, hframe⟩ := (singly_suspend b).forThreads m.1 (hascending.imp Int.ne_of_lt)
  rw [applyStop_eq hlive, ← hm]
  refine ⟨hmeets.mem_stopIds_iff, hascending, ?_, ?_, ?_⟩
  · intro i
    rw [hthread]
    by_cases hi : i ∈ m.1.stopIds b
    · rw [if_pos hi, if_pos hi, hmeets.thread?_of_mem hi]
      rfl
    · rw [if_neg hi, if_neg hi]
      exact hmeets.others i fun hnamed => hi ((hmeets.mem_stopIds_iff i).mpr (.inl hnamed))
  · show m.2 ++ _ = _
    rw [hmeets.notes, htold, hid, List.map_eq_flatMap]
    congr 1
    refine List.flatMap_congr fun i hi => ?_
    rw [hmeets.thread?_of_mem hi]
    rfl
  · show _ = ({ t with threads := _, stamp := _ } : Target)
    rw [hframe, hmeets.rest]

/-! ## Threads that go on -/

/-- A thread that goes on. -/
def goneOn (x : DebugThread) : DebugThread where
  id := x.id
  name := x.name
  state := .running
  reason := none
  description := none
  stop := x.stop
  frames := none

/-- What the adapter's word on threads that go on makes of a target, and what is told. -/
structure Proceeds (t : Target) (thread : Int) (all : Bool) (detail : String) (u : Target) (notes : List Note)
    (ids : List Int) : Prop where
  /-- Those that go on are all that are known if it is said of all, and else the named one. -/
  goes : ∀ i, i ∈ ids ↔ if all then (t.thread? i).isSome = true else i = thread
  ascending : ids.Pairwise (· < ·)
  /-- Each of them runs, and all others are as they were. -/
  thread : ∀ i, u.thread? i = if i ∈ ids then some (goneOn (t.known i)) else t.thread? i
  /-- Each that was not known is announced, and a change is told of each that was not running, in order. -/
  notes : notes = ids.flatMap fun i => t.greeting i ++
    if (t.known i).state = .running then [] else [.thread t.id .change (some detail) none (goneOn (t.known i))]
  /-- Besides, only the version is raised. -/
  rest : u = { t with threads := u.threads, stamp := Deferred.raised t.stamp }

/-- What is done for a thread that goes on. -/
def goOn (detail : String) (t : Target) (i : Int) : Target × List Note :=
  let (t, notes) := t.meet i
  match t.thread? i with
  | some x =>
    if x.state = .running then (t, notes)
    else
      let (t, more) := t.changeThread i (some detail) none (·.resume)
      (t, notes ++ more)
  | none => (t, notes)

lemma goOn_of_running {t : Target} {i : Int} (h : (t.known i).state = .running) (detail : String) :
    goOn detail t i = t.meet i := by
  have hmet : (t.meet i).1.thread? i = some (t.known i) := by rw [thread?_meet, if_pos rfl, known]
  simp only [goOn, hmet, h, if_true]

lemma goOn_of_not_running {t : Target} {i : Int} (h : (t.known i).state ≠ .running) (detail : String) :
    goOn detail t i =
      (((t.meet i).1.changeThread i (some detail) none (·.resume)).1,
        (t.meet i).2 ++ ((t.meet i).1.changeThread i (some detail) none (·.resume)).2) := by
  have hmet : (t.meet i).1.thread? i = some (t.known i) := by rw [thread?_meet, if_pos rfl, known]
  simp only [goOn, hmet, h, if_false]

/-- What becomes of a thread, or of its absence, when it goes on. -/
def onward (i : Int) (x : Option DebugThread) : DebugThread :=
  if (x.getD (.unnamed i)).state = .running then x.getD (.unnamed i) else (x.getD (.unnamed i)).resume

/-- What is told then. -/
def onwardNotes (detail : String) (k : Nat) (i : Int) (x : Option DebugThread) : List Note :=
  (match x with
    | some _ => []
    | none => [.thread k .create none none (.unnamed i)]) ++
  if (x.getD (.unnamed i)).state = .running then [] else [.thread k .change (some detail) none (onward i x)]

/-- A thread goes on. -/
lemma singly_goOn (detail : String) : Singly (goOn detail) (fun i x => some (onward i x)) (onwardNotes detail) where
  thread t i j := by
    by_cases hrunning : (t.known i).state = .running
    · rw [goOn_of_running hrunning, thread?_meet]
      split
      · next hij =>
        subst hij
        exact congrArg some (if_pos hrunning).symm
      · rfl
    · rw [goOn_of_not_running hrunning, thread?_changeThread _ _ _ _ _ DebugThread.id_resume, thread?_meet]
      split
      · next hij =>
        subst hij
        exact congrArg some (if_neg hrunning).symm
      · rfl
  notes t i := by
    show _ = t.greeting i ++
      if (t.known i).state = .running then [] else [.thread t.id .change (some detail) none (onward i (t.thread? i))]
    by_cases hrunning : (t.known i).state = .running
    · rw [goOn_of_running hrunning, meet_notes, if_pos hrunning, List.append_nil]
    · have hmet : (t.meet i).1.thread? i = some (t.known i) := by rw [thread?_meet, if_pos rfl, known]
      have hid : (t.meet i).1.id = t.id := by rw [meet_rest]
      rw [goOn_of_not_running hrunning, meet_notes, if_neg hrunning]
      simp only [changeThread, hmet, threadNote, hid]
      have honward : onward i (t.thread? i) = (t.known i).resume := if_neg hrunning
      rw [honward]
  rest t i := by
    by_cases hrunning : (t.known i).state = .running
    · rw [goOn_of_running hrunning]
      exact meet_rest t i
    · have hmet : (t.meet i).1.thread? i = some (t.known i) := by rw [thread?_meet, if_pos rfl, known]
      rw [goOn_of_not_running hrunning]
      simp only [changeThread, hmet, putThread]
      rw [meet_rest]

lemma applyResume_eq {t : Target} (hlive : t.isTerminated = false) (thread : Int) (all : Bool) (detail : String) :
    t.applyResume thread all detail =
      forThreads (goOn detail) t.raise (if all then t.threads.map (·.id) else [thread]) := by
  unfold applyResume
  rw [if_neg (by simp [hlive])]
  rfl

lemma Plain.known {t : Target} (h : t.Plain) (i : Int) : (t.known i).Plain := by
  unfold Target.known
  cases hx : t.thread? i with
  | none => exact DebugThread.plain_new i _
  | some x => exact h.thread? hx

/-- Of a thread that runs nothing is left to drop. -/
lemma onward_eq {t : Target} (h : t.Plain) (i : Int) : onward i (t.thread? i) = goneOn (t.known i) := by
  have hplain := h.known i
  show (if (t.known i).state = .running then t.known i else (t.known i).resume) = _
  rw [hplain.resume_eq]
  split
  · next hrunning =>
    rcases hplain with hstopped | ⟨-, hreason, hdescription, hframes⟩
    · cases hrunning.symm.trans hstopped
    · unfold goneOn
      rw [← hrunning, ← hframes]
      nth_rewrite 1 [← hreason]
      rw [← hdescription]
  · rfl

/-- Threads that go on run. -/
theorem proceeds_applyResume {t : Target} (h : t.Registry) (hlive : t.isTerminated = false) (thread : Int) (all : Bool)
    (detail : String) : t.Proceeds thread all detail (t.applyResume thread all detail).1
      (t.applyResume thread all detail).2 (if all then t.threads.map (·.id) else [thread]) := by
  have hgoes : ∀ i, i ∈ (if all then t.threads.map (·.id) else [thread]) ↔
      if all then (t.thread? i).isSome = true else i = thread := by
    intro i
    cases all with
    | true => exact mem_ids_iff
    | false => exact List.mem_singleton
  have hascending : (if all then t.threads.map (·.id) else [thread]).Pairwise (· < ·) := by
    split
    · exact h.listed.ids
    · exact List.pairwise_singleton _ _
  obtain ⟨hthread, htold, hframe⟩ := (singly_goOn detail).forThreads t.raise (hascending.imp Int.ne_of_lt)
  rw [applyResume_eq hlive]
  refine ⟨hgoes, hascending, ?_, ?_, ?_⟩
  · intro i
    rw [hthread, ← onward_eq h.plain i]
    rfl
  · rw [htold]
    refine List.flatMap_congr fun i _ => ?_
    rw [← onward_eq h.plain i]
    rfl
  · rw [hframe]
    rfl

/-! ## The adapter's word -/

/-- What a target makes of a body that tells of a stop, or of threads that go on. -/
structure Obeys (t : Target) (body : Json) : Prop where
  stopped : ∀ b, StoppedBody.shape body = .ok b →
    ∃ u notes ids, t.process_ "stopped" body = (u, notes, .stopped ids) ∧ t.Halts b u notes ids
  continued : ∀ b, ContinuedBody.shape body = .ok b →
    ∃ u notes ids, t.process_ "continued" body = (u, notes, .none) ∧
      t.Proceeds b.threadId b.allThreadsContinued "continued" u notes ids
  /-- A body of another shape does nothing. -/
  not_stopped : ∀ e, StoppedBody.shape body = .error e → t.process_ "stopped" body = (t, [], .none)
  not_continued : ∀ e, ContinuedBody.shape body = .error e → t.process_ "continued" body = (t, [], .none)

lemma obeys {t : Target} (h : t.Registry) (hlive : t.isTerminated = false) (body : Json) : t.Obeys body where
  stopped b hb := by
    have hprocess : t.process_ "stopped" body = ((t.applyStop b).1, (t.applyStop b).2.1, .stopped (t.applyStop b).2.2) := by
      simp only [process_, hb]
    exact ⟨_, _, _, hprocess, halts_applyStop h.listed hlive b⟩
  continued b hb := by
    have hprocess : t.process_ "continued" body =
        ((t.applyResume b.threadId b.allThreadsContinued "continued").1,
          (t.applyResume b.threadId b.allThreadsContinued "continued").2, .none) := by
      simp only [process_, withBody, hb]
    exact ⟨_, _, _, hprocess, proceeds_applyResume h hlive b.threadId b.allThreadsContinued "continued"⟩
  not_stopped e he := by simp only [process_, he]
  not_continued e he := by simp only [process_, withBody, he]

namespace Course

variable {id : Nat} {start : World} {schedule : Nat → Turn}

/-- The turn of an event. -/
lemma world_of_event {n : Nat} {name : String} {body : Json} (hevent : schedule n = .event name body) :
    (course id start schedule (n + 1)).world = (course id start schedule n).world.changeTarget id (heard name body) := by
  show ((course id start schedule n).after id (schedule n)).world = _
  rw [hevent]
  rfl

/-- At any time of any run a target that has not ended makes of the adapter's word on stops, and on threads that go on,
what it says: of the threads that it is about, and of no others. -/
theorem halts_or_proceeds (hpresent : (start.debugger.target? id).isSome = true) (h : (start.target id).Registry)
    {n : Nat} (hlive : ((course id start schedule n).target id).isTerminated = false) (body : Json) :
    ((course id start schedule n).target id).Obeys body ∧ ∀ name, schedule n = .event name body →
      (course id start schedule (n + 1)).target id = (((course id start schedule n).target id).process_ name body).1 ∧
      (course id start schedule (n + 1)).world.told = (course id start schedule n).world.told ++
        (((course id start schedule n).target id).process_ name body).2.1.map .debug := by
  refine ⟨obeys (registry hpresent h n) hlive body, fun name hevent => ?_⟩
  have hworld : (course id start schedule (n + 1)).world =
      (course id start schedule n).world.changeTarget id (heard name body) := world_of_event hevent
  refine ⟨target_of_change hpresent (fun t => (moves_process t name body).1) hworld, ?_⟩
  rw [hworld]
  rfl

/-- Two threads start, and all stop, a third one with them. -/
def threeStop (n : Nat) : Turn :=
  [Turn.event "thread" (.obj [("reason", "started"), ("threadId", .int 7)]),
    .event "thread" (.obj [("reason", "started"), ("threadId", .int 3)]),
    .event "stopped" (.obj [("reason", "pause"), ("threadId", .int 5), ("allThreadsStopped", .bool true)])].getD n .ended

/-- The third thread is told of first, and then the stops in order. -/
theorem halts_threeStop : ∃ u notes, ((course 1 Freshness.oneTarget threeStop 2).target 1).process_ "stopped"
      (.obj [("reason", "pause"), ("threadId", .int 5), ("allThreadsStopped", .bool true)]) =
        (u, notes, .stopped [3, 5, 7]) ∧
    notes.length = 4 ∧ (course 1 Freshness.oneTarget threeStop 3).target 1 = u := by
  have hpresent : (Freshness.oneTarget.debugger.target? 1).isSome = true := by decide
  have hregistry : (Freshness.oneTarget.target 1).Registry := ⟨List.Pairwise.nil, List.forall_mem_nil _⟩
  have hlive : ((course 1 Freshness.oneTarget threeStop 2).target 1).isTerminated = false := by decide +kernel
  obtain ⟨hobeys, hrun⟩ := halts_or_proceeds hpresent hregistry hlive
    (.obj [("reason", "pause"), ("threadId", .int 5), ("allThreadsStopped", .bool true)])
  obtain ⟨u, notes, ids, hprocess, hhalts⟩ := hobeys.stopped ⟨"pause", none, some 5, true, none⟩ rfl
  obtain ⟨hnext, -⟩ := hrun "stopped" rfl
  have heffect : (((course 1 Freshness.oneTarget threeStop 2).target 1).process_ "stopped"
      (.obj [("reason", "pause"), ("threadId", .int 5), ("allThreadsStopped", .bool true)])).2.2 = .stopped [3, 5, 7] := by
    decide +kernel
  rw [hprocess] at heffect
  obtain rfl : ids = [3, 5, 7] := Effect.stopped.inj heffect
  refine ⟨u, notes, hprocess, ?_, hnext.trans (congrArg Prod.fst hprocess)⟩
  rw [hhalts.notes]
  decide +kernel

end Course

end Target

end Switchboard.Debug
