import Switchboard.Proofs.Debug.Deeds
import Switchboard.Proofs.Debug.Freshness

/-!
# How targets end

* `World.Ended`: the editor was told of the end of every thread whose beginning it was told of;
* `Target.Announces`: a change tells of the threads that come and go, so the editor knows which threads a target
  has (`announced_iff`);
* `Target.Orderly`: besides, a target that ends loses its threads, and one that has ended stays as it is;
* `terminated_bare_iff`: a target that has ended has no threads, unless it ended because its launch was refused
  while it had some.

Every change of a target is orderly but for the one that follows a launch that was refused.
-/

namespace Switchboard

/-! ## What the editor knows of threads -/

namespace Message

/-- Is the beginning of a thread of the target told? -/
def creates (id : Nat) (i : Int) : Message → Bool
  | .debug (.thread target .create _ _ x) => target = id && x.id = i
  | _ => false

/-- Is the end of a thread of the target told? -/
def ends (id : Nat) (i : Int) : Message → Bool
  | .debug (.thread target .terminate _ _ x) => target = id && x.id = i
  | _ => false

/-- Is a thread to be taken for alive after a message, if it was before or not? -/
def standing (id : Nat) (i : Int) (alive : Bool) (m : Message) : Bool :=
  if m.creates id i then true else if m.ends id i then false else alive

variable {id : Nat} {i : Int}

lemma standing_of_quiet {m : Message} (hcreates : m.creates id i = false) (hends : m.ends id i = false) (alive : Bool) :
    m.standing id i alive = alive := by
  simp only [standing, hcreates, hends, Bool.false_eq_true, if_false]

/-- What is not of the threads of the target says nothing of them. -/
lemma standing_of_aside {m : Message} (h : m.isOfThreads id = false) (alive : Bool) : m.standing id i alive = alive := by
  refine standing_of_quiet ?_ ?_ alive
  · unfold creates
    split
    · have hne : ¬ _ = id := of_decide_eq_false h
      simp [hne]
    · rfl
  · unfold ends
    split
    · have hne : ¬ _ = id := of_decide_eq_false h
      simp [hne]
    · rfl

lemma foldl_standing_of_quiet {l : List Message} (h : ∀ m ∈ l, ∀ alive, m.standing id i alive = alive) (alive : Bool) :
    l.foldl (standing id i) alive = alive := by
  induction l generalizing alive with
  | nil => rfl
  | cons m rest ih =>
    rw [List.foldl_cons, h m (List.mem_cons_self ..) alive]
    exact ih (fun m hm => h m (List.mem_cons_of_mem _ hm)) alive

/-- A thread is not taken for alive when every message that tells of its beginning is followed by one that tells of
its end, and so is the start if it was alive then. -/
lemma foldl_standing_eq_false (l : List Message) (alive : Bool) :
    l.foldl (standing id i) alive = false ↔
      (∀ before m after, l = before ++ m :: after → m.creates id i = true → ∃ x ∈ after, x.ends id i = true) ∧
        (alive = true → ∃ x ∈ l, x.ends id i = true) := by
  induction l generalizing alive with
  | nil => simp
  | cons m rest ih =>
    rw [List.foldl_cons, ih]
    constructor
    · rintro ⟨hrest, hstart⟩
      refine ⟨fun before x after heq hx => ?_, fun halive => ?_⟩
      · -- the message that tells of the beginning is the first one, or one of the rest
        rcases List.cons_eq_append_iff.mp heq with ⟨rfl, h⟩ | ⟨before, rfl, h⟩
        · obtain ⟨rfl, rfl⟩ := List.cons.inj h
          exact hstart (by simp only [standing, hx, if_true])
        · exact hrest before x after h hx
      · by_cases hm : m.ends id i = true
        · exact ⟨m, List.mem_cons_self .., hm⟩
        · obtain ⟨x, hx, hends⟩ := hstart (by simp [standing, hm, halive])
          exact ⟨x, List.mem_cons_of_mem _ hx, hends⟩
    · rintro ⟨hall, hstart⟩
      refine ⟨fun before x after heq hx => hall (m :: before) x after (by rw [heq]; rfl) hx, fun hstanding => ?_⟩
      by_cases hm : m.creates id i = true
      · exact hall [] m rest rfl hm
      · have hends : m.ends id i = false := by
          by_contra h
          simp [standing, hm, h] at hstanding
        have halive : alive = true := by simpa [standing, hm, hends] using hstanding
        obtain ⟨x, hx, hxends⟩ := hstart halive
        rcases List.mem_cons.mp hx with rfl | hx
        · cases hends.symm.trans hxends
        · exact ⟨x, hx, hxends⟩

end Message

namespace World

/-- Whenever the beginning of the thread was told, its end was told after that. -/
def Ended (w : World) (id : Nat) (i : Int) : Prop :=
  ∀ before m after, w.told = before ++ m :: after → m.creates id i = true → ∃ x ∈ after, x.ends id i = true

/-- Is the thread to be taken for alive, by what was told? -/
def announced (w : World) (id : Nat) (i : Int) : Bool := w.told.foldl (Message.standing id i) false

lemma announced_eq_false_iff (w : World) (id : Nat) (i : Int) : w.announced id i = false ↔ w.Ended id i := by
  rw [announced, Message.foldl_standing_eq_false]
  exact and_iff_left nofun

end World

namespace Debug.Target

/-! ## Changes that tell of threads -/

/-- Who follows what is told of a target knows which threads it has. -/
def Announces (t : Target) (r : Target × List Note) : Prop :=
  r.1.id = t.id ∧
    ∀ i, (r.2.map Message.debug).foldl (Message.standing t.id i) (t.thread? i).isSome = (r.1.thread? i).isSome

namespace Announces

lemma append {t u w : Target} {a b : List Note} (hu : t.Announces (u, a)) (hw : u.Announces (w, b)) :
    t.Announces (w, a ++ b) := by
  refine ⟨hw.1.trans hu.1, fun i => ?_⟩
  have hi := hw.2 i
  rw [hu.1] at hi
  rw [List.map_append, List.foldl_append, hu.2 i]
  exact hi

/-- No thread comes or goes, and nothing of that kind is told. -/
lemma of_quiet {t u : Target} {notes : List Note} (hid : u.id = t.id)
    (hquiet : ∀ m ∈ notes.map Message.debug, ∀ i, m.creates t.id i = false ∧ m.ends t.id i = false)
    (h : ∀ i, (u.thread? i).isSome = (t.thread? i).isSome) : t.Announces (u, notes) :=
  ⟨hid, fun i => (Message.foldl_standing_of_quiet
    (fun m hm => Message.standing_of_quiet (hquiet m hm i).1 (hquiet m hm i).2) _).trans (h i).symm⟩

lemma refl (t : Target) : t.Announces (t, []) := of_quiet rfl (List.forall_mem_nil _) fun _ => rfl

end Announces

/-- A thread is put into the target, and its beginning is told. -/
lemma announces_create (t : Target) (detail data : Option String) (x : DebugThread) :
    t.Announces (t.putThread x, [t.threadNote .create detail data x]) := by
  refine ⟨rfl, fun i => ?_⟩
  simp only [thread?_putThread, threadNote, List.map_cons, List.map_nil, List.foldl_cons, List.foldl_nil,
    Message.standing, Message.creates, Message.ends]
  by_cases hi : x.id = i <;> simp [hi]

/-- A thread that is there is put back. -/
lemma isSome_putThread {t : Target} {x : DebugThread} (h : (t.thread? x.id).isSome = true) (i : Int) :
    ((t.putThread x).thread? i).isSome = (t.thread? i).isSome := by
  rw [thread?_putThread]
  split
  · next hi => rw [← hi, h]; rfl
  · rfl

/-- The end of every thread is told, and they are gone. -/
lemma announces_end (t : Target) (detail data : Option String) {u : Target} (hid : u.id = t.id) (hu : u.threads = []) :
    t.Announces (u, t.threads.map fun x => t.threadNote .terminate detail data x.terminate) := by
  refine ⟨hid, fun i => ?_⟩
  have hgone : ∀ (l : List DebugThread) (alive : Bool),
      ((l.map fun x => t.threadNote .terminate detail data x.terminate).map Message.debug).foldl
          (Message.standing t.id i) alive = (alive && !l.any (·.id = i)) := by
    intro l
    induction l with
    | nil => simp
    | cons x rest ih =>
      intro alive
      rw [List.map_cons, List.map_cons, List.foldl_cons, ih]
      by_cases hx : x.id = i <;>
        simp [Message.standing, Message.creates, Message.ends, threadNote, DebugThread.terminate, hx]
  have hsome : (t.thread? i).isSome = t.threads.any (·.id = i) := by
    rw [thread?, Bool.eq_iff_iff, List.find?_isSome, List.any_eq_true]
  rw [hgone, hsome, Bool.and_not_self]
  simp [thread?, hu]

/-! ## Changes in good order -/

/-- A change that tells of threads, and does not begin or end the target or move it to another session. -/
structure Minor (t : Target) (r : Target × List Note) : Prop where
  announces : t.Announces r
  state : r.1.state = t.state
  session : r.1.session = t.session

namespace Minor

lemma refl (t : Target) : t.Minor (t, []) := ⟨.refl t, rfl, rfl⟩

lemma append {t u w : Target} {a b : List Note} (hu : t.Minor (u, a)) (hw : u.Minor (w, b)) : t.Minor (w, a ++ b) :=
  ⟨hu.announces.append hw.announces, hw.state.trans hu.state, hw.session.trans hu.session⟩

end Minor

lemma minor_raise (t : Target) : t.Minor (t.raise, []) :=
  ⟨.of_quiet rfl (List.forall_mem_nil _) fun _ => rfl, rfl, rfl⟩

lemma minor_meet (t : Target) (i : Int) : t.Minor (t.meet i) := by
  unfold meet
  split
  · exact .refl t
  · exact ⟨announces_create t none none _, rfl, rfl⟩

lemma minor_changeThread (t : Target) (i : Int) (detail data : Option String) {f : DebugThread → DebugThread}
    (hid : ∀ x, (f x).id = x.id) : t.Minor (t.changeThread i detail data f) := by
  unfold changeThread
  split
  · next x hx =>
    refine ⟨.of_quiet rfl ?_ (isSome_putThread ?_), rfl, rfl⟩
    · simp [threadNote, Message.creates, Message.ends]
    · rw [hid, id_of_thread? hx, hx]
      rfl
  · exact .refl t

lemma minor_forThreads {f : Target → Int → Target × List Note} (hf : ∀ (t : Target) (i : Int), t.Minor (f t i))
    (t : Target) (ids : List Int) : t.Minor (forThreads f t ids) := by
  induction ids generalizing t with
  | nil => exact .refl t
  | cons i rest ih => exact (hf t i).append (ih (f t i).1)

/-- A change in good order: it tells of threads, a target that has ended stays as it is, and one that ends has no
threads left. -/
structure Orderly (t : Target) (r : Target × List Note) : Prop where
  announces : t.Announces r
  stays : t.isTerminated = true → r.1.isTerminated = true ∧ ∀ i, (r.1.thread? i).isSome = (t.thread? i).isSome
  bare : t.isTerminated = false → r.1.isTerminated = true → ∀ i, r.1.thread? i = none

namespace Orderly

lemma refl (t : Target) : t.Orderly (t, []) where
  announces := .refl t
  stays h := ⟨h, fun _ => rfl⟩
  bare h h' := nomatch h.symm.trans h'

/-- A change that does not end the target, and leaves threads of a target that has ended alone. -/
lemma of_minor {t : Target} {r : Target × List Note} (h : t.Minor r)
    (hstays : t.isTerminated = true → ∀ i, (r.1.thread? i).isSome = (t.thread? i).isSome) : t.Orderly r := by
  have hterminated : r.1.isTerminated = t.isTerminated :=
    congrArg (fun s : Target.State => decide (s = .terminated)) h.state
  exact ⟨h.announces, fun ht => ⟨hterminated.trans ht, hstays ht⟩,
    fun ht hr => nomatch (hterminated.symm.trans hr).symm.trans ht⟩

/-- Nothing changes of a target that has to do with threads. -/
lemma of_threads_eq {t u : Target} {notes : List Note} (hid : u.id = t.id) (hstate : u.state = t.state)
    (hsession : u.session = t.session) (hthreads : u.threads = t.threads)
    (hquiet : ∀ m ∈ notes.map Message.debug, ∀ i, m.creates t.id i = false ∧ m.ends t.id i = false) :
    t.Orderly (u, notes) := by
  have hsame : ∀ i, u.thread? i = t.thread? i := fun i => by simp only [thread?, hthreads]
  exact of_minor ⟨.of_quiet hid hquiet fun i => by rw [hsame], hstate, hsession⟩ fun _ i => by rw [hsame]

end Orderly

/-- A change that tells of threads, does not begin or end the target, and does nothing to one that has ended. -/
structure Guarded (t : Target) (r : Target × List Note) : Prop extends t.Minor r where
  inert : t.isTerminated = true → r = (t, [])

namespace Guarded

lemma refl (t : Target) : t.Guarded (t, []) := ⟨.refl t, fun _ => rfl⟩

/-- A change of a target that has not ended. -/
lemma of_live {t : Target} {r : Target × List Note} (hlive : ¬ t.isTerminated = true) (h : t.Minor r) : t.Guarded r :=
  ⟨h, fun ht => absurd ht hlive⟩

lemma orderly {t : Target} {r : Target × List Note} (h : t.Guarded r) : t.Orderly r := by
  refine .of_minor h.toMinor ?_
  intro ht i
  rw [h.inert ht]

end Guarded

lemma orderly_terminate (t : Target) : t.Orderly t.terminate := by
  unfold terminate
  split
  · exact .refl t
  · next hlive =>
    have hends := announces_end t.raise (some "terminated") none
      (u := { t.raise with threads := [], state := .terminated }) rfl rfl
    refine ⟨(minor_raise t).announces.append (hends.append (.of_quiet rfl ?_ fun _ => rfl)),
      fun ht => absurd ht hlive, fun _ _ _ => rfl⟩
    simp [Message.creates, Message.ends]

lemma guarded_applyThread (t : Target) (body : ThreadBody) : t.Guarded (t.applyThread body) := by
  unfold applyThread
  split
  · exact .refl t
  · next hlive =>
    refine .of_live hlive ?_
    dsimp only
    split
    · -- exited
      split
      · next x hx =>
        refine (minor_raise t).append ⟨⟨rfl, fun i => ?_⟩, rfl, rfl⟩
        have hid : x.id = body.threadId := id_of_thread? hx
        rw [thread?_filter]
        by_cases hi : i = body.threadId
        · simp [hi, hid, Message.standing, Message.creates, Message.ends, threadNote, DebugThread.terminate]
        · simp [hi, Ne.symm hi, hid, Message.standing, Message.creates, Message.ends, threadNote, DebugThread.terminate]
      · exact minor_raise t
    · split
      · -- started
        split
        · exact minor_raise t
        · exact (minor_raise t).append ⟨announces_create _ _ _ _, rfl, rfl⟩
      · exact (minor_raise t).append ((minor_meet _ _).append (minor_changeThread _ _ _ _ fun _ => rfl))

lemma guarded_applyStop (t : Target) (body : StoppedBody) :
    t.Guarded ((t.applyStop body).1, (t.applyStop body).2.1) := by
  unfold applyStop
  split
  · exact .refl t
  · next hlive =>
    refine .of_live hlive ((minor_raise t).append (Minor.append ?_ (minor_forThreads (fun u i => ?_) _ _)))
    · cases body.threadId with
      | none => exact .refl _
      | some i => exact minor_meet _ i
    · exact minor_changeThread u i _ _ fun _ => rfl

lemma guarded_applyResume (t : Target) (thread : Int) (all : Bool) (detail : String) :
    t.Guarded (t.applyResume thread all detail) := by
  unfold applyResume
  split
  · exact .refl t
  · next hlive =>
    refine .of_live hlive ((minor_raise t).append (minor_forThreads (fun u i => ?_) _ _))
    dsimp only
    split
    · split
      · exact minor_meet u i
      · exact (minor_meet u i).append (minor_changeThread _ i _ _ DebugThread.id_resume)
    · exact minor_meet u i

lemma isSome_keepFrames (t : Target) (thread : Int) (stop : Nat) (frames : List Stack.Frame) (i : Int) :
    ((t.keepFrames thread stop frames).thread? i).isSome = (t.thread? i).isSome := by
  rcases thread?_keepFrames t thread stop frames i with h | ⟨-, x, hx, -, h⟩
  · rw [h]
  · rw [h, hx]
    rfl

lemma isSome_keepContents (t : Target) (thread : Int) (stop index : Nat) (scopes : List Stack.Scope)
    (contents : List Stack.Variable) (i : Int) :
    ((t.keepContents thread stop index scopes contents).thread? i).isSome = (t.thread? i).isSome := by
  rcases thread?_keepContents t thread stop index scopes contents i with h | ⟨-, x, _, hx, -, -, h⟩
  · rw [h]
  · rw [h, hx]
    rfl

lemma guarded_mergeThreads (t : Target) (threads : List ThreadInfo) : t.Guarded (t.mergeThreads threads) := by
  unfold mergeThreads
  split
  · exact .refl t
  · next hlive =>
    refine .of_live hlive ?_
    -- what has been taken in so far was announced
    refine List.foldlRecOn threads _ (Minor.refl t) fun r hr info _ => ?_
    obtain ⟨u, notes⟩ := r
    dsimp only
    split
    · next x hx =>
      have hknown : u.Announces (u.putThread { x with name := info.name }, []) :=
        .of_quiet rfl (List.forall_mem_nil _) (isSome_putThread (by
          show (u.thread? x.id).isSome = true
          rw [id_of_thread? hx, hx]
          rfl))
      simpa using hr.append ⟨hknown, rfl, rfl⟩
    · exact hr.append ⟨announces_create u _ _ _, rfl, rfl⟩

lemma orderly_withBody {α : Type} (t : Target) (shape : Json.Shape α) (body : Json) {f : α → Target × List Note}
    (hf : ∀ a, t.Orderly (f a)) : t.Orderly ((t.withBody shape body f).1, (t.withBody shape body f).2.1) := by
  unfold withBody
  split
  · exact hf _
  · exact .refl t

/-- Whatever the adapter says, the target changes in good order. -/
theorem orderly_heard (t : Target) (name : String) (body : Json) : t.Orderly (heard name body t) := by
  unfold heard process_
  split
  · exact orderly_withBody t _ body fun b => .of_threads_eq rfl rfl rfl rfl (by simp [Message.creates, Message.ends])
  · exact orderly_withBody t _ body fun b => (guarded_applyThread t b).orderly
  · split
    · exact (guarded_applyStop t _).orderly
    · exact .refl t
  · exact orderly_withBody t _ body fun b => (guarded_applyResume t b.threadId _ _).orderly
  · exact orderly_withBody t _ body fun b => .of_threads_eq rfl rfl rfl rfl (by simp [Message.creates, Message.ends])
  · exact orderly_terminate t
  · exact orderly_withBody t _ body fun b => .of_threads_eq rfl rfl rfl rfl (by simp [Message.creates, Message.ends])
  · exact .refl t

namespace Course

/-- Every deed but one is in good order. -/
lemma Deed.orderly {v : Viewpoint Wait World} {id : Nat} {call : Call} {m : Nat} {deed : Deed}
    (h : deed.Justified v id call m) (hdeed : deed ≠ .fails) :
    ((v.state m).target id).Orderly (deed.apply ((v.state m).target id)) := by
  -- what the deed rests on rules out that the target has ended, or else the deed does nothing then
  cases deed with
  | begins =>
    have hcreated := h.2
    refine ⟨.of_quiet rfl (by simp [Message.creates, Message.ends]) fun _ => rfl, fun ht => ?_, fun _ ht => nomatch ht⟩
    simp [isTerminated, hcreated] at ht
  | launches =>
    show Orderly _ (launched _)
    unfold launched
    split
    · next hlaunching =>
      refine ⟨.of_quiet rfl (by simp [Message.creates, Message.ends]) fun _ => rfl, fun ht => ?_, fun _ ht => nomatch ht⟩
      simp [isTerminated, hlaunching] at ht
    · exact .refl _
  | fails => exact absurd rfl hdeed
  | lists threads => exact (guarded_mergeThreads _ threads).orderly
  | resumes thread all detail => exact (guarded_applyResume _ thread all detail).orderly
  | keepsFrames thread stop frames =>
    have hsame := isSome_keepFrames ((v.state m).target id) thread stop frames
    exact .of_minor ⟨.of_quiet (id_keepFrames ..) (List.forall_mem_nil _) hsame, state_keepFrames .., session_keepFrames ..⟩ fun _ => hsame
  | keepsContents thread stop index scopes contents =>
    have hsame := isSome_keepContents ((v.state m).target id) thread stop index scopes contents
    exact .of_minor ⟨.of_quiet (id_keepContents ..) (List.forall_mem_nil _) hsame, state_keepContents ..,
      session_keepContents ..⟩ fun _ => hsame

variable {id : Nat} {start : World} {schedule : Nat → Turn}

/-- At this time a launch was refused, and the call that had asked for it ends the target. -/
def Refused (id : Nat) (start : World) (schedule : Nat → Turn) (m : Nat) : Prop :=
  ∃ i root work, schedule m = .step i ∧ (course id start schedule m).calls[i]? = some (.start root, work) ∧
    (course id start schedule (m + 1)).world = (course id start schedule m).world.changeTarget id launchFailed

/-- From one time to the next the target stays as it is or changes in good order, or its launch was refused. -/
inductive Passes (id : Nat) (start : World) (schedule : Nat → Turn) (n : Nat) : Prop where
  | aside (more : List Message)
      (told : (course id start schedule (n + 1)).world.told = (course id start schedule n).world.told ++ more)
      (silent : ∀ m ∈ more, m.isOfThreads id = false)
      (target : (course id start schedule (n + 1)).target id = (course id start schedule n).target id)
  | orderly (f : Target → Target × List Note)
      (orderly : ((course id start schedule n).target id).Orderly (f ((course id start schedule n).target id)))
      (world : (course id start schedule (n + 1)).world = (course id start schedule n).world.changeTarget id f)
      (target : (course id start schedule (n + 1)).target id = (f ((course id start schedule n).target id)).1)
  | refused (h : Refused id start schedule n)
      (world : (course id start schedule (n + 1)).world = (course id start schedule n).world.changeTarget id launchFailed)
      (target : (course id start schedule (n + 1)).target id = (launchFailed ((course id start schedule n).target id)).1)

lemma passes (hpresent : (start.debugger.target? id).isSome = true) (n : Nat) : Passes id start schedule n := by
  cases happens id start schedule n with
  | aside more targets told silent => exact .aside more told silent (target_of_aside targets)
  | deed i call work deed turn underway justified world =>
    have target := target_of_change hpresent deed.id_apply world
    by_cases hdeed : deed = .fails
    · subst hdeed
      obtain ⟨root, rfl⟩ := justified
      exact .refused ⟨i, root, work, turn, underway, world⟩ world target
    · exact .orderly _ (deed.orderly justified hdeed) world target
  | event name body turn world =>
    exact .orderly _ (orderly_heard _ name body) world
      (target_of_change hpresent (fun t => (moves_process t name body).1) world)
  | ended turn world =>
    exact .orderly _ (orderly_terminate _) world (target_of_change hpresent (fun t => (moves_terminate t).1) world)

/-- A change that tells of threads keeps the editor informed. -/
lemma announced_changeTarget {w : World} (hpresent : (w.debugger.target? id).isSome = true)
    {f : Target → Target × List Note} (hf : (w.target id).Announces (f (w.target id))) {i : Int}
    (h : w.announced id i = ((w.target id).thread? i).isSome) :
    (w.changeTarget id f).announced id i = ((f (w.target id)).1.thread? i).isSome := by
  show (w.told ++ (f (w.target id)).2.map Message.debug).foldl (Message.standing id i) false = _
  have hnotes := hf.2 i
  rw [id_target hpresent] at hnotes
  rw [List.foldl_append, show w.told.foldl (Message.standing id i) false = _ from h, hnotes]

/-- At all times the editor takes for alive exactly the threads that the target has. -/
theorem announced_iff (hpresent : (start.debugger.target? id).isSome = true) (hthreads : (start.target id).threads = [])
    (hended : ∀ i, start.Ended id i) (n : Nat) (i : Int) :
    (course id start schedule n).world.announced id i = (((course id start schedule n).target id).thread? i).isSome := by
  induction n with
  | zero =>
    have hnone : (start.target id).thread? i = none := by simp [thread?, hthreads]
    show start.announced id i = ((start.target id).thread? i).isSome
    rw [(World.announced_eq_false_iff ..).mpr (hended i), hnone]
    rfl
  | succ n ih =>
    cases passes hpresent n with
    | aside more told silent target =>
      rw [target, ← ih, World.announced, World.announced, told, List.foldl_append]
      exact Message.foldl_standing_of_quiet (fun m hm => Message.standing_of_aside (silent m hm)) _
    | orderly f orderly world target =>
      rw [target, world]
      exact announced_changeTarget (present hpresent n) orderly.announces ih
    | refused h world target =>
      rw [target, world]
      refine announced_changeTarget (present hpresent n) (.of_quiet rfl ?_ fun _ => rfl) ih
      simp [launchFailed, Message.creates, Message.ends]

lemma threads_eq_nil_iff (t : Target) : t.threads = [] ↔ ∀ i, t.thread? i = none := by
  refine ⟨fun h i => by simp [thread?, h], fun h => List.eq_nil_iff_forall_not_mem.mpr fun x hx => ?_⟩
  simpa using List.find?_eq_none.mp (h x.id) x hx

/-- From one time to the next a target that has ended stays ended and keeps the threads that it has. -/
lemma ended_succ (hpresent : (start.debugger.target? id).isSome = true) {n : Nat}
    (hended : ((course id start schedule n).target id).isTerminated = true) :
    ((course id start schedule (n + 1)).target id).isTerminated = true ∧
      ∀ i, (((course id start schedule (n + 1)).target id).thread? i).isSome =
        (((course id start schedule n).target id).thread? i).isSome := by
  cases passes hpresent n with
  | aside more told silent target =>
    rw [target]
    exact ⟨hended, fun _ => rfl⟩
  | orderly f orderly world target =>
    rw [target]
    exact orderly.stays hended
  | refused h world target =>
    rw [target]
    exact ⟨rfl, fun _ => rfl⟩

/-- From one time to the next a target that has ended stays as it is. -/
lemma stays_succ (hpresent : (start.debugger.target? id).isSome = true) {n : Nat}
    (hended : ((course id start schedule n).target id).isTerminated = true) :
    ((course id start schedule (n + 1)).target id).isTerminated = true ∧
      (((course id start schedule (n + 1)).target id).threads = [] ↔
        ((course id start schedule n).target id).threads = []) := by
  obtain ⟨hstill, hsame⟩ := ended_succ hpresent hended
  refine ⟨hstill, ?_⟩
  rw [threads_eq_nil_iff, threads_eq_nil_iff]
  refine forall_congr' ?_
  intro i
  rw [← Option.not_isSome_iff_eq_none, ← Option.not_isSome_iff_eq_none, hsame]

/-- A target that has ended stays as it is. -/
lemma stays (hpresent : (start.debugger.target? id).isSome = true) {m n : Nat} (hmn : m ≤ n)
    (hended : ((course id start schedule m).target id).isTerminated = true) :
    ((course id start schedule n).target id).isTerminated = true ∧
      (((course id start schedule n).target id).threads = [] ↔
        ((course id start schedule m).target id).threads = []) := by
  induction n, hmn using Nat.le_induction with
  | base => exact ⟨hended, .rfl⟩
  | succ n _ ih =>
    obtain ⟨hstill, hsame⟩ := stays_succ hpresent ih.1
    exact ⟨hstill, hsame.trans ih.2⟩

/-- Whatever the order in which calls, events and everything around a target take their steps: when it has ended it has
no threads, and the editor was told of the end of every thread, exactly if its launch was not refused while it had
threads and had not yet ended. -/
theorem terminated_bare_iff {start : World} (hpresent : (start.debugger.target? id).isSome = true)
    (hthreads : (start.target id).threads = []) (hended : ∀ i, start.Ended id i) (schedule : Nat → Turn) (n : Nat)
    (hterminated : ((course id start schedule n).target id).isTerminated = true) :
    (((course id start schedule n).target id).threads = [] ∧ ∀ i, (course id start schedule n).world.Ended id i) ↔
      ∀ m < n, Refused id start schedule m → ((course id start schedule m).target id).isTerminated = false →
        ((course id start schedule m).target id).threads = [] := by
  constructor
  · rintro ⟨hbare, -⟩ m hm ⟨-, -, -, -, -, hworld⟩ -
    -- from then on the target has ended, with the threads that it had
    have hafter : (course id start schedule (m + 1)).target id =
        (launchFailed ((course id start schedule m).target id)).1 :=
      target_of_change hpresent (fun _ => rfl) hworld
    have hstays := stays (n := n) hpresent hm (by rw [hafter]; rfl)
    have hsame := hstays.2.mp hbare
    rwa [hafter] at hsame
  · intro hrefused
    have hbare : ((course id start schedule n).target id).threads = [] := by
      induction n with
      | zero => exact hthreads
      | succ n ih =>
        cases hlive : ((course id start schedule n).target id).isTerminated with
        | true => exact (stays_succ hpresent hlive).2.mpr (ih hlive fun m hm => hrefused m (Nat.lt_succ_of_lt hm))
        | false =>
          cases passes hpresent n with
          | aside more told silent target =>
            rw [target, hlive] at hterminated
            cases hterminated
          | orderly f orderly world target =>
            rw [target] at hterminated ⊢
            exact (threads_eq_nil_iff _).mpr (orderly.bare hlive hterminated)
          | refused h world target =>
            rw [target]
            exact hrefused n (Nat.lt_succ_self n) h hlive
    refine ⟨hbare, fun i => ?_⟩
    rw [← World.announced_eq_false_iff, announced_iff hpresent hthreads hended, (threads_eq_nil_iff _).mp hbare]
    rfl

/-! ### A launch that is refused late -/

/-- The launch is asked for, a thread starts, and the adapter answers that there is nothing to launch. -/
def refusesLate : List Turn :=
  [.begins (.start none)] ++ List.replicate 9 (.step 0)
    ++ [.event "thread" (.obj [("reason", "started"), ("threadId", .int 1)]),
      .outside { Freshness.oneTarget with
        net := { channels := [{ dialect := .sequenced, phase := .ready, nextId := 2
                                pending :=
                                  { next := 1
                                    settled := [(0, .answered (.error { message := "no main class" }))] } }] } }]
    ++ List.replicate 3 (.step 0)

/-- Those turns, one after the other. -/
def refusesLateSchedule (n : Nat) : Turn := refusesLate.getD n .ended

/-- The target has ended with its thread, of whose end nobody was told. -/
theorem thread_left_refusesLate :
    ((course 1 Freshness.oneTarget refusesLateSchedule 15).target 1).isTerminated = true ∧
      ¬ (course 1 Freshness.oneTarget refusesLateSchedule 15).world.Ended 1 1 ∧
      ∃ m < 15, Refused 1 Freshness.oneTarget refusesLateSchedule m ∧
        ((course 1 Freshness.oneTarget refusesLateSchedule m).target 1).threads ≠ [] := by
  have hterminated : ((course 1 Freshness.oneTarget refusesLateSchedule 15).target 1).isTerminated = true := by
    decide +kernel
  have halive : (course 1 Freshness.oneTarget refusesLateSchedule 15).world.announced 1 1 = true := by decide +kernel
  have hnot : ¬ (course 1 Freshness.oneTarget refusesLateSchedule 15).world.Ended 1 1 := fun h =>
    nomatch halive.symm.trans ((World.announced_eq_false_iff ..).mpr h)
  refine ⟨hterminated, hnot, ?_⟩
  have hpresent : (Freshness.oneTarget.debugger.target? 1).isSome = true := by decide
  have hended : ∀ i, Freshness.oneTarget.Ended 1 i := fun i before m after h =>
    absurd (congrArg List.length h) (by simp [Freshness.oneTarget])
  have hiff := terminated_bare_iff hpresent rfl hended refusesLateSchedule 15 hterminated
  by_contra hnone
  refine hnot ((hiff.mpr fun m hm hrefused _ => ?_).2 1)
  by_contra hthreads
  exact hnone ⟨m, hm, hrefused, hthreads⟩

end Course

end Debug.Target

end Switchboard
