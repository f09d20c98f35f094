import Switchboard.Proofs.Debug.Endings

/-!
# Where the contents of frames come from

* `Change`: what one turn does to the frames that a target keeps;
* `Batch`: when frames that are kept were brought;
* `Visit.Explains`: the visit from which the contents of a kept frame come, with the times of its steps;
* `contents_belong_iff`: when the contents of a frame are those of that very frame, fetched in this stop.

A visit looks up the stop under which it keeps contents only when it has the frames. If these are of an earlier
stop, and another call has brought those of the present one, contents are kept with a frame that they are not of.
-/

namespace Switchboard.Debug

namespace Target.Course

open DebugThread (Later Carries)

/-! ## Frames that are kept -/

section Frames

variable (id : Nat)

/-- The thread is in a stop. -/
def State.InStop (s : State) (thread : Int) (stop : Nat) : Prop :=
  ∃ x, (s.target id).thread? thread = some x ∧ x.isIn stop = true

/-- A frame that is kept of a thread, by its position. -/
def State.frame? (s : State) (thread : Int) (index : Nat) : Option Stack.Frame :=
  ((s.target id).keptFrames? thread).bind (·[index]?)

/-- The adapter's numbers of the frames that are kept of a thread. -/
def State.frameIds? (s : State) (thread : Int) : Option (List Int) :=
  ((s.target id).keptFrames? thread).map fun l => l.map (·.id)

lemma State.frameIds_of_frame {s : State} {thread : Int} {index : Nat} {frame : Stack.Frame}
    (h : s.frame? id thread index = some frame) :
    ∃ ids, s.frameIds? id thread = some ids ∧ ids[index]? = some frame.id := by
  obtain ⟨frames, hframes, hframe⟩ := Option.bind_eq_some_iff.mp h
  exact ⟨frames.map (·.id), by rw [frameIds?, hframes]; rfl, by rw [List.getElem?_map, hframe]; rfl⟩

end Frames

/-- What changes one element but for what is read of it changes nothing that is read. -/
lemma map_modify_of_forall {α β : Type} (l : List α) (index : Nat) {f : α → α} {read : α → β}
    (hf : ∀ x, read (f x) = read x) : (l.modify index f).map read = l.map read := by
  refine List.ext_getElem? fun i => ?_
  rw [List.getElem?_map, List.getElem?_map, List.getElem?_modify]
  cases l[i]? with
  | none => rfl
  | some x => by_cases hi : index = i <;> simp [hi, hf]

/-- Frames as they come from the adapter have no contents. -/
lemma contents_placeFrames (w : World) (id : Nat) (frames : List StackFrame) :
    ∀ f ∈ placeFrames w id frames, f.contents = none := by
  have hmade : ∀ f ∈ frames.zipIdx.map fun x => Stack.Frame.ofMessage x.2 x.1, f.contents = none := by
    intro f hf
    obtain ⟨x, -, rfl⟩ := List.mem_map.mp hf
    rfl
  unfold placeFrames
  dsimp only
  split
  · intro f hf
    obtain ⟨g, hg, rfl⟩ := List.mem_map.mp hf
    unfold Stack.Frame.locate
    split
    · split <;> exact hmade g hg
    · exact hmade g hg
  · exact hmade

variable {id : Nat} {start : World} {schedule : Nat → Turn}

/-! ## What one turn does -/

/-- Threads stay, are new or are gone, or frames are offered to one, or contents. -/
inductive Change (id : Nat) (start : World) (schedule : Nat → Turn) (n : Nat) : Prop where
  | moves (h : ((course id start schedule n).target id).Moves ((course id start schedule (n + 1)).target id))
  | frames (i : Nat) (thread : Int) (stop : Nat) (frames : List Stack.Frame) (turn : schedule n = .step i)
      (bare : ∀ f ∈ frames, f.contents = none)
      (target : (course id start schedule (n + 1)).target id
        = ((course id start schedule n).target id).keepFrames thread stop frames)
  | contents (i : Nat) (thread : Int) (index : Nat) (scopes : List Stack.Scope) (contents : List Stack.Variable)
      (visit : Visit) (turn : schedule n = .step i)
      (filled : visit.Filled (view id start schedule i) id thread index scopes contents n)
      (target : (course id start schedule (n + 1)).target id
        = ((course id start schedule n).target id).keepContents thread visit.stop index scopes contents)

lemma change (hpresent : (start.debugger.target? id).isSome = true) (n : Nat) : Change id start schedule n := by
  cases happens id start schedule n with
  | aside more targets told silent =>
    refine .moves ?_
    rw [target_of_aside targets]
    exact (Steadies.refl _).moves
  | event name body turn world =>
    refine .moves ?_
    rw [target_of_change hpresent (fun t => (moves_process t name body).1) world]
    exact moves_process _ name body
  | ended turn world =>
    refine .moves ?_
    rw [target_of_change hpresent (fun t => (moves_terminate t).1) world]
    exact moves_terminate _
  | deed i call work deed turn underway justified world =>
    have htarget := target_of_change hpresent deed.id_apply world
    cases deed with
    | begins | fails => exact .moves (htarget ▸ moves_of_threads_eq rfl rfl)
    | launches =>
      refine .moves (htarget ▸ ?_)
      show Moves _ (launched _).1
      unfold launched
      split
      · exact moves_of_threads_eq rfl rfl
      · exact (Steadies.refl _).moves
    | lists threads => exact .moves (htarget ▸ (steadies_mergeThreads _ threads).moves)
    | resumes thread all detail => exact .moves (htarget ▸ (steadies_applyResume _ thread all detail).moves)
    | keepsFrames thread stop frames =>
      obtain ⟨_, _, _, _, _, _, placed, _, _, _, _, _, _, hframes⟩ := justified
      exact .frames i thread stop frames turn (hframes ▸ contents_placeFrames _ id _) htarget
    | keepsContents thread stop index scopes contents =>
      obtain ⟨-, visit, rfl, hfilled⟩ := justified
      exact .contents i thread index scopes contents visit turn hfilled htarget

/-- From one time to the next a thread that is there never goes back to an earlier stop. -/
lemma Change.later {n : Nat} (h : Change id start schedule n) {thread : Int} {x y : DebugThread}
    (hx : ((course id start schedule n).target id).thread? thread = some x)
    (hy : ((course id start schedule (n + 1)).target id).thread? thread = some y) : x.Later y := by
  have hsame : ∀ z : DebugThread, ((course id start schedule (n + 1)).target id).thread? thread = some z →
      z.stop = x.stop → z.isSuspended = x.isSuspended → x.Later y := fun z hz hstop hsuspended => by
    obtain rfl := Option.some.inj (hy.symm.trans hz)
    exact .inr ⟨hstop.symm, fun h => hsuspended ▸ h⟩
  cases h with
  | moves hmoves =>
    rcases hmoves.2 thread with hsteady | hgone
    · rw [hx, hy] at hsteady
      exact Carries.later hsteady
    · rw [hgone] at hy
      cases hy
  | frames i other stop frames turn bare target =>
    rcases thread?_keepFrames ((course id start schedule n).target id) other stop frames thread with h | ⟨_, z, hz, _, h⟩
    · exact hsame x (by rw [target, h, hx]) rfl rfl
    · obtain rfl := Option.some.inj (hx.symm.trans hz)
      rw [← target] at h
      exact hsame _ h rfl rfl
  | contents i other index scopes contents visit turn filled target =>
    rcases thread?_keepContents ((course id start schedule n).target id) other visit.stop index scopes contents thread with
      h | ⟨_, z, _, hz, _, _, h⟩
    · exact hsame x (by rw [target, h, hx]) rfl rfl
    · obtain rfl := Option.some.inj (hx.symm.trans hz)
      rw [← target] at h
      exact hsame _ h rfl rfl

/-- How frames of a thread come to be kept at the next time. -/
inductive Kept (id : Nat) (start : World) (schedule : Nat → Turn) (n : Nat) (thread : Int) (frames : List Stack.Frame) :
    Prop where
  /-- They were kept before, and the thread stays in its stop. -/
  | stays (kept : ((course id start schedule n).target id).keptFrames? thread = some frames)
      (still : ∀ stop, (course id start schedule n).InStop id thread stop →
        (course id start schedule (n + 1)).InStop id thread stop)
  /-- They are brought by a call, and were not kept before. -/
  | brought (i : Nat) (turn : schedule n = .step i) (bare : ∀ f ∈ frames, f.contents = none)
      (unkept : ((course id start schedule n).target id).keptFrames? thread ≠ some frames)
  /-- They were kept before, and a visit has filled one of them. -/
  | filled (i index : Nat) (scopes : List Stack.Scope) (contents : List Stack.Variable) (visit : Visit)
      (old : List Stack.Frame) (turn : schedule n = .step i)
      (filled : visit.Filled (view id start schedule i) id thread index scopes contents n)
      (kept : ((course id start schedule n).target id).keptFrames? thread = some old)
      (now : frames = old.modify index fun f => { f with scopes := some scopes, contents := some contents })
      (inStop : (course id start schedule n).InStop id thread visit.stop)
      (still : ∀ stop, (course id start schedule n).InStop id thread stop →
        (course id start schedule (n + 1)).InStop id thread stop)

lemma Change.kept {n : Nat} (h : Change id start schedule n) {thread : Int} {frames : List Stack.Frame}
    (hkept : ((course id start schedule (n + 1)).target id).keptFrames? thread = some frames) :
    Kept id start schedule n thread frames := by
  obtain ⟨y, hy, hframes⟩ := Option.bind_eq_some_iff.mp hkept
  -- the cases differ in what the thread was before; what it is in stays the same in each
  have hstill : ∀ x, ((course id start schedule n).target id).thread? thread = some x → x.stop = y.stop →
      x.isSuspended = y.isSuspended → ∀ stop, (course id start schedule n).InStop id thread stop →
        (course id start schedule (n + 1)).InStop id thread stop := by
    rintro x hx hstop hsuspended stop ⟨z, hz, hin⟩
    obtain rfl := Option.some.inj (hx.symm.trans hz)
    refine ⟨y, hy, ?_⟩
    unfold DebugThread.isIn at hin ⊢
    rwa [← hstop, ← hsuspended]
  have hkeeps : ∀ x, ((course id start schedule n).target id).thread? thread = some x → x.frames = some frames →
      x.stop = y.stop → x.isSuspended = y.isSuspended → Kept id start schedule n thread frames :=
    fun x hx hxf hstop hsuspended =>
      .stays (Option.bind_eq_some_iff.mpr ⟨x, hx, hxf⟩) (hstill x hx hstop hsuspended)
  cases h with
  | moves hmoves =>
    rcases hmoves.2 thread with hsteady | hgone
    · rw [hy] at hsteady
      cases hx : ((course id start schedule n).target id).thread? thread with
      | none =>
        rw [hx] at hsteady
        exact absurd (hframes.symm.trans hsteady) nofun
      | some x =>
        rw [hx] at hsteady
        obtain ⟨hxf, hstop, hsuspended⟩ := Carries.frames hsteady frames hframes
        exact hkeeps x hx hxf hstop hsuspended
    · rw [hgone] at hy
      cases hy
  | frames i other stop fresh turn bare target =>
    rcases thread?_keepFrames ((course id start schedule n).target id) other stop fresh thread with
      hsame | ⟨-, x, hx, -, hnew⟩
    · exact hkeeps y (by rw [← hsame, ← target, hy]) hframes rfl rfl
    · rw [target, hnew] at hy
      obtain rfl := Option.some.inj hy
      obtain rfl := Option.some.inj hframes
      by_cases hold : x.frames = some fresh
      · exact hkeeps x hx hold rfl rfl
      · exact .brought i turn bare fun hkept => hold ((Option.bind_eq_some_iff.mp hkept).elim fun z hz => by
          obtain rfl := Option.some.inj (hx.symm.trans hz.1)
          exact hz.2)
  | contents i other index scopes contents visit turn filled target =>
    rcases thread?_keepContents ((course id start schedule n).target id) other visit.stop index scopes contents thread with
      hsame | ⟨rfl, x, old, hx, hold, hin, hnew⟩
    · exact hkeeps y (by rw [← hsame, ← target, hy]) hframes rfl rfl
    · rw [target, hnew] at hy
      obtain rfl := Option.some.inj hy
      obtain rfl := Option.some.inj hframes
      exact .filled i index scopes contents visit old turn filled (Option.bind_eq_some_iff.mpr ⟨x, hx, hold⟩) rfl
        ⟨x, hx, hin⟩ (hstill x hx rfl rfl)

/-! ## Where frames come from -/

/-- Frames of a thread, by the adapter's numbers, that were brought at a time and have been kept ever since. -/
structure Batch (id : Nat) (start : World) (schedule : Nat → Turn) (thread : Int) (ids : List Int) (brought n : Nat) :
    Prop where
  brought_lt : brought < n
  turn : ∃ i, schedule brought = .step i
  new : ((course id start schedule brought).target id).keptFrames? thread
    ≠ ((course id start schedule (brought + 1)).target id).keptFrames? thread
  same : ∀ m, brought < m → m ≤ n → (course id start schedule m).frameIds? id thread = some ids

/-- Frames that are kept were brought at some time. -/
lemma exists_batch (hpresent : (start.debugger.target? id).isSome = true) (hthreads : (start.target id).threads = [])
    {n : Nat} {thread : Int} {ids : List Int} (h : (course id start schedule n).frameIds? id thread = some ids) :
    ∃ brought, Batch id start schedule thread ids brought n := by
  induction n with
  | zero =>
    obtain ⟨frames, hframes, -⟩ := Option.map_eq_some_iff.mp h
    have hnone : (start.target id).keptFrames? thread = none := by simp [keptFrames?, thread?, hthreads]
    cases hframes.symm.trans hnone
  | succ n ih =>
    have hgrows : (course id start schedule n).frameIds? id thread = some ids →
        ∃ brought, Batch id start schedule thread ids brought (n + 1) := fun hbefore => by
      obtain ⟨brought, hbatch⟩ := ih hbefore
      refine ⟨brought, Nat.lt_succ_of_lt hbatch.brought_lt, hbatch.turn, hbatch.new, fun m hm hmn => ?_⟩
      rcases Nat.lt_or_eq_of_le hmn with hlt | rfl
      · exact hbatch.same m hm (Nat.le_of_lt_succ hlt)
      · exact h
    obtain ⟨frames, hframes, hids⟩ := Option.map_eq_some_iff.mp h
    cases (change hpresent n).kept hframes with
    | stays kept still => exact hgrows (Option.map_eq_some_iff.mpr ⟨frames, kept, hids⟩)
    | brought i turn bare unkept =>
      refine ⟨n, Nat.lt_succ_self n, ⟨i, turn⟩, by rwa [hframes], fun m hm hmn => ?_⟩
      obtain rfl : m = n + 1 := Nat.le_antisymm hmn hm
      exact h
    | filled i index scopes contents visit old turn filled kept now inStop still =>
      -- filling a frame leaves the numbers as they are
      refine hgrows (Option.map_eq_some_iff.mpr ⟨old, kept, ?_⟩)
      rw [← hids, now]
      refine Eq.symm (map_modify_of_forall old index ?_)
      exact fun _ => rfl

/-! ## Where contents come from -/

namespace Visit

/-- The contents of a kept frame come from this visit: it kept them, and they are still there, as the thread is still in
the stop. -/
structure Explains (id : Nat) (start : World) (schedule : Nat → Turn) (thread : Int) (index : Nat) (frame : Stack.Frame)
    (scopes : List Stack.Scope) (contents : List Stack.Variable) (i kept n : Nat) (visit : Visit) : Prop where
  filled : visit.Filled (view id start schedule i) id thread index scopes contents kept
  kept_lt : kept < n
  turn : schedule kept = .step i
  stays : ∀ m, kept ≤ m → m ≤ n → (course id start schedule m).InStop id thread visit.stop
  same : ∀ m, kept < m → m ≤ n → (course id start schedule m).frame? id thread index = some frame

variable {thread : Int} {index : Nat} {frame : Stack.Frame} {scopes : List Stack.Scope} {contents : List Stack.Variable}
  {i kept n : Nat} {visit : Visit}

/-- A frame that stays, with its thread in the same stop, is explained as before. -/
lemma Explains.succ (h : visit.Explains id start schedule thread index frame scopes contents i kept n)
    (hstill : (course id start schedule n).InStop id thread visit.stop →
      (course id start schedule (n + 1)).InStop id thread visit.stop)
    (hframe : (course id start schedule (n + 1)).frame? id thread index = some frame) :
    visit.Explains id start schedule thread index frame scopes contents i kept (n + 1) where
  filled := h.filled
  kept_lt := Nat.lt_succ_of_lt h.kept_lt
  turn := h.turn
  stays m hm hmn := by
    rcases Nat.lt_or_eq_of_le hmn with hlt | rfl
    · exact h.stays m hm (Nat.le_of_lt_succ hlt)
    · exact hstill (h.stays n (Nat.le_of_lt h.kept_lt) (Nat.le_refl n))
  same m hm hmn := by
    rcases Nat.lt_or_eq_of_le hmn with hlt | rfl
    · exact h.same m hm (Nat.le_of_lt_succ hlt)
    · exact hframe

/-- The contents of a kept frame come from some visit. -/
lemma exists_explains (hpresent : (start.debugger.target? id).isSome = true) (hthreads : (start.target id).threads = [])
    (hframe : (course id start schedule n).frame? id thread index = some frame)
    (hcontents : frame.contents = some contents) :
    ∃ (visit : Visit) (scopes : List Stack.Scope) (i kept : Nat), frame.scopes = some scopes ∧
      visit.Explains id start schedule thread index frame scopes contents i kept n := by
  induction n with
  | zero =>
    obtain ⟨frames, hframes, -⟩ := Option.bind_eq_some_iff.mp hframe
    have hnone : (start.target id).keptFrames? thread = none := by simp [keptFrames?, thread?, hthreads]
    cases hframes.symm.trans hnone
  | succ n ih =>
    have hgrows : (course id start schedule n).frame? id thread index = some frame →
        (∀ stop, (course id start schedule n).InStop id thread stop →
          (course id start schedule (n + 1)).InStop id thread stop) →
        ∃ (visit : Visit) (scopes : List Stack.Scope) (i kept : Nat), frame.scopes = some scopes ∧
          visit.Explains id start schedule thread index frame scopes contents i kept (n + 1) := fun hbefore hstill => by
      obtain ⟨visit, scopes, i, kept, hscopes, hexplains⟩ := ih hbefore
      exact ⟨visit, scopes, i, kept, hscopes, hexplains.succ (hstill visit.stop) hframe⟩
    obtain ⟨frames, hframes, hat⟩ := Option.bind_eq_some_iff.mp hframe
    cases (change hpresent n).kept hframes with
    | stays kept still => exact hgrows (Option.bind_eq_some_iff.mpr ⟨frames, kept, hat⟩) still
    | brought i turn bare unkept => cases (bare frame (List.mem_of_getElem? hat)).symm.trans hcontents
    | filled i other fresh read visit old turn filled kept now inStop still =>
      rw [now, List.getElem?_modify] at hat
      by_cases hother : other = index
      · -- these are the contents that the visit whose turn it was has gathered
        subst hother
        obtain ⟨f, hf, rfl⟩ := Option.map_eq_some_iff.mp hat
        rw [if_pos rfl] at hcontents ⊢
        obtain rfl := Option.some.inj hcontents
        refine ⟨visit, fresh, i, n, rfl, filled, Nat.lt_succ_self n, turn, fun m hm hmn => ?_, fun m hm hmn => ?_⟩
        · rcases Nat.lt_or_eq_of_le hmn with hlt | rfl
          · obtain rfl : n = m := Nat.le_antisymm hm (Nat.le_of_lt_succ hlt)
            exact inStop
          · exact still visit.stop inStop
        · obtain rfl : m = n + 1 := Nat.le_antisymm hmn hm
          rw [if_pos rfl] at hframe
          exact hframe
      · refine hgrows (Option.bind_eq_some_iff.mpr ⟨old, kept, ?_⟩) still
        simpa [hother] using hat

end Visit

/-! ## Contents and their frames -/

/-- Frames were brought at a time when the call had already looked for its own, and not by it. -/
def Source.Overtaken (brought : Nat) : Source → Prop
  | found time => time ≤ brought
  | fetched looked kept => looked ≤ brought ∧ brought ≠ kept

lemma Gathered.le {v : Viewpoint Wait World} {rules : Rules} {scopes : List Stack.Scope} {l : List Stack.Variable}
    {n m : Nat} (h : Gathered v id rules scopes l n m) : n ≤ m := by
  induction scopes generalizing l n with
  | nil => exact h.2
  | cons s rest ih =>
    obtain ⟨own, more, k, -, hmore, hown⟩ := h
    have hkm := ih hmore
    split at hown
    · omega
    · obtain ⟨x, asked, answer, body, hasked, hserved, -, hanswered, -⟩ := hown
      have := hserved.asked_lt_sent
      have := hserved.sent_lt_answered
      omega

namespace Visit

variable {thread : Int} {index : Nat} {frame : Stack.Frame} {scopes : List Stack.Scope} {contents : List Stack.Variable}
  {i kept n brought : Nat} {visit : Visit} {ids : List Int}

/-- The steps of a visit in their order. -/
lemma Explains.times (h : visit.Explains id start schedule thread index frame scopes contents i kept n) :
    visit.source.last < visit.checked ∧ visit.checked < visit.exchange.sent ∧ visit.exchange.sent < n := by
  obtain ⟨hasked, -, k, hk, hgathered⟩ := h.filled
  obtain ⟨answer, hserved, -⟩ := hasked.served
  have hle := hgathered.le
  have := hasked.checked_lt
  have := hserved.asked_lt_sent
  have := hserved.sent_lt_answered
  have := h.kept_lt
  exact ⟨hasked.last_lt, by omega, by omega⟩

/-- A visit looked into the frame that its contents are kept with, unless others brought the frames after it had
looked for its own. -/
lemma Explains.frame_id (hpresent : (start.debugger.target? id).isSome = true)
    (h : visit.Explains id start schedule thread index frame scopes contents i kept n)
    (hbatch : Batch id start schedule thread ids brought n) (hid : ids[index]? = some frame.id)
    (hnot : ¬ visit.source.Overtaken brought) : visit.frame.id = frame.id := by
  obtain ⟨hlast, hsent, hn⟩ := h.times
  have hasked := h.filled.1
  have hgave := hasked.gave
  have hframe := hasked.frame
  -- the visit came by frames of these numbers
  suffices hids : visit.frames.map (·.id) = ids by
    rw [← hids, List.getElem?_map, hframe] at hid
    exact Option.some.inj hid
  cases hsource : visit.source with
  | found time =>
    rw [hsource] at hgave hlast hnot
    have hbrought : brought < time := Nat.lt_of_not_le hnot
    have hkept : ((course id start schedule time).target id).keptFrames? thread = some visit.frames := hgave.2
    have hsame := hbatch.same time hbrought (Nat.le_of_lt (Nat.lt_trans hlast (Nat.lt_trans hsent hn)))
    rw [State.frameIds?, hkept] at hsame
    exact Option.some.inj hsame
  | fetched looked fetched =>
    rw [hsource] at hgave hlast hnot
    obtain ⟨-, hnone, hlt, -, ⟨stop, hworld⟩, -⟩ := hgave
    have hlast : fetched < visit.checked := hlast
    have hnone : ((course id start schedule looked).target id).keptFrames? thread = none := hnone
    by_cases hearly : brought < looked
    · -- frames that were kept by then would have been found
      have hsame := hbatch.same looked hearly (by omega)
      rw [State.frameIds?, hnone] at hsame
      cases hsame
    · obtain rfl : brought = fetched := by
        by_contra hne
        exact hnot ⟨Nat.le_of_not_lt hearly, hne⟩
      have hworld : (course id start schedule (brought + 1)).world
          = (course id start schedule brought).world.changeTarget id (Deed.keepsFrames thread stop visit.frames).apply := hworld
      have htarget := target_of_change hpresent (Deed.id_apply _) hworld
      have hsame := hbatch.same (brought + 1) (Nat.lt_succ_self _) hbatch.brought_lt
      have hnew := hbatch.new
      rw [State.frameIds?] at hsame
      rw [htarget] at hsame hnew
      rcases thread?_keepFrames ((course id start schedule brought).target id) thread stop visit.frames thread with
        hold | ⟨-, x, -, -, hstored⟩
      · exact absurd (congrArg (·.bind (·.frames)) hold).symm hnew
      · have hkept : (((course id start schedule brought).target id).keepFrames thread stop visit.frames).keptFrames? thread
            = some visit.frames := by rw [keptFrames?, hstored]; rfl
        exact Option.some.inj ((congrArg (·.map fun l => l.map (·.id)) hkept).symm.trans hsame)

/-- The contents were asked for under the number of that very frame, and ever since the thread has been in the stop. -/
def Belongs (id : Nat) (start : World) (schedule : Nat → Turn) (thread : Int) (frame : Stack.Frame) (n : Nat)
    (visit : Visit) : Prop :=
  visit.exchange.request = { method := "scopes", params := ScopesArguments.toJson { frameId := frame.id } } ∧
    ∀ m, visit.exchange.sent ≤ m → m ≤ n → (course id start schedule m).InStop id thread visit.stop

end Visit

lemma frameId_of_toJson {a b : Int}
    (h : ScopesArguments.toJson { frameId := a } = ScopesArguments.toJson { frameId := b }) : a = b := by
  simpa [ScopesArguments.toJson, Json.record] using h

/-- Whatever the order in which calls, events and everything around a target take their steps: contents that are kept
with a frame come from a visit, which found the thread in the stop that it is in now and asked for the contents after
that. They are those of the frame, fetched in this stop, exactly if the visit looked into a frame of the same number
and the thread was not gone in the meantime: after the request was handed over, or before that and then it had not
yet come back to a stop of that number. And the numbers differ only if another call brought the frames that are kept,
when the visit had already looked for its own. -/
theorem contents_belong_iff {start : World} (hpresent : (start.debugger.target? id).isSome = true)
    (hthreads : (start.target id).threads = []) (schedule : Nat → Turn) (n : Nat) (thread : Int) (index : Nat)
    (frame : Stack.Frame) (contents : List Stack.Variable)
    (hframe : (course id start schedule n).frame? id thread index = some frame)
    (hcontents : frame.contents = some contents) :
    ∃ (visit : Visit) (scopes : List Stack.Scope) (i kept brought : Nat) (ids : List Int),
      frame.scopes = some scopes ∧ visit.Explains id start schedule thread index frame scopes contents i kept n ∧
        (course id start schedule n).frameIds? id thread = some ids ∧ Batch id start schedule thread ids brought n ∧
        (visit.Belongs id start schedule thread frame n ↔
          visit.frame.id = frame.id ∧ ∀ m, visit.checked ≤ m → m ≤ n →
            ((course id start schedule m).target id).thread? thread = none →
              m < visit.exchange.sent ∧ (course id start schedule visit.exchange.sent).InStop id thread visit.stop) ∧
        (visit.frame.id ≠ frame.id → visit.source.Overtaken brought) := by
  obtain ⟨visit, scopes, i, kept, hscopes, h⟩ := Visit.exists_explains hpresent hthreads hframe hcontents
  obtain ⟨ids, hids, hid⟩ := State.frameIds_of_frame id hframe
  obtain ⟨brought, hbatch⟩ := exists_batch hpresent hthreads hids
  obtain ⟨-, hcs, hsn⟩ := h.times
  have hlater : ∀ m x y, ((course id start schedule m).target id).thread? thread = some x →
      ((course id start schedule (m + 1)).target id).thread? thread = some y → DebugThread.Later x y :=
    fun m x y hx hy => (change hpresent m).later hx hy
  have hchecked : (course id start schedule visit.checked).InStop id thread visit.stop :=
    isIn_of_currentStop h.filled.1.checked.2
  have hnow := h.stays n (Nat.le_of_lt h.kept_lt) (Nat.le_refl n)
  have hrequest : visit.exchange.request =
      { method := "scopes", params := ScopesArguments.toJson { frameId := visit.frame.id } } := by
    obtain ⟨answer, hserved, -⟩ := h.filled.1.served
    exact hserved.request
  refine ⟨visit, scopes, i, kept, brought, ids, hscopes, h, hids, hbatch, ⟨?_, ?_⟩, ?_⟩
  · rintro ⟨hasked, hstays⟩
    refine ⟨frameId_of_toJson (congrArg Network.Request.params (hrequest.symm.trans hasked)), fun m _ hmn hgone => ?_⟩
    refine ⟨Nat.lt_of_not_le fun hsm => ?_, hstays _ (Nat.le_refl _) (Nat.le_of_lt hsn)⟩
    obtain ⟨x, hx, -⟩ := hstays m hsm hmn
    cases hgone.symm.trans hx
  · rintro ⟨hsame, hgone⟩
    refine ⟨hsame ▸ hrequest, fun m hsm hmn => ?_⟩
    have hthere : ∀ l, visit.exchange.sent ≤ l → l ≤ n → ((course id start schedule l).target id).thread? thread ≠ none :=
      fun l hl hln hnone => Nat.not_lt_of_le hl (hgone l (by omega) hln hnone).1
    have hsent : (course id start schedule visit.exchange.sent).InStop id thread visit.stop := by
      by_cases hever : ∃ l, visit.checked ≤ l ∧ l ≤ n ∧ ((course id start schedule l).target id).thread? thread = none
      · obtain ⟨l, hcl, hln, hnone⟩ := hever
        exact (hgone l hcl hln hnone).2
      · -- the thread was there all the time, so its stops only counted on
        exact DebugThread.isIn_of_present hlater (Nat.le_of_lt hcs) (Nat.le_of_lt hsn)
          (fun l hl hln hnone => hever ⟨l, hl, hln, hnone⟩) hchecked hnow
    exact DebugThread.isIn_of_present hlater hsm hmn hthere hsent hnow
  · intro hne
    by_contra hnot
    exact hne (h.frame_id hpresent hbatch hid hnot)

/-! ### Frames of a stop that is over -/

/-- The answer to a request for frames, which tells of one. -/
def frameReply (number : Int) (name : String) : Json :=
  .obj [("stackFrames", .arr [.obj [("id", .int number), ("name", .str name), ("line", .int 1), ("column", .int 1)]])]

/-- The answer to a request for scopes, which tells of one. -/
def scopesReply : Json := .obj [("scopes", .arr [.obj [("name", "Registers"), ("variablesReference", .int 5)]])]

/-- What the adapter says of its one thread. -/
def threadEvent (name : String) : Turn := .event name (.obj [("reason", "breakpoint"), ("threadId", .int 1)])

/-- Requests have been answered; so many tickets were given out. -/
def answers (tickets : Nat) (settled : List (Nat × Settlement)) : Turn :=
  .outside { Freshness.oneTarget with
    net := { channels := [{ dialect := .sequenced, phase := .ready, nextId := tickets + 1
                            pending := { next := tickets, settled } }] } }

/-- The thread stops, and a visit asks for its frames. It goes on and stops again, and another call asks for its frames.
Both are answered; the second call keeps its frames, and then the visit goes on with the frames of the first stop. -/
def visitsLate : List Turn :=
  [threadEvent "stopped", .begins (.inspect 1 0)] ++ List.replicate 8 (.step 0)
    ++ [threadEvent "continued", threadEvent "stopped", .begins (.stack 1)] ++ List.replicate 8 (.step 1)
    ++ [answers 2 [(0, .answered (.ok (frameReply 10 "old"))), (1, .answered (.ok (frameReply 20 "new")))]]
    ++ List.replicate 4 (.step 1) ++ List.replicate 13 (.step 0)
    ++ [answers 3 [(2, .answered (.ok scopesReply))]] ++ List.replicate 3 (.step 0)

/-- Those turns, one after the other. -/
def visitsLateSchedule (n : Nat) : Turn := visitsLate.getD n .ended

/-- The frame of the second stop, with what it was filled with. -/
def filledFrame : Stack.Frame :=
  { index := 0, id := 20, name := "new", synthetic := false
    scopes := some [{ name := "Registers", class_ := .other, reference := 5, delayable := true, expensive := false }]
    contents := some
      [{ name := "Registers", value := "", reference := 5, kind := .placeholder, isLocal := false, isStatic := false }] }

/-- The number of the frame that a message asks about. -/
def frameAsked? (message : Json) : Option Int :=
  (message.get? "arguments").bind fun arguments => (arguments.get? "frameId").bind Json.asInt64?

/-- Nothing ever asked about the frame that is kept, and yet it has contents. -/
theorem stray_contents_visitsLate :
    (course 1 Freshness.oneTarget visitsLateSchedule 43).frame? 1 1 0 = some filledFrame ∧
      ∃ (visit : Visit) (scopes : List Stack.Scope) (contents : List Stack.Variable) (i kept : Nat),
        visit.Explains 1 Freshness.oneTarget visitsLateSchedule 1 0 filledFrame scopes contents i kept 43 ∧
          ¬ visit.Belongs 1 Freshness.oneTarget visitsLateSchedule 1 filledFrame 43 := by
  have hframe : (course 1 Freshness.oneTarget visitsLateSchedule 43).frame? 1 1 0 = some filledFrame := by decide +kernel
  have hchannel : ∀ m < 44, ((course 1 Freshness.oneTarget visitsLateSchedule m).world.debugger.session
      ((course 1 Freshness.oneTarget visitsLateSchedule m).target 1).session).channel = 0 ∧
      0 < (course 1 Freshness.oneTarget visitsLateSchedule m).world.net.channels.length ∧
      ((course 1 Freshness.oneTarget visitsLateSchedule m).world.net.channel 0).dialect = .sequenced := by decide +kernel
  have hunasked : ∀ m < 44, ∀ message ∈ ((course 1 Freshness.oneTarget visitsLateSchedule m).world.net.channel 0).outgoing,
      frameAsked? message ≠ some 20 := by decide +kernel
  obtain ⟨visit, scopes, i, kept, -, -, -, h, -, -, -, -⟩ := contents_belong_iff (by decide) rfl visitsLateSchedule 43 1 0
    filledFrame _ hframe rfl
  refine ⟨hframe, visit, scopes, _, i, kept, h, fun hbelongs => ?_⟩
  obtain ⟨-, -, hlt⟩ := h.times
  obtain ⟨answer, hserved, -⟩ := h.filled.1.served
  have hasked := hserved.asked_lt_sent
  have hzero : visit.exchange.channel = 0 := hserved.channel.symm.trans (hchannel visit.asked (by omega)).1
  have hposted := hserved.took.1.1.posted (hzero ▸ (hchannel visit.exchange.sent (by omega)).2.1)
  rw [hbelongs.1, hzero] at hposted
  refine hunasked (visit.exchange.sent + 1) (by omega) _ hposted ?_
  have hdialect : (((net (view 1 Freshness.oneTarget visitsLateSchedule i)).state visit.exchange.sent).channel 0).dialect
      = .sequenced := (hchannel visit.exchange.sent (by omega)).2.2
  rw [hdialect]
  rfl

end Target.Course

end Switchboard.Debug
