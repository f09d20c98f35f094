import Switchboard.Debug.Control
import Switchboard.Proofs.Keyed
import Mathlib

/-!
# What operations on a target make of its threads

* `DebugThread.Later`, `DebugThread.Carries`: a thread that stays never goes back to an earlier stop
  (`isIn_of_present`), and has frames only if it was left alone;
* `Target.Steadies`: every thread of a target stays or is new;
* `Target.Moves`: every thread stays, is new or is gone, which is all that events and resumptions do
  (`moves_process`, `steadies_applyResume`, `steadies_mergeThreads`, `moves_terminate`).
-/

namespace Switchboard.Debug

namespace DebugThread

/-- Stops count on, and a thread is in its last stop only if it was before. -/
def Later (x y : DebugThread) : Prop :=
  x.stop < y.stop ∨ (x.stop = y.stop ∧ (y.isSuspended = true → x.isSuspended = true))

lemma Later.refl (x : DebugThread) : x.Later x := .inr ⟨rfl, fun h => h⟩

lemma Later.trans {x y z : DebugThread} (hxy : x.Later y) (hyz : y.Later z) : x.Later z := by
  rcases hxy with hlt | ⟨heq, hsusp⟩ <;> rcases hyz with hlt' | ⟨heq', hsusp'⟩
  · exact .inl (Nat.lt_trans hlt hlt')
  · exact .inl (heq' ▸ hlt)
  · exact .inl (heq ▸ hlt')
  · exact .inr ⟨heq.trans heq', hsusp ∘ hsusp'⟩

section Present

variable {thread : Nat → Option DebugThread}

/-- A thread that never goes back to an earlier stop from one time to the next never does as long as it is there. -/
lemma later_of_present (hlater : ∀ n x y, thread n = some x → thread (n + 1) = some y → x.Later y) {a b : Nat}
    (hab : a ≤ b) (hthere : ∀ m, a ≤ m → m ≤ b → thread m ≠ none) {x y : DebugThread} (hx : thread a = some x)
    (hy : thread b = some y) : x.Later y := by
  induction b, hab using Nat.le_induction generalizing y with
  | base =>
    obtain rfl := Option.some.inj (hx.symm.trans hy)
    exact .refl x
  | succ b hab ih =>
    obtain ⟨z, hz⟩ := Option.ne_none_iff_exists'.mp (hthere b hab (Nat.le_succ b))
    have hxz := ih (fun m hm hmb => hthere m hm (Nat.le_succ_of_le hmb)) hz
    exact hxz.trans (hlater b z y hz hy)

/-- If it is in one stop at both ends, it is in it in between. -/
lemma isIn_of_present (hlater : ∀ n x y, thread n = some x → thread (n + 1) = some y → x.Later y) {a m b stop : Nat}
    (ham : a ≤ m) (hmb : m ≤ b) (hthere : ∀ l, a ≤ l → l ≤ b → thread l ≠ none)
    (ha : ∃ x, thread a = some x ∧ x.isIn stop = true) (hb : ∃ x, thread b = some x ∧ x.isIn stop = true) :
    ∃ x, thread m = some x ∧ x.isIn stop = true := by
  obtain ⟨x, hx, hxin⟩ := ha
  obtain ⟨z, hz, hzin⟩ := hb
  obtain ⟨y, hy⟩ := Option.ne_none_iff_exists'.mp (hthere m ham hmb)
  have hxy := later_of_present hlater ham (fun l hl hlm => hthere l hl (Nat.le_trans hlm hmb)) hx hy
  have hyz := later_of_present hlater hmb (fun l hl hlb => hthere l (Nat.le_trans ham hl) hlb) hy hz
  simp only [isIn, Bool.and_eq_true, decide_eq_true_eq] at hxin hzin
  refine ⟨y, hy, ?_⟩
  simp only [isIn, Bool.and_eq_true, decide_eq_true_eq]
  -- stops only count on, and they are the same at both ends
  rcases hxy with hlt | ⟨heq, -⟩ <;> rcases hyz with hlt' | ⟨heq', hsuspended⟩
  · omega
  · omega
  · omega
  · exact ⟨hsuspended hzin.1, heq.symm.trans hxin.2⟩

end Present

/-- What may become of a thread that stays: it has only the frames that it had in the same stop. -/
structure Carries (x y : DebugThread) : Prop where
  later : x.Later y
  frames : ∀ fs, y.frames = some fs → x.frames = some fs ∧ x.stop = y.stop ∧ x.isSuspended = y.isSuspended

namespace Carries

lemma refl (x : DebugThread) : x.Carries x := ⟨.refl x, fun _ h => ⟨h, rfl, rfl⟩⟩

lemma trans {x y z : DebugThread} (hxy : x.Carries y) (hyz : y.Carries z) : x.Carries z where
  later := hxy.later.trans hyz.later
  frames fs hfs := by
    obtain ⟨hy, hstop', hsusp'⟩ := hyz.frames fs hfs
    obtain ⟨hx, hstop, hsusp⟩ := hxy.frames fs hy
    exact ⟨hx, hstop.trans hstop', hsusp.trans hsusp'⟩

end Carries

lemma carries_suspend (x : DebugThread) (reason : String) (description : Option String) :
    x.Carries (x.suspend reason description) := ⟨.inl (Nat.lt_succ_self _), nofun⟩

lemma carries_resume (x : DebugThread) : x.Carries x.resume := by
  unfold resume
  split
  · exact .refl x
  · exact ⟨.inr ⟨rfl, by simp [isSuspended]⟩, nofun⟩

lemma id_suspend (x : DebugThread) (reason : String) (description : Option String) :
    (x.suspend reason description).id = x.id := rfl

lemma id_resume (x : DebugThread) : x.resume.id = x.id := by
  unfold DebugThread.resume
  split <;> rfl

/-- What may become of a thread, or of its absence: it does not go. -/
def Steady : Option DebugThread → Option DebugThread → Prop
  | some x, some y => x.Carries y
  | none, some y => y.frames = none
  | none, none => True
  | some _, none => False

lemma Steady.refl (x : Option DebugThread) : Steady x x := by
  cases x with
  | none => trivial
  | some x => exact Carries.refl x

lemma Steady.trans {x y z : Option DebugThread} (hxy : Steady x y) (hyz : Steady y z) : Steady x z := by
  match x, y, z with
  | some _, some _, some _ => exact Carries.trans hxy hyz
  | none, none, none => trivial
  | none, none, some _ => exact hyz
  | none, some y, some z =>
    show z.frames = none
    cases hz : z.frames with
    | none => rfl
    | some fs => exact absurd ((Carries.frames hyz fs hz).1.symm.trans hxy) nofun
  | none, some _, none => exact hyz.elim
  | some _, none, _ => exact hxy.elim
  | some _, some _, none => exact hyz.elim

end DebugThread

namespace Target

open DebugThread (Steady Carries)

/-! ## Threads by id -/

lemma id_of_thread? {t : Target} {i : Int} {x : DebugThread} (h : t.thread? i = some x) : x.id = i := by
  simpa using List.find?_some h

/-- Threads are put in by their ids. -/
lemma inserts : Keyed.Inserts DebugThread.id insertThread where
  nil _ := rfl
  before hlt := if_pos hlt
  instead heq := by rw [insertThread, if_neg heq.not_lt, if_pos heq]
  after hgt := by rw [insertThread, if_neg (lt_asymm hgt), if_neg hgt.ne']

lemma thread?_putThread (t : Target) (x : DebugThread) (i : Int) :
    (t.putThread x).thread? i = if x.id = i then some x else t.thread? i := inserts.find? x t.threads i

lemma thread?_meet (t : Target) (i j : Int) :
    (t.meet i).1.thread? j = if i = j then some ((t.thread? j).getD (.unnamed j)) else t.thread? j := by
  unfold meet
  by_cases hij : i = j
  · subst hij
    cases h : t.thread? i with
    | some x => simp [h]
    | none => simp [thread?_putThread, DebugThread.unnamed]
  · rw [if_neg hij]
    split
    · rfl
    · rw [thread?_putThread]
      exact if_neg hij

lemma thread?_changeThread (t : Target) (i j : Int) (detail data : Option String) {f : DebugThread → DebugThread}
    (hid : ∀ x, (f x).id = x.id) :
    (t.changeThread i detail data f).1.thread? j = if i = j then (t.thread? j).map f else t.thread? j := by
  unfold changeThread
  by_cases hij : i = j
  · subst hij
    cases h : t.thread? i with
    | none => simp [h]
    | some x => simp [thread?_putThread, hid, id_of_thread? h]
  · rw [if_neg hij]
    split
    · next x hx => rw [thread?_putThread, hid, id_of_thread? hx, if_neg hij]
    · rfl

/-! ## Targets whose threads stay -/

/-- No thread goes; the target stays the same one. -/
def Steadies (t u : Target) : Prop := u.id = t.id ∧ ∀ i, Steady (t.thread? i) (u.thread? i)

namespace Steadies

lemma refl (t : Target) : t.Steadies t := ⟨rfl, fun _ => .refl _⟩

lemma trans {t u v : Target} (htu : t.Steadies u) (huv : u.Steadies v) : t.Steadies v :=
  ⟨huv.1.trans htu.1, fun i => (htu.2 i).trans (huv.2 i)⟩

end Steadies

lemma steadies_putThread {t : Target} {x : DebugThread} (h : Steady (t.thread? x.id) (some x)) :
    t.Steadies (t.putThread x) := by
  refine ⟨rfl, fun i => ?_⟩
  rw [thread?_putThread]
  by_cases hi : x.id = i
  · rw [if_pos hi, ← hi]
    exact h
  · rw [if_neg hi]
    exact .refl _

lemma steadies_raise (t : Target) : t.Steadies t.raise := ⟨rfl, fun _ => .refl _⟩

lemma steadies_meet (t : Target) (i : Int) : t.Steadies (t.meet i).1 := by
  unfold meet
  cases h : t.thread? i with
  | some x => exact .refl t
  | none =>
    refine steadies_putThread ?_
    show Steady (t.thread? i) _
    rw [h]
    rfl

lemma steadies_changeThread (t : Target) (i : Int) (detail data : Option String)
    {f : DebugThread → DebugThread} (hid : ∀ x, (f x).id = x.id) (hf : ∀ x : DebugThread, x.Carries (f x)) :
    t.Steadies (t.changeThread i detail data f).1 := by
  unfold changeThread
  cases h : t.thread? i with
  | none => exact .refl t
  | some x =>
    refine steadies_putThread ?_
    rw [hid, id_of_thread? h, h]
    exact hf x

lemma steadies_forThreads {f : Target → Int → Target × List Note} (hf : ∀ (t : Target) (i : Int), t.Steadies (f t i).1)
    (t : Target) (ids : List Int) : t.Steadies (forThreads f t ids).1 := by
  induction ids generalizing t with
  | nil => exact .refl t
  | cons i rest ih => exact (hf t i).trans (ih (f t i).1)

/-- A stop. -/
lemma steadies_applyStop (t : Target) (body : StoppedBody) : t.Steadies (t.applyStop body).1 := by
  unfold applyStop
  split
  · exact .refl t
  · dsimp only
    have hsuspend : ∀ (u : Target) (i : Int), u.Steadies (u.changeThread i (some body.reason) body.text
        (·.suspend body.reason body.description)).1 := fun u i =>
      steadies_changeThread u i _ _ (fun _ => rfl) fun x => x.carries_suspend body.reason body.description
    refine (steadies_raise t).trans (Steadies.trans ?_ (steadies_forThreads hsuspend _ _))
    cases body.threadId with
    | none => exact .refl _
    | some i => exact steadies_meet _ i

/-- Threads go on. -/
lemma steadies_applyResume (t : Target) (thread : Int) (all : Bool) (detail : String) :
    t.Steadies (t.applyResume thread all detail).1 := by
  unfold applyResume
  split
  · exact .refl t
  · refine (steadies_raise t).trans (steadies_forThreads (fun u i => ?_) _ _)
    dsimp only
    split
    · split
      · exact steadies_meet u i
      · exact (steadies_meet u i).trans (steadies_changeThread _ i _ _ DebugThread.id_resume DebugThread.carries_resume)
    · exact steadies_meet u i

lemma steadies_foldl {β : Type} {f : Target × List Note → β → Target × List Note}
    (hf : ∀ (r : Target × List Note) (b : β), r.1.Steadies (f r b).1) (r : Target × List Note) (l : List β) :
    r.1.Steadies (l.foldl f r).1 := by
  induction l generalizing r with
  | nil => exact .refl _
  | cons b rest ih => exact (hf r b).trans (ih (f r b))

/-- The adapter's list of threads is taken in. -/
lemma steadies_mergeThreads (t : Target) (threads : List ThreadInfo) :
    t.Steadies (t.mergeThreads threads).1 := by
  unfold mergeThreads
  split
  · exact .refl t
  · refine steadies_foldl (fun r info => ?_) (t, []) threads
    obtain ⟨u, notes⟩ := r
    dsimp only
    cases h : u.thread? info.id with
    | some x =>
      refine steadies_putThread ?_
      show Steady (u.thread? x.id) _
      rw [id_of_thread? h, h]
      exact ⟨.inr ⟨rfl, fun hs => hs⟩, fun _ hfs => ⟨hfs, rfl, rfl⟩⟩
    | none =>
      refine steadies_putThread ?_
      show Steady (u.thread? info.id) _
      rw [h]
      rfl

/-! ## Targets whose threads may go -/

/-- Threads stay, are new or are gone; the target stays the same one. -/
def Moves (t u : Target) : Prop := u.id = t.id ∧ ∀ i, Steady (t.thread? i) (u.thread? i) ∨ u.thread? i = none

lemma Steadies.moves {t u : Target} (h : t.Steadies u) : t.Moves u := ⟨h.1, fun i => .inl (h.2 i)⟩

/-- A target all of whose threads are those of another one. -/
lemma moves_of_threads_eq {t u : Target} (hid : u.id = t.id) (h : u.threads = t.threads) : t.Moves u := by
  refine ⟨hid, fun i => .inl ?_⟩
  rw [show u.thread? i = t.thread? i by simp only [thread?, h]]
  exact .refl _

lemma moves_terminate (t : Target) : t.Moves t.terminate.1 := by
  unfold terminate
  split
  · exact (Steadies.refl t).moves
  · exact ⟨rfl, fun i => .inr rfl⟩

/-- One thread is taken away, and the others stay. -/
lemma thread?_filter (t : Target) (i j : Int) :
    Target.thread? { t with threads := t.threads.filter (·.id ≠ i) } j = if j = i then none else t.thread? j := by
  by_cases hj : j = i
  · rw [if_pos hj]
    refine List.find?_eq_none.mpr fun x hx => ?_
    simpa [hj] using (List.mem_filter.mp hx).2
  · rw [if_neg hj]
    simp only [thread?, List.find?_filter]
    congr 1
    funext x
    by_cases hx : x.id = j
    · simp [hx, hj]
    · simp [hx]

lemma moves_filter (t : Target) (i : Int) : t.Moves { t with threads := t.threads.filter (·.id ≠ i) } := by
  refine ⟨rfl, fun j => ?_⟩
  rw [thread?_filter]
  split
  · exact .inr rfl
  · exact .inl (.refl _)

/-- A thread started, exited or changed. -/
lemma moves_applyThread (t : Target) (body : ThreadBody) : t.Moves (t.applyThread body).1 := by
  unfold applyThread
  split
  · exact (Steadies.refl t).moves
  · dsimp only
    split
    · -- exited
      split
      · exact moves_filter t body.threadId
      · exact (steadies_raise t).moves
    · split
      · -- started
        cases h : t.raise.thread? body.threadId with
        | some x => exact (steadies_raise t).moves
        | none =>
          refine ((steadies_raise t).trans (steadies_putThread ?_)).moves
          show Steady (t.raise.thread? body.threadId) _
          rw [h]
          rfl
      · exact (((steadies_raise t).trans (steadies_meet _ _)).trans
          (steadies_changeThread _ _ _ _ (fun _ => rfl) DebugThread.Carries.refl)).moves

lemma moves_withBody {α : Type} (t : Target) (shape : Json.Shape α) (body : Json)
    {f : α → Target × List Note} (hf : ∀ a, t.Moves (f a).1) : t.Moves (t.withBody shape body f).1 := by
  unfold withBody
  split
  · exact hf _
  · exact (Steadies.refl t).moves

/-- Whatever the adapter says, threads stay, are new or are gone. -/
theorem moves_process (t : Target) (name : String) (body : Json) : t.Moves (t.process_ name body).1 := by
  unfold process_
  split
  · exact moves_withBody t _ body fun b => moves_of_threads_eq rfl rfl
  · exact moves_withBody t _ body (moves_applyThread t)
  · split
    · exact (steadies_applyStop t _).moves
    · exact (Steadies.refl t).moves
  · exact moves_withBody t _ body fun b => (steadies_applyResume t b.threadId _ _).moves
  · exact moves_withBody t _ body fun b => moves_of_threads_eq rfl rfl
  · exact moves_terminate t
  · exact moves_withBody t _ body fun b => moves_of_threads_eq rfl rfl
  · exact (Steadies.refl t).moves

/-- Keeping frames does nothing to other threads, and to its own one only if that is still in the stop. -/
lemma thread?_keepFrames (t : Target) (thread : Int) (stop : Nat) (frames : List Stack.Frame) (i : Int) :
    (t.keepFrames thread stop frames).thread? i = t.thread? i ∨
      (i = thread ∧ ∃ x, t.thread? i = some x ∧ x.isIn stop = true ∧
        (t.keepFrames thread stop frames).thread? i = some { x with frames := some frames }) := by
  unfold keepFrames
  cases h : t.thread? thread with
  | none => exact .inl rfl
  | some x =>
    have hid := id_of_thread? h
    simp only [thread?_putThread]
    unfold DebugThread.storeFrames
    by_cases hin : x.isIn stop = true
    · by_cases hi : thread = i
      · subst hi
        exact .inr ⟨rfl, x, h, hin, by simp [hin, hid]⟩
      · exact .inl (by simp [hin, hid, hi])
    · by_cases hi : thread = i
      · exact .inl (by simp [hin, hid, hi, ← h])
      · exact .inl (by simp [hin, hid, hi])

/-- A thread that is in the stop keeps the frames. -/
lemma thread?_keepFrames_of_isIn {t : Target} {thread : Int} {stop : Nat} {x : DebugThread}
    (hx : t.thread? thread = some x) (hin : x.isIn stop = true) (frames : List Stack.Frame) :
    (t.keepFrames thread stop frames).thread? thread = some { x with frames := some frames } := by
  simp [keepFrames, hx, DebugThread.storeFrames, hin, thread?_putThread, id_of_thread? hx]

lemma id_keepFrames (t : Target) (thread : Int) (stop : Nat) (frames : List Stack.Frame) :
    (t.keepFrames thread stop frames).id = t.id := by
  unfold keepFrames
  split <;> rfl

lemma state_keepFrames (t : Target) (thread : Int) (stop : Nat) (frames : List Stack.Frame) :
    (t.keepFrames thread stop frames).state = t.state := by
  unfold keepFrames
  split <;> rfl

lemma session_keepFrames (t : Target) (thread : Int) (stop : Nat) (frames : List Stack.Frame) :
    (t.keepFrames thread stop frames).session = t.session := by
  unfold keepFrames
  split <;> rfl

/-- Keeping contents does nothing to other threads, and to its own one only if that is still in the stop and its
frames are known. -/
lemma thread?_keepContents (t : Target) (thread : Int) (stop index : Nat) (scopes : List Stack.Scope)
    (contents : List Stack.Variable) (i : Int) :
    (t.keepContents thread stop index scopes contents).thread? i = t.thread? i ∨
      (i = thread ∧ ∃ x frames, t.thread? i = some x ∧ x.frames = some frames ∧ x.isIn stop = true ∧
        (t.keepContents thread stop index scopes contents).thread? i = some { x with
          frames := some (frames.modify index fun f => { f with scopes := some scopes, contents := some contents }) }) := by
  unfold keepContents
  cases h : t.thread? thread with
  | none => exact .inl rfl
  | some x =>
    have hid := id_of_thread? h
    simp only [thread?_putThread]
    unfold DebugThread.storeContents
    by_cases hi : thread = i
    · subst hi
      cases hframes : x.frames with
      | none => exact .inl (by simp [hid, h])
      | some frames =>
        dsimp only
        split
        · next hin => exact .inr ⟨rfl, x, frames, h, hframes, hin.1, by simp [hid]⟩
        · exact .inl (by simp [h])
    · refine .inl (if_neg ?_)
      split
      · split <;> simpa [hid] using hi
      · simpa [hid] using hi

lemma id_keepContents (t : Target) (thread : Int) (stop index : Nat) (scopes : List Stack.Scope)
    (contents : List Stack.Variable) : (t.keepContents thread stop index scopes contents).id = t.id := by
  unfold keepContents
  split <;> rfl

lemma state_keepContents (t : Target) (thread : Int) (stop index : Nat) (scopes : List Stack.Scope)
    (contents : List Stack.Variable) : (t.keepContents thread stop index scopes contents).state = t.state := by
  unfold keepContents
  split <;> rfl

lemma session_keepContents (t : Target) (thread : Int) (stop index : Nat) (scopes : List Stack.Scope)
    (contents : List Stack.Variable) : (t.keepContents thread stop index scopes contents).session = t.session := by
  unfold keepContents
  split <;> rfl

lemma isIn_of_currentStop {t : Target} {thread : Int} {stop : Nat} (h : t.currentStop thread = .ok stop) :
    ∃ x, t.thread? thread = some x ∧ x.isIn stop = true := by
  unfold currentStop at h
  split at h
  · cases h
  · next x hx =>
    split at h
    · next hsuspended =>
      obtain rfl := Except.ok.inj h
      exact ⟨x, hx, by simp [DebugThread.isIn, hsuspended]⟩
    · cases h

/-! ## Targets of the world -/

/-- A target that is there has the id it is known by. -/
lemma id_target {id : Nat} {w : World} (hpresent : (w.debugger.target? id).isSome = true) : (w.target id).id = id := by
  obtain ⟨t, ht⟩ := Option.isSome_iff_exists.mp hpresent
  rw [show w.target id = t from congrArg (·.getD default) ht]
  simpa using List.find?_some ht

/-- A target with a thread in a stop is there. -/
lemma isSome_of_currentStop {id : Nat} {thread : Int} {stop : Nat} {w : World}
    (h : (w.target id).currentStop thread = .ok stop) :
    (w.debugger.target? id).isSome = true := by
  obtain ⟨x, hx, -⟩ := isIn_of_currentStop h
  cases htarget : w.debugger.target? id with
  | some t => rfl
  | none =>
    have hdefault : w.target id = default := congrArg (·.getD default) htarget
    rw [hdefault] at hx
    cases hx

/-- A target that is there is found as what it was changed to. -/
lemma target?_putTarget {b : Debugger} {t u : Target} (ht : t ∈ b.targets) (hid : u.id = t.id) :
    (b.putTarget u).target? u.id = some u := by
  have hsame : ∀ x : Target, decide ((if x.id = u.id then u else x).id = u.id) = decide (x.id = u.id) := by
    intro x
    by_cases hx : x.id = u.id
    · simp [hx]
    · simp [hx]
  have hsome : ∃ x, b.targets.find? (fun x => decide (x.id = u.id)) = some x := by
    rw [← Option.isSome_iff_exists, List.find?_isSome]
    exact ⟨t, ht, decide_eq_true hid.symm⟩
  obtain ⟨x, hx⟩ := hsome
  have hxid : x.id = u.id := by simpa using List.find?_some hx
  simp only [Debugger.putTarget, Debugger.target?, List.find?_map, Function.comp_def, hsame, hx, Option.map_some,
    if_pos hxid]

/-- A target that is there stays there when it is changed, as the same one. -/
lemma target?_changeTarget {id : Nat} {w : World} {f : Target → Target × List Note}
    (hpresent : (w.debugger.target? id).isSome = true) (hid : (f (w.target id)).1.id = (w.target id).id) :
    (w.changeTarget id f).debugger.target? id = some (f (w.target id)).1 := by
  obtain ⟨t, ht⟩ := Option.isSome_iff_exists.mp hpresent
  have htarget : w.target id = t := congrArg (·.getD default) ht
  have hidt : t.id = id := by simpa using List.find?_some ht
  have hid' : (f (w.target id)).1.id = id := by rw [hid, htarget, hidt]
  have hput := target?_putTarget (List.mem_of_find?_eq_some ht) (hid'.trans hidt.symm)
  rwa [hid'] at hput

lemma target_changeTarget {id : Nat} {w : World} {f : Target → Target × List Note}
    (hpresent : (w.debugger.target? id).isSome = true) (hid : (f (w.target id)).1.id = (w.target id).id) :
    (w.changeTarget id f).target id = (f (w.target id)).1 :=
  congrArg (·.getD default) (target?_changeTarget hpresent hid)

/-- Targets are counted from one, so a change of one target leaves the others alone, also if it is not there. -/
lemma target_changeTarget_of_ne {id changed : Nat} {w : World} {f : Target → Target × List Note} (hpositive : 0 < id)
    (hne : changed ≠ id) (hid : (f (w.target changed)).1.id = (w.target changed).id) :
    (w.changeTarget changed f).target id = w.target id := by
  have hother : (f (w.target changed)).1.id ≠ id := by
    rw [hid]
    cases hthere : w.debugger.target? changed with
    | none =>
      rw [show w.target changed = default from congrArg (·.getD default) hthere]
      exact hpositive.ne
    | some t => exact (id_target (by rw [hthere]; rfl)).symm ▸ hne
  have hsame : ∀ x : Target, decide ((if x.id = (f (w.target changed)).1.id then (f (w.target changed)).1 else x).id = id)
      = decide (x.id = id) := by
    intro x
    by_cases hx : x.id = (f (w.target changed)).1.id
    · simp [hx, hother]
    · simp [hx]
  have htarget? : (w.debugger.putTarget (f (w.target changed)).1).target? id = w.debugger.target? id := by
    simp only [Debugger.putTarget, Debugger.target?, List.find?_map, Function.comp_def, hsame]
    cases hfound : w.debugger.targets.find? (fun x => decide (x.id = id)) with
    | none => rfl
    | some x =>
      have hx : x.id = id := by simpa using List.find?_some hfound
      rw [Option.map_some, if_neg (hx.trans_ne hother.symm)]
  exact congrArg (·.getD default) htarget?

end Target

end Switchboard.Debug
