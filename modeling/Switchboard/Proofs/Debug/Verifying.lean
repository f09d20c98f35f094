import Switchboard.Proofs.Breakpoint.Verified
import Switchboard.Proofs.Debug.Rounds

/-!
# Which answers breakpoints are verified by

* `retains_next`, `catalog_succ_cases`: of all that commands do only the recording of answers changes verifications;
* `Round.Took.eq_of_recorded`, `Round.Took.eq_of_handed`: rounds are told apart by when they were sent or recorded;
* `LastRecorded`, `LastSent`: the answer for a breakpoint that was recorded last, and the one to the last request;
* `verification_iff`: a breakpoint is verified by the answer for it that was recorded last.

Requests may be answered in another order than they were sent in. The answer that is recorded last need not be the one to
the request that was sent last.
-/

namespace Switchboard.Debug.Upkeep

open Breakpoint (Catalog Verification)
open Breakpoint.Catalog (Sound Retains Inherits Answers)

/-! ## What becomes of verifications -/

section Catalog

variable {w : World}

lemma breakpoints_relocate (w : World) (path : Path) :
    (w.relocate path).debugger.breakpoints = (w.debugger.relocate w.disk path).2.breakpoints := by
  unfold World.relocate
  dsimp only
  split <;> rfl

/-- Breakpoints that follow their anchors are verified as before. -/
lemma retains_relocate (hsound : Sound w.debugger.breakpoints) (path : Path) :
    Retains w.debugger.breakpoints (w.relocate path).debugger.breakpoints := by
  rw [breakpoints_relocate, Debugger.relocate]
  dsimp only
  split
  · exact .refl hsound
  · exact hsound.retains_followAll ..

/-- The catalog after a breakpoint was to be added. -/
lemma breakpoints_add (w : World) (project : String) (path : Path) (line : Nat) (column : Option Nat) :
    ((Editing.Call.add project path line column).change w).2.debugger.breakpoints =
      if line = 0 then w.debugger.breakpoints
      else (w.debugger.breakpoints.addLine project path line column
        ((w.debugger.linesOf? w.disk project path).bind fun f => Breakpoint.anchorIn? f line column)).2 := by
  rw [Editing.Call.change]
  split
  · rfl
  · unfold Editing.placeBreakpoint Catalog.addLine
    by_cases htaken : (w.debugger.breakpoints.findLine? path line).isSome = true
    · simp only [if_pos htaken]
    · simp only [if_neg htaken]
      rfl

/-- An editor adds, edits and removes breakpoints. -/
lemma inherits_change (hsound : Sound w.debugger.breakpoints) (hroom : w.debugger.breakpoints.nextId + 1 < Catalog.idLimit)
    (call : Editing.Call) : Inherits w.debugger.breakpoints (call.change w).2.debugger.breakpoints := by
  cases call with
  | add project path line column =>
    rw [breakpoints_add]
    split
    · exact .refl hsound
    · exact hsound.inherits_addLine hroom ..
  | edit id edits =>
    have hedited := hsound.inherits_edited id edits
    rw [← Catalog.breakpoints_applyEdits] at hedited
    rw [Editing.Call.change]
    cases h : Editing.applyEdits id edits w with
    | mk outcome w' =>
      rw [h] at hedited
      cases outcome <;> exact hedited
  | clear => exact Catalog.inherits_clear
  | setException caught uncaught => exact hsound.inherits_setException hroom caught uncaught

/-- Among all that commands do only the recording of answers changes verifications. -/
lemma retains_next {ch : Chore} {l : List Chore} {w' : World} (h : ch.next w = some (l, w'))
    (hsound : Sound w.debugger.breakpoints) (hroom : w.debugger.breakpoints.nextId + 1 < Catalog.idLimit)
    (hch : ∀ sent responses, ch ≠ .record sent responses) :
    Retains w.debugger.breakpoints w'.debugger.breakpoints := by
  cases ch with
  | change call =>
    obtain ⟨-, rfl⟩ := Prod.mk.inj (Option.some.inj h)
    exact (inherits_change hsound hroom call).retains
  | tell s t =>
    cases t with
    | file path =>
      obtain ⟨-, rfl⟩ := Prod.mk.inj (Option.some.inj h)
      exact retains_relocate hsound path
    | exceptions =>
      obtain ⟨-, rfl⟩ := Prod.mk.inj (Option.some.inj h)
      exact .refl hsound
  | errand e =>
    simp only [Chore.next] at h
    split at h
    · obtain ⟨-, rfl⟩ := Prod.mk.inj (Option.some.inj h)
      exact .refl hsound
    · cases h
  | ask q c stage live =>
    obtain ⟨r, -, heq⟩ := Option.map_eq_some_iff.mp h
    obtain ⟨-, rfl⟩ := Prod.mk.inj heq
    exact .refl hsound
  | list s | choose e | check s t | read s path =>
    obtain ⟨-, rfl⟩ := Prod.mk.inj (Option.some.inj h)
    exact .refl hsound
  | record sent responses => exact absurd rfl (hch sent responses)

end Catalog

/-- In this turn a command records answers. -/
def Records (r : Run) (n i : Nat) (sent : List (Nat × SourceBreakpoint)) (responses : List BreakpointResponse) : Prop :=
  r.schedule n = .step i ∧ r.Stands n i (.record sent responses)

section Turns

variable {r : Run} {n : Nat}

lemma catalog_of_records {i : Nat} {sent : List (Nat × SourceBreakpoint)} {responses : List BreakpointResponse}
    (h : Records r n i sent responses) :
    r.catalog (n + 1) = ((r.catalog n).applyVerification (sent.map (·.1)) responses).2 ∧
      ∀ sent' responses', ¬ r.Stands (n + 1) i (.record sent' responses') := by
  obtain ⟨turn, job, rest, here⟩ := h
  have hstep : upkeep.step job (.record sent responses :: rest) (r.moment n).state
      = some (rest, (r.moment n).state.verify (sent.map (·.1)) responses) := rfl
  have hplay := upkeep.play_succ_of_step turn here hstep
  constructor
  · exact congrArg (fun m : Ensemble.Moment World Job (List Chore) => m.state.debugger.breakpoints) hplay
  · rintro sent' responses' ⟨job', rest', hthere⟩
    have hplace : (r.moment (n + 1)).calls[i]? = some (job, rest) := by
      rw [Run.moment, hplay]
      exact List.getElem?_set_self (List.getElem?_eq_some_iff.mp here).1
    obtain ⟨-, rfl⟩ := Prod.mk.inj (Option.some.inj (hplace.symm.trans hthere))
    exact (tidy r here).2 _ (List.mem_cons_self ..)

/-- In a turn in which nothing is recorded all verifications stay. -/
lemma retains_succ (hsound : Sound (r.catalog n)) (hroom : (r.catalog n).nextId + 1 < Catalog.idLimit)
    (hnothing : ∀ i sent responses, ¬ Records r n i sent responses) : Retains (r.catalog n) (r.catalog (n + 1)) := by
  have hturn := upkeep.happens_play r.start r.schedule n
  have hlater : r.catalog (n + 1) = (upkeep.play r.start r.schedule (n + 1)).state.debugger.breakpoints := rfl
  rw [hlater]
  generalize upkeep.play r.start r.schedule (n + 1) = later at hturn
  cases hturn with
  | still => exact .refl hsound
  | begins job begun => exact .refl hsound
  | moves i job before after state turn here steps =>
    cases before with
    | nil => cases steps
    | cons ch rest =>
      obtain ⟨x, hnext, heq⟩ := Option.map_eq_some_iff.mp steps
      obtain ⟨-, rfl⟩ := Prod.mk.inj heq
      refine retains_next hnext hsound hroom fun sent responses hch => ?_
      exact hnothing i sent responses ⟨turn, job, rest, hch ▸ here⟩
  | around f other => exact .refl hsound

/-- The counter of ids has not come to its end so far. -/
def Room (r : Run) (n : Nat) : Prop := ∀ m < n, (r.catalog m).nextId + 1 < Catalog.idLimit

/-- A turn records answers, or all verifications stay. -/
lemma catalog_succ_cases (hsound : Sound (r.catalog n)) (hroom : (r.catalog n).nextId + 1 < Catalog.idLimit) :
    (∃ i sent responses, Records r n i sent responses ∧
        r.catalog (n + 1) = ((r.catalog n).applyVerification (sent.map (·.1)) responses).2) ∨
      (∀ i sent responses, ¬ Records r n i sent responses) ∧ Retains (r.catalog n) (r.catalog (n + 1)) := by
  by_cases h : ∃ i sent responses, Records r n i sent responses
  · obtain ⟨i, sent, responses, hrecords⟩ := h
    exact .inl ⟨i, sent, responses, hrecords, (catalog_of_records hrecords).1⟩
  · have hnothing : ∀ i sent responses, ¬ Records r n i sent responses := fun i sent responses hrecords =>
      h ⟨i, sent, responses, hrecords⟩
    exact .inr ⟨hnothing, retains_succ hsound hroom hnothing⟩

/-- At all times the catalog is sound. -/
lemma sound_catalog (hstart : Sound r.start.debugger.breakpoints) (hroom : Room r n) : Sound (r.catalog n) := by
  induction n with
  | zero => exact hstart
  | succ n ih =>
    have hsound := ih fun m hm => hroom m (Nat.lt_succ_of_lt hm)
    rcases catalog_succ_cases hsound (hroom n (Nat.lt_succ_self n)) with ⟨i, sent, responses, -, heq⟩ | ⟨-, hretains⟩
    · rw [heq]
      exact hsound.applyVerification ..
    · exact hretains.sound

/-- Ids are given out in order, and what has an id that was given out before was there before. -/
lemma exists_mem_catalog (hstart : Sound r.start.debugger.breakpoints) (hroom : Room r n) {m : Nat} (hmn : m ≤ n) :
    (r.catalog m).nextId ≤ (r.catalog n).nextId ∧
      ∀ b ∈ (r.catalog n).entries, b.id < (r.catalog m).nextId → ∃ a ∈ (r.catalog m).entries, a.id = b.id := by
  induction n, hmn using Nat.le_induction with
  | base => exact ⟨Nat.le_refl _, fun b hb _ => ⟨b, hb, rfl⟩⟩
  | succ n hmn ih =>
    have hbefore : Room r n := fun t ht => hroom t (Nat.lt_succ_of_lt ht)
    obtain ⟨hle, hold⟩ := ih hbefore
    have hsound := sound_catalog hstart hbefore
    rcases catalog_succ_cases hsound (hroom n (Nat.lt_succ_self n)) with ⟨i, sent, responses, -, heq⟩ | ⟨-, hretains⟩
    · rw [heq, Catalog.nextId_applyVerification]
      refine ⟨hle, fun b hb hid => ?_⟩
      obtain ⟨a, ha, hab, -⟩ := hsound.exists_mem_of_applyVerification (sent.map (·.1)) responses hb
      obtain ⟨x, hx, hxa⟩ := hold a ha (hab ▸ hid)
      exact ⟨x, hx, hxa.trans hab⟩
    · refine ⟨Nat.le_trans hle hretains.next, fun b hb hid => ?_⟩
      rcases hretains.old b hb with ⟨a, ha, hab, -⟩ | ⟨hnew, -⟩
      · obtain ⟨x, hx, hxa⟩ := hold a ha (hab ▸ hid)
        exact ⟨x, hx, hxa.trans hab⟩
      · omega

end Turns

/-! ## Rounds -/

section Rounds

lemma nodup_sourceBreakpoints {b : Debugger} (h : Sound b.breakpoints) (path : Path) :
    ((b.sourceBreakpoints path).map (·.1)).Nodup := by
  have hids : ((b.breakpoints.forFile path).map (·.id)).Nodup := by
    have hperm : (b.breakpoints.forFile path).Perm (b.breakpoints.entries.filter (·.isIn path)) := List.mergeSort_perm ..
    rw [(hperm.map _).nodup_iff]
    exact List.pairwise_map.mpr ((h.ordered.filter _).imp Nat.ne_of_lt)
  have hsub : List.Sublist ((b.sourceBreakpoints path).map (·.1)) ((b.breakpoints.forFile path).map (·.id)) := by
    rw [Debugger.sourceBreakpoints]
    induction b.breakpoints.forFile path with
    | nil => exact .slnil
    | cons x rest ih =>
      rw [List.filterMap_cons]
      cases x.toSource? with
      | none => exact ih.cons x.id
      | some source => exact ih.cons_cons x.id
  exact hids.sublist hsub

/-- What is sent for a file are breakpoints of it as they are. -/
lemma mem_sourceBreakpoints {b : Debugger} {path : Path} {id : Nat} {source : SourceBreakpoint}
    (h : (id, source) ∈ b.sourceBreakpoints path) :
    ∃ x ∈ b.breakpoints.entries, x.id = id ∧ x.isIn path = true ∧ x.toSource? = some source := by
  obtain ⟨x, hx, heq⟩ := List.mem_filterMap.mp h
  obtain ⟨y, hy, hpair⟩ := Option.map_eq_some_iff.mp heq
  obtain ⟨rfl, rfl⟩ := Prod.mk.inj hpair
  obtain ⟨hmem, hin⟩ := Catalog.mem_forFile.mp hx
  exact ⟨x, hmem, rfl, hin, hy⟩

namespace Round

variable {r : Run} {n : Nat} {x y : Round}

lemma Took.records (h : x.Took r) : Records r x.recorded x.job x.letter.sent x.responses :=
  ⟨h.turn, h.ready x.recorded h.heard_lt (Nat.le_refl _)⟩

lemma Took.read_lt_recorded (h : x.Took r) : x.read < x.recorded := by
  have hread := h.read_lt
  have hhanded := h.handed_lt
  have hheard := h.heard_lt
  omega

/-- Each breakpoint is sent once. -/
lemma Took.nodup (h : x.Took r) (hstart : Sound r.start.debugger.breakpoints) (hroom : Room r x.recorded) :
    x.ids.Nodup := by
  rw [ids, h.reads.listed]
  exact nodup_sourceBreakpoints (sound_catalog hstart fun m hm => hroom m (Nat.lt_trans hm h.read_lt_recorded)) _

/-- What is sent are breakpoints that are there. -/
lemma Took.exists_mem (h : x.Took r) {id : Nat} (hid : id ∈ x.ids) : ∃ b ∈ (r.catalog x.read).entries, b.id = id := by
  rw [ids, h.reads.listed] at hid
  obtain ⟨⟨id', source⟩, hmem, rfl⟩ := List.mem_map.mp hid
  obtain ⟨b, hb, hbid, -⟩ := mem_sourceBreakpoints hmem
  exact ⟨b, hb, hbid⟩

/-- A breakpoint that was sent keeps its id for itself. -/
lemma Took.id_lt (h : x.Took r) (hstart : Sound r.start.debugger.breakpoints) (hroom : Room r n) (hn : x.read ≤ n)
    {id : Nat} (hid : id ∈ x.ids) : id < (r.catalog n).nextId := by
  obtain ⟨b, hb, rfl⟩ := h.exists_mem hid
  have hread := sound_catalog hstart fun m hm => hroom m (Nat.lt_of_lt_of_le hm hn)
  have hlt : b.id < (r.catalog x.read).nextId := hread.below b hb
  exact Nat.lt_of_lt_of_le hlt (exists_mem_catalog hstart hroom hn).1

/-- Answers are recorded one at a time. -/
lemma Took.eq_of_recorded (hx : x.Took r) (hy : y.Took r) (h : x.recorded = y.recorded) :
    x.ids = y.ids ∧ x.responses = y.responses := by
  have hjob : x.job = y.job := Ensemble.Turn.step.inj (hx.turn.symm.trans (h ▸ hy.turn))
  have hchore := hx.records.2.eq (h ▸ hjob ▸ hy.records.2)
  obtain ⟨hsent, hresponses⟩ := Chore.record.inj hchore
  exact ⟨by rw [ids, ids, hsent], hresponses⟩

/-- Requests are handed over one at a time, and each is answered once. -/
lemma Took.eq_of_handed (hx : x.Took r) (hy : y.Took r) (h : x.handed = y.handed) :
    x.ids = y.ids ∧ x.responses = y.responses := by
  have hjob : x.job = y.job := Ensemble.Turn.step.inj (hx.hands.turn.symm.trans (h ▸ hy.hands.turn))
  have hposts : Posts r x.handed x.job y.letter := h ▸ hjob ▸ hy.hands.posts
  have hchore := hx.hands.posts.eq hposts
  -- where one answer was found the other one cannot be waited for
  have hle : ∀ {u v : Round}, u.Took r → v.Took r → u.job = v.job → u.handed = v.handed → v.heard ≤ u.heard := by
    intro u v hu hv huv hhanded
    by_contra hlt
    obtain ⟨stage, live, hstands, -⟩ := hv.awaits (u.heard + 1) (by have := hu.handed_lt; omega) (by omega)
    have hready := hu.ready (u.heard + 1) (Nat.lt_succ_self _) (Nat.succ_le_of_lt hu.heard_lt)
    cases (huv ▸ hready).eq hstands
  have hheard : x.heard = y.heard := Nat.le_antisymm (hle hy hx hjob.symm h.symm) (hle hx hy hjob h)
  have hready := hy.ready (y.heard + 1) (Nat.lt_succ_self _) (Nat.succ_le_of_lt hy.heard_lt)
  have hready' := hx.ready (x.heard + 1) (Nat.lt_succ_self _) (Nat.succ_le_of_lt hx.heard_lt)
  obtain ⟨hsent, hresponses⟩ := Chore.record.inj (hready'.eq (hheard ▸ hjob ▸ hready))
  exact ⟨by rw [ids, ids, hsent], hresponses⟩

end Round

end Rounds

/-! ## The answer that counts -/

/-- Before the time `n` a round was recorded in which the breakpoint of the id was sent and got an answer that means this. -/
def Answered (r : Run) (n id : Nat) (x : Round) (v : Verification) : Prop :=
  x.Took r ∧ x.recorded < n ∧ ∃ a, Answers x.ids x.responses id a ∧ v = .ofResponse a

/-- Of all answers for a breakpoint this is the one that was recorded last. -/
def LastRecorded (r : Run) (n id : Nat) (v : Verification) : Prop :=
  ∃ x, Answered r n id x v ∧ ∀ y u, Answered r n id y u → y.recorded ≤ x.recorded

/-- Of all answers for a breakpoint this is the one to the request that was sent last. -/
def LastSent (r : Run) (n id : Nat) (v : Verification) : Prop :=
  ∃ x, Answered r n id x v ∧ ∀ y u, Answered r n id y u → y.handed ≤ x.handed

section Answered

variable {r : Run} {n id : Nat} {x y : Round} {v u : Verification}

lemma Answered.eq_of_same (hstart : Sound r.start.debugger.breakpoints) (hroom : Room r n) (hx : Answered r n id x v)
    (hy : Answered r n id y u) (hsame : x.ids = y.ids ∧ x.responses = y.responses) : v = u := by
  obtain ⟨htook, hlt, a, ha, rfl⟩ := hx
  obtain ⟨-, -, b, hb, rfl⟩ := hy
  have hnodup := htook.nodup hstart fun m hm => hroom m (Nat.lt_trans hm hlt)
  rw [← hsame.1, ← hsame.2] at hb
  rw [ha.unique hnodup hb]

/-- Only one answer is the last one that was recorded. -/
lemma LastRecorded.unique (hstart : Sound r.start.debugger.breakpoints) (hroom : Room r n) (hv : LastRecorded r n id v)
    (hu : LastRecorded r n id u) : v = u := by
  obtain ⟨x, hx, hxlast⟩ := hv
  obtain ⟨y, hy, hylast⟩ := hu
  have hsame : x.recorded = y.recorded := Nat.le_antisymm (hylast x v hx) (hxlast y u hy)
  exact hx.eq_of_same hstart hroom hy (hx.1.eq_of_recorded hy.1 hsame)

lemma LastSent.unique (hstart : Sound r.start.debugger.breakpoints) (hroom : Room r n) (hv : LastSent r n id v)
    (hu : LastSent r n id u) : v = u := by
  obtain ⟨x, hx, hxlast⟩ := hv
  obtain ⟨y, hy, hylast⟩ := hu
  have hsame : x.handed = y.handed := Nat.le_antisymm (hylast x v hx) (hxlast y u hy)
  exact hx.eq_of_same hstart hroom hy (hx.1.eq_of_handed hy.1 hsame)

/-- If there were answers for a breakpoint, one of them was to the request that was sent last. -/
lemma Answered.exists_lastSent (h : Answered r n id x v) : ∃ u, LastSent r n id u := by
  have hlt : ∀ y u, Answered r n id y u → y.handed < n := by
    intro y u hy
    have hhanded := hy.1.handed_lt
    have hheard := hy.1.heard_lt
    have hrecorded := hy.2.1
    omega
  obtain ⟨last, ⟨u, hlast⟩, hmin⟩ := (measure fun y : Round => n - y.handed).wf.has_min
    { y | ∃ u, Answered r n id y u } ⟨x, v, h⟩
  refine ⟨u, last, hlast, fun y w hy => ?_⟩
  have hnot : ¬ n - y.handed < n - last.handed := hmin y ⟨w, hy⟩
  have hylt := hlt y w hy
  have hlastlt := hlt last u hlast
  omega

/-- If nothing is recorded for a breakpoint, its last answer stays the last one. -/
lemma lastRecorded_succ_iff (hnone : ∀ x v, Answered r (n + 1) id x v → x.recorded ≠ n) :
    LastRecorded r (n + 1) id v ↔ LastRecorded r n id v := by
  have hsame : ∀ x v, Answered r (n + 1) id x v ↔ Answered r n id x v := by
    intro x v
    constructor
    · intro h
      have hne := hnone x v h
      have hlt := h.2.1
      exact ⟨h.1, by omega, h.2.2⟩
    · intro h
      exact ⟨h.1, Nat.lt_succ_of_lt h.2.1, h.2.2⟩
  simp only [LastRecorded, hsame]

/-- What is recorded now was recorded last. -/
lemma lastRecorded_of_recorded (hstart : Sound r.start.debugger.breakpoints) (hroom : Room r (n + 1))
    (h : Answered r (n + 1) id x v) (hn : x.recorded = n) : LastRecorded r (n + 1) id u ↔ u = v := by
  have hlast : LastRecorded r (n + 1) id v := ⟨x, h, fun y w hy => by have := hy.2.1; omega⟩
  constructor
  · intro hu
    exact hu.unique hstart hroom hlast
  · rintro rfl
    exact hlast

end Answered

section Verified

variable {r : Run} {n : Nat}

/-- A breakpoint is verified by the answer for it that was recorded last. -/
theorem verification_eq_some_iff (hstart : Sound r.start.debugger.breakpoints)
    (hnone : ∀ b ∈ r.start.debugger.breakpoints.entries, b.verification = none) (hroom : Room r n) {b : Breakpoint}
    (hb : b ∈ (r.catalog n).entries) {v : Verification} : b.verification = some v ↔ LastRecorded r n b.id v := by
  induction n generalizing b v with
  | zero =>
    rw [hnone b hb]
    constructor
    · intro h
      cases h
    · rintro ⟨x, hx, -⟩
      exact absurd hx.2.1 (Nat.not_lt_zero _)
  | succ n ih =>
    have hbefore : Room r n := fun m hm => hroom m (Nat.lt_succ_of_lt hm)
    have hsound := sound_catalog hstart hbefore
    rcases catalog_succ_cases hsound (hroom n (Nat.lt_succ_self n)) with
      ⟨i, sent, responses, hrecords, heq⟩ | ⟨hnothing, hretains⟩
    · obtain ⟨x, hx, hn, -, hsent, hresponses⟩ := exists_took hrecords.1 hrecords.2
      have hnodup : x.ids.Nodup := hx.nodup hstart (hn ▸ hbefore)
      rw [heq, ← hsent, ← hresponses] at hb
      obtain ⟨a, ha, hab, ⟨answer, hanswer, hv⟩ | ⟨hunanswered, hv⟩⟩ :=
        hsound.verification_applyVerification hnodup x.responses hb
      · have hnow : Answered r (n + 1) b.id x (.ofResponse answer) :=
          ⟨hx, hn ▸ Nat.lt_succ_self n, answer, hanswer, rfl⟩
        rw [lastRecorded_of_recorded hstart hroom hnow hn, hv, Option.some.injEq]
        exact eq_comm
      · rw [hv, ih hbefore ha, hab, lastRecorded_succ_iff]
        rintro y u ⟨hy, -, answer, hanswer, -⟩ hyn
        obtain ⟨hids, hsame⟩ := hx.eq_of_recorded hy (hn.trans hyn.symm)
        exact hunanswered answer (hids ▸ hsame ▸ hanswer)
    · have hnow : ∀ y u, Answered r (n + 1) b.id y u → y.recorded ≠ n := by
        rintro y u ⟨hy, -, -⟩ rfl
        exact hnothing _ _ _ hy.records
      rw [lastRecorded_succ_iff hnow]
      rcases hretains.old b hb with ⟨a, ha, hab, hv⟩ | ⟨hnew, hv⟩
      · rw [← hv, ih hbefore ha, hab]
      · rw [hv]
        constructor
        · intro h
          cases h
        · rintro ⟨y, ⟨hy, hlt, answer, hanswer, -⟩, -⟩
          have hread := hy.read_lt_recorded
          have hid := hy.id_lt hstart hbefore (by omega) hanswer.mem
          omega

/-- A verification changes in a turn in which the answer for this breakpoint is recorded, which was there all the time since
it was sent. -/
lemma exists_took_of_ne (hstart : Sound r.start.debugger.breakpoints) (hroom : Room r (n + 1)) {a b : Breakpoint}
    (ha : a ∈ (r.catalog n).entries) (hb : b ∈ (r.catalog (n + 1)).entries) (hid : a.id = b.id)
    (hne : a.verification ≠ b.verification) :
    ∃ x : Round, x.Took r ∧ x.recorded = n ∧
      (∃ answer, Answers x.ids x.responses b.id answer ∧ b.verification = some (.ofResponse answer)) ∧
        ∀ t, x.read ≤ t → t ≤ n → ∃ y ∈ (r.catalog t).entries, y.id = b.id := by
  have hbefore : Room r n := fun m hm => hroom m (Nat.lt_succ_of_lt hm)
  have hsound := sound_catalog hstart hbefore
  rcases catalog_succ_cases hsound (hroom n (Nat.lt_succ_self n)) with
    ⟨i, sent, responses, hrecords, heq⟩ | ⟨-, hretains⟩
  · obtain ⟨x, hx, rfl, -, hsent, hresponses⟩ := exists_took hrecords.1 hrecords.2
    have hnodup : x.ids.Nodup := hx.nodup hstart hbefore
    rw [heq, ← hsent, ← hresponses] at hb
    obtain ⟨y, hy, hyb, ⟨answer, hanswer, hv⟩ | ⟨-, hv⟩⟩ :=
      hsound.verification_applyVerification hnodup x.responses hb
    · refine ⟨x, hx, rfl, ⟨answer, hanswer, hv⟩, fun t hread ht => ?_⟩
      have hlt := hx.id_lt hstart (fun m hm => hbefore m (Nat.lt_of_lt_of_le hm ht)) hread hanswer.mem
      obtain ⟨z, hz, hza⟩ := (exists_mem_catalog hstart hbefore ht).2 a ha (hid ▸ hlt)
      exact ⟨z, hz, hza.trans hid⟩
    · have hsame : y = a := hsound.eq_of_id_eq hy ha (hyb.trans hid.symm)
      exact absurd (hsame ▸ hv).symm hne
  · rcases hretains.old b hb with ⟨y, hy, hyb, hv⟩ | ⟨hnew, -⟩
    · have hsame : y = a := hsound.eq_of_id_eq hy ha (hyb.trans hid.symm)
      exact absurd (hsame ▸ hv) hne
    · have hlt := hsound.below a ha
      omega

end Verified

/-- At all times a breakpoint has the verification of the answer for it that was recorded last. This is the answer to the
request that was sent last with it if and only if those two answers say the same. No breakpoint is ever verified by an
answer to a request that it was not sent with. -/
theorem verification_iff (r : Run) (n : Nat) (hstart : Sound r.start.debugger.breakpoints)
    (hnone : ∀ b ∈ r.start.debugger.breakpoints.entries, b.verification = none) (hroom : Room r n) :
    (∀ b ∈ (r.catalog n).entries,
        (∀ v, b.verification = some v ↔ LastRecorded r n b.id v) ∧
        ((∀ v, b.verification = some v → LastSent r n b.id v) ↔
          ∀ v u, LastRecorded r n b.id v → LastSent r n b.id u → v = u)) ∧
      ∀ m < n, ∀ a ∈ (r.catalog m).entries, ∀ b ∈ (r.catalog (m + 1)).entries, a.id = b.id →
        a.verification ≠ b.verification → ∃ x : Round, x.Took r ∧ x.recorded = m ∧
          (∃ answer, Answers x.ids x.responses b.id answer ∧ b.verification = some (.ofResponse answer)) ∧
            ∀ t, x.read ≤ t → t ≤ m → ∃ y ∈ (r.catalog t).entries, y.id = b.id := by
  constructor
  · intro b hb
    have hlast : ∀ v, b.verification = some v ↔ LastRecorded r n b.id v := fun v =>
      verification_eq_some_iff hstart hnone hroom hb
    refine ⟨hlast, ?_, ?_⟩
    · intro hclaim v u hv hu
      exact (hclaim v ((hlast v).mpr hv)).unique hstart hroom hu
    · intro hagree v hv
      have hrecorded := (hlast v).mp hv
      have hsent : ∃ u, LastSent r n b.id u := hrecorded.elim fun x hx => hx.1.exists_lastSent
      obtain ⟨u, hu⟩ := hsent
      exact hagree v u hrecorded hu ▸ hu
  · intro m hm a ha b hb hid hne
    exact exists_took_of_ne hstart (fun t ht => hroom t (by omega)) ha hb hid hne

/-! ### An answer that is overtaken -/

/-- A session that is ready, and no breakpoints. -/
def readySession : World where
  net := { channels := [{ dialect := .sequenced, phase := .ready }] }
  debugger := { placesFrames := false, sessions := [default], current := [("", 0)] }

/-- The file in which breakpoints are set. -/
def demoFile : Path := ⟨"demo/Main.java"⟩

/-- The adapter answers the request of a number and says of each breakpoint whether it is verified. -/
def answers (number : Int) (verdicts : List Bool) (w : World) : World :=
  w.updateChannel 0 fun ch => { ch with
    pending := ch.pending.answer number
      (.ok (.obj [("breakpoints", .arr (verdicts.map fun verified => .obj [("verified", .bool verified)]))])) }

/-- A breakpoint is added and then gets a condition. The adapter answers the second request first, which it takes, and then
the first one, which it does not take. -/
def overtaking : List (Ensemble.Turn Job (World → World)) :=
  .begins (.edit (.add "demo" demoFile 3 none)) :: List.replicate 11 (.step 0)
    ++ .begins (.edit (.edit 1 [("CONDITION", "n > 0")])) :: List.replicate 11 (.step 1)
    ++ .around (answers 2 [true]) :: List.replicate 3 (.step 1)
    ++ .around (answers 1 [false]) :: List.replicate 3 (.step 0)

/-- The run of these turns. -/
def overtaken : Run where
  start := readySession
  schedule n := overtaking.getD n (.around id)

/-- The command whose turn it is, and what it is about to go on with. -/
def Run.upNext (r : Run) (n : Nat) : Option (Nat × Chore) :=
  match r.schedule n with
  | .step i => ((r.moment n).calls[i]?.bind fun c => c.2.head?).map (i, ·)
  | _ => none

lemma Run.Stands.upNext {r : Run} {n i : Nat} {ch : Chore} (h : r.Stands n i ch) (turn : r.schedule n = .step i) :
    r.upNext n = some (i, ch) := by
  obtain ⟨job, rest, here⟩ := h
  rw [Run.upNext, turn]
  dsimp only
  rw [here]
  rfl

/-- In the run a command hands its request over or records its answer only at these times. -/
def Expected (n : Nat) (i : Nat) : Chore → Bool
  | .ask _ _ (.posting _ _) _ => (n, i) ∈ [(10, 0), (22, 1)]
  | .record _ _ => (n, i) ∈ [(27, 1), (31, 0)]
  | _ => true

/-- When all is done the first breakpoint is not verified, although the request that was sent last was answered so. -/
theorem not_lastSent_overtaken :
    Sound overtaken.start.debugger.breakpoints ∧
      (∀ b ∈ overtaken.start.debugger.breakpoints.entries, b.verification = none) ∧ Room overtaken 32 ∧
      (∀ c ∈ (overtaken.moment 32).calls, c.2.isEmpty = true) ∧
      ¬ ∀ b ∈ (overtaken.catalog 32).entries, ∀ v, b.verification = some v → LastSent overtaken 32 b.id v := by
  have hstart : Sound overtaken.start.debugger.breakpoints := Catalog.sound_empty
  have hnone : ∀ b ∈ overtaken.start.debugger.breakpoints.entries, b.verification = none := by decide
  have hroom : Room overtaken 32 := by
    unfold Room
    decide +kernel
  have hquiet : ∀ c ∈ (overtaken.moment 32).calls, c.2.isEmpty = true := by decide +kernel
  have hexpected : ∀ n < 32, (overtaken.upNext n).all (fun c => Expected n c.1 c.2) = true := by decide +kernel
  have hlater : ∃ b ∈ (overtaken.catalog 32).entries,
      b.id = 1 ∧ b.verification = some ⟨false, none, none, none⟩ := by
    decide +kernel
  have hearlier : ∃ b ∈ (overtaken.catalog 28).entries,
      b.id = 1 ∧ b.verification = some ⟨true, none, none, none⟩ := by
    decide +kernel
  refine ⟨hstart, hnone, hroom, hquiet, fun hclaim => ?_⟩
  -- when a round of this run was handed over and recorded
  have htimes : ∀ x : Round, x.Took overtaken → x.recorded < 32 →
      (x.handed = 10 ∧ x.recorded = 31) ∨ (x.handed = 22 ∧ x.recorded = 27) := by
    intro x hx hlt
    have hhanded := hexpected x.handed (by have := hx.handed_lt; have := hx.heard_lt; omega)
    have hrecorded := hexpected x.recorded hlt
    rw [hx.hands.posts.upNext hx.hands.turn] at hhanded
    rw [hx.records.2.upNext hx.turn] at hrecorded
    simp only [Option.all_some, Expected, List.mem_cons, Prod.mk.injEq, List.not_mem_nil, or_false,
      decide_eq_true_eq] at hhanded hrecorded
    omega
  obtain ⟨b, hb, hid, hv⟩ := hlater
  obtain ⟨a, ha, haid, hav⟩ := hearlier
  obtain ⟨x, hx, hlast⟩ := hclaim b hb _ hv
  have hrecorded := (((verification_iff overtaken 28 hstart hnone fun m hm => hroom m (by omega)).1 a ha).1 _).mp hav
  obtain ⟨y, hy, -⟩ := hrecorded
  rw [haid] at hy
  rw [hid] at hx hlast
  have hylater : Answered overtaken 32 1 y ⟨true, none, none, none⟩ := ⟨hy.1, by have := hy.2.1; omega, hy.2.2⟩
  have hle : y.handed ≤ x.handed := hlast y _ hylater
  have hxtimes := htimes x hx.1 hx.2.1
  have hytimes := htimes y hy.1 hylater.2.1
  have hylt := hy.2.1
  -- the answer that counts would have to be the one of the second request, which says something else
  have hsame : x.recorded = y.recorded := by omega
  have hvalue := hx.eq_of_same hstart hroom hylater (hx.1.eq_of_recorded hy.1 hsame)
  exact absurd (congrArg Verification.verified hvalue) (by decide)

end Switchboard.Debug.Upkeep
