import Switchboard.Proofs.Channel.Speech
import Switchboard.Proofs.Debug.Departures

/-!
# Sessions that are ended under a new target

* `Scene.Handles`, `Removes`, `Hits`: the event loop of a session goes about a `terminated` event, takes the session out of
  the table, and says goodbye to the adapter or closes the channel;
* `Scene.Retiring`: where it can be with such an event;
* `Scene.Claims`: a run gets its target on a session;
* `hit_after_claim_iff`: the session is hit by an event that had come before the claim exactly if the claim falls between
  the end of an earlier target and the turn at the table, or the event has waited and ends the new target itself.

Who has lost its place in the table does not get it back, so no run claims a target on a session after that.
-/

namespace Switchboard.Debug.Running.Scene

open World (Spares Keeps)

/-! ## The handling of a `terminated` event -/

/-- What is left of retiring a session when it is its turn at the table. -/
def removing (x : SessionId) : Task Wait World Unit := (forgetting x).andThen fun _ => close x

/-- What is left of a `terminated` event when it has been applied to the live target, if there was one. -/
def concluding (x : SessionId) : Option Target → Task Wait World Unit
  | some _ => .wait .table (removing x)
  | none => .done ()

lemma handleEvent_eq {x : SessionId} {e : Channel.Event} (hname : e.name = "terminated") :
    handleEvent x e
      = .access (fun w => (w.applyDebugEvent x e).2) fun w => concluding x (w.debugger.liveTarget? x) := by
  unfold handleEvent
  rw [hname, if_neg (by decide)]
  show Task.access _ _ = Task.access _ _
  congr 1
  funext w
  show Task.andThen (.done (w.applyDebugEvent x e).1) _ = _
  cases hlive : w.debugger.liveTarget? x with
  | none =>
    have hfound : (w.applyDebugEvent x e).1 = none := by rw [World.applyDebugEvent, hlive]
    rw [hfound]
    rfl
  | some t =>
    have hfound : ∃ id, (w.applyDebugEvent x e).1 = some (id, .terminated) := by
      rw [World.applyDebugEvent, hlive]
      dsimp only
      rw [hname]
      exact ⟨_, rfl⟩
    obtain ⟨id, hfound⟩ := hfound
    rw [hfound]
    rfl

section Turns

variable {s : Scene} {x : SessionId}

/-- An event loop stays where it is in the turns of others. -/
lemma loops_after {turn : Turn} (hturn : turn ≠ .loop x) : (s.after turn).loops x = s.loops x := by
  cases turn with
  | begins call =>
    unfold after
    dsimp only
    split <;> rfl
  | step i =>
    rcases after_step s i with ⟨call, work, work', w', -, -, heq⟩ | heq
    · rw [heq]
    · rw [heq]
  | loop y =>
    have hyx : x ≠ y := fun h => hturn (congrArg Turn.loop h.symm)
    unfold after looped goOn
    grind [Scene.putLoop]
  | outside new => rfl

/-- The turn of an event loop that is at an event. -/
lemma after_busy {work : Task Wait World Unit} (hserved : served s.world x = true) (hloop : s.loops x = .busy work) :
    (∃ r, work = .done r ∧ s.after (.loop x) = s.putLoop x .idle) ∨
      (∃ work' w', work.tick? World.holds s.world = some (work', w') ∧
        s.after (.loop x) = { s with world := w' }.putLoop x (.busy work')) ∨
      work.tick? World.holds s.world = none ∧ s.after (.loop x) = s := by
  have hlooped : s.after (.loop x) = s.goOn x .idle .busy work := by
    unfold after
    rw [served] at hserved
    simp only [hserved, if_true, looped, hloop]
  rw [hlooped]
  unfold goOn
  split
  · next r => exact .inl ⟨r, rfl, rfl⟩
  · cases htick : work.tick? World.holds s.world with
    | none => exact .inr (.inr ⟨rfl, rfl⟩)
    | some r => exact .inr (.inl ⟨r.1, r.2, rfl, rfl⟩)

end Turns

section Handling

variable (start : World) (schedule : Nat → Turn) (x : SessionId)

/-- In this turn the event loop of the session goes about a `terminated` event. -/
def Handles (a : Nat) : Prop :=
  schedule a = .loop x ∧
    ∃ e : Channel.Event, e.name = "terminated" ∧ (play start schedule a).loops x = .busy (handleEvent x e)

/-- Since turn `a` the event loop has been at the same event. -/
def IsAt (a n : Nat) : Prop :=
  a < n ∧ ∀ k, a < k → k ≤ n → ∃ left, (play start schedule k).loops x = .busy left

/-- In turn `n` the session is taken out of the table because of the event that was gone about in turn `a`. -/
def Removes (a n : Nat) : Prop :=
  schedule n = .loop x ∧ IsAt start schedule x a n ∧ (play start schedule n).loops x = .busy (removing x)

/-- In turn `n` the adapter is told to disconnect, or the channel is closed, because of that event. -/
def Hits (a n : Nat) : Prop :=
  schedule n = .loop x ∧ IsAt start schedule x a n ∧
    let before := (play start schedule n).world
    let after := (play start schedule (n + 1)).world
    let c := (before.debugger.session x).channel
    (∃ message, Network.Leaves c before.net after.net message ∧ (before.channel c).dialect.Reads message "disconnect") ∨
      (before.channel c).phase ≠ .closed ∧ (after.channel c).phase = .closed

/-- Where the event loop can be with the event that was gone about in turn `a`. -/
inductive Retiring (a n : Nat) : Prop where
  | spared (live : (play start schedule a).world.debugger.liveTarget? x = none)
      (left : (play start schedule n).loops x = .busy (.done ()))
  | queues (t : Target) (live : (play start schedule a).world.debugger.liveTarget? x = some t)
      (left : (play start schedule n).loops x = .busy (.wait .table (removing x)))
  | enters (t : Target) (live : (play start schedule a).world.debugger.liveTarget? x = some t)
      (left : (play start schedule n).loops x = .busy (removing x))
  | ends (t : Target) (live : (play start schedule a).world.debugger.liveTarget? x = some t) (f : Nat) (passed : f < n)
      (removed : Removes start schedule x a f)

variable {start schedule x} {a n : Nat}

/-- The event loop of a session that is at something takes up the events of that session. -/
lemma served_of_busy (hfresh : Fresh start) {work : Task Wait World Unit}
    (hloop : (play start schedule n).loops x = .busy work) : served (play start schedule n).world x = true := by
  by_contra hnot
  have hidle := (attended hfresh schedule n).begun x (by simpa using hnot)
  rw [hidle] at hloop
  cases hloop

lemma IsAt.of_succ (h : IsAt start schedule x a (n + 1)) (han : a < n) : IsAt start schedule x a n :=
  ⟨han, fun k hak hkn => h.2 k hak (by omega)⟩

/-- One turn of the event loop that is at an event; it is still at it afterwards. -/
lemma tick_of_busy (hfresh : Fresh start) (hturn : schedule n = .loop x) {work left : Task Wait World Unit}
    (hloop : (play start schedule n).loops x = .busy work)
    (hnext : (play start schedule (n + 1)).loops x = .busy left) :
    work.tick? World.holds (play start schedule n).world = some (left, (play start schedule (n + 1)).world) ∨
      work.tick? World.holds (play start schedule n).world = none ∧ left = work ∧
        (play start schedule (n + 1)).world = (play start schedule n).world := by
  have hafter : play start schedule (n + 1) = (play start schedule n).after (.loop x) := by
    rw [← hturn]
    rfl
  rw [hafter] at hnext ⊢
  rcases after_busy (served_of_busy hfresh hloop) hloop with ⟨r, -, heq⟩ | ⟨work', w', htick, heq⟩ | ⟨htick, heq⟩
  · rw [heq, loops_putLoop, if_pos rfl] at hnext
    cases hnext
  · rw [heq, loops_putLoop, if_pos rfl] at hnext
    obtain rfl := Activity.Loop.busy.inj hnext
    left
    rw [htick, heq]
    rfl
  · rw [heq, hloop] at hnext
    obtain rfl := Activity.Loop.busy.inj hnext
    exact .inr ⟨htick, rfl, by rw [heq]⟩

/-- While the event loop is at such an event, it is at one of these places with it. -/
lemma retiring (hfresh : Fresh start) (hhandles : Handles start schedule x a) (hat : IsAt start schedule x a n) :
    Retiring start schedule x a n := by
  obtain ⟨hturn, e, hname, hloop⟩ := hhandles
  have han := hat.1
  rw [handleEvent_eq hname] at hloop
  induction n, han using Nat.le_induction with
  | base =>
    obtain ⟨left, hleft⟩ := hat.2 (a + 1) (Nat.lt_succ_self a) (Nat.le_refl _)
    rcases tick_of_busy hfresh hturn hloop hleft with htick | ⟨htick, -, -⟩
    · obtain ⟨rfl, -⟩ := Prod.mk.inj (Option.some.inj htick)
      cases hlive : (play start schedule a).world.debugger.liveTarget? x with
      | none =>
        simp only [hlive] at hleft
        exact .spared hlive hleft
      | some t =>
        simp only [hlive] at hleft
        exact .queues t hlive hleft
    · cases htick
  | succ n hle ih =>
    obtain ⟨left, hleft⟩ := hat.2 (n + 1) (by omega) (Nat.le_refl _)
    have hstays : schedule n ≠ .loop x → (play start schedule (n + 1)).loops x = (play start schedule n).loops x :=
      loops_after
    have hplace := ih (hat.of_succ (by omega))
    by_cases hnow : schedule n = .loop x
    · cases hplace with
      | spared live done =>
        rcases tick_of_busy hfresh hnow done hleft with htick | ⟨-, rfl, -⟩
        · cases htick
        · exact .spared live hleft
      | queues t live waits =>
        rcases tick_of_busy hfresh hnow waits hleft with htick | ⟨htick, -, -⟩
        · obtain ⟨rfl, -⟩ := Prod.mk.inj (Option.some.inj htick)
          exact .enters t live hleft
        · cases htick
      | enters t live enters => exact .ends t live n (Nat.lt_succ_self n) ⟨hnow, hat.of_succ (by omega), enters⟩
      | ends t live f passed removed => exact .ends t live f (by omega) removed
    · have hsame := hstays hnow
      cases hplace with
      | spared live done => exact .spared live (hsame.trans done)
      | queues t live waits => exact .queues t live (hsame.trans waits)
      | enters t live enters => exact .enters t live (hsame.trans enters)
      | ends t live f passed removed => exact .ends t live f (by omega) removed

/-- A session that has a message leave or is closed has seen its network change. -/
lemma not_hits_of_net_eq (h : (play start schedule (n + 1)).world.net = (play start schedule n).world.net) :
    ¬ Hits start schedule x a n := by
  rintro ⟨-, -, ⟨message, hleaves, -⟩ | ⟨hopen, hclosed⟩⟩
  · rw [h] at hleaves
    exact Network.not_leaves_of_eq rfl hleaves
  · have hchannel : (play start schedule (n + 1)).world.channel = (play start schedule n).world.channel := by
      funext c
      exact congrArg (Network.channel · c) h
    rw [hchannel] at hclosed
    exact hopen hclosed

/-- What is done to the channel because of such an event is done when the session has been taken out of the table, and
there was a live target to be ended. -/
lemma Hits.removed {m : Nat} (hfresh : Fresh start) (hhandles : Handles start schedule x a)
    (hhits : Hits start schedule x a m) :
    ∃ f t, f < m ∧ Removes start schedule x a f ∧ (play start schedule a).world.debugger.liveTarget? x = some t := by
  have hafter : play start schedule (m + 1) = (play start schedule m).after (.loop x) := by
    rw [← hhits.1]
    rfl
  have hquiet : ∀ work : Task Wait World Unit, (play start schedule m).loops x = .busy work →
      (∀ work' w', work.tick? World.holds (play start schedule m).world = some (work', w') →
        w'.net = (play start schedule m).world.net) → False := by
    intro work hloop hnet
    refine not_hits_of_net_eq ?_ hhits
    rw [hafter]
    rcases after_busy (served_of_busy hfresh hloop) hloop with ⟨r, -, heq⟩ | ⟨work', w', htick, heq⟩ | ⟨-, heq⟩
    · rw [heq]
      rfl
    · rw [heq]
      exact hnet work' w' htick
    · rw [heq]
  cases retiring hfresh hhandles hhits.2.1 with
  | spared live left =>
    refine (hquiet _ left ?_).elim
    intro work' w' htick
    cases htick
  | queues t live left =>
    refine (hquiet _ left ?_).elim
    intro work' w' htick
    obtain ⟨-, rfl⟩ := Prod.mk.inj (Option.some.inj htick)
    rfl
  | enters t live left =>
    refine (hquiet _ left ?_).elim
    intro work' w' htick
    obtain ⟨-, rfl⟩ := Prod.mk.inj (Option.some.inj htick)
    rfl
  | ends t live f passed removed => exact ⟨f, t, passed, removed, live⟩

end Handling

/-! ## What becomes of sessions and targets -/

section Onward

variable {s s' : Scene}

/-- Whatever happens, sessions go on. -/
lemma follows_of_happens (hassembled : Assembled s) (hhappens : Happens s s') : Follows s.world s'.world := by
  have hcoherent := hassembled.coherent
  have hrefl : Follows s.world s.world := .of_keeps (.refl s.world)
  cases hhappens with
  | still same =>
    rw [same]
    exact hrefl
  | begins call admitted eq =>
    rw [eq]
    exact hrefl
  | moves i call work work' w' underway tick stage move eq =>
    rw [eq]
    refine (move.follows hcoherent ?_).1
    intro x hx
    rw [hx] at underway
    exact hassembled.attached i x work underway
  | works x work w' served before spares within eq =>
    rw [eq]
    exact .of_keeps (spares hcoherent.toNumbered)
  | rests x served before eq =>
    rw [eq]
    exact hrefl
  | closes x served before closed eq =>
    rw [eq]
    exact hrefl
  | leaves x work work' w' served before tick spares within eq =>
    rw [eq]
    exact .of_keeps (spares hcoherent.toNumbered)
  | ends x served r before eq =>
    rw [eq]
    exact hrefl
  | outside new eq =>
    rw [eq]
    exact .of_append (Network.ages_sealed s.world.net new.net) rfl

/-- The session is not the one of any language. -/
def Absent (w : World) (x : SessionId) : Prop := ∀ e ∈ w.debugger.current, e.2 ≠ x

/-- A session that is served and in no place of the table does not come to any. -/
lemma absent_of_happens (hassembled : Assembled s) (hnext : Attended s') (hhappens : Happens s s') {x : SessionId}
    (hserved : served s.world x = true) (habsent : Absent s.world x) : Absent s'.world x := by
  have hnum := hassembled.coherent.toNumbered
  have hfollows := follows_of_happens hassembled hhappens
  cases hhappens with
  | still same =>
    rw [same]
    exact habsent
  | begins call admitted eq =>
    rw [eq]
    exact habsent
  | moves i call work work' w' underway tick stage move eq =>
    have hserved' := hfollows.served x hserved
    rw [eq] at hserved' hnext ⊢
    intro e he hx
    rcases move.entry_origin hnum he with hold | ⟨hlast, -⟩ | ⟨hinsert, t, -, howes⟩
    · exact habsent e hold hx
    · have hlt := lt_length_of_served hserved
      rw [← hx, hlast] at hlt
      exact absurd hlt (Nat.lt_irrefl _)
    · -- who is to be inserted is not served yet
      have hcall : (s.calls.set i (call, work'))[i]? = some (.insert x, work') := by
        rw [List.getElem?_set_self (List.getElem?_eq_some_iff.mp underway).1, hinsert, hx]
      have hunserved := hnext.owed i x work' hcall (by
        rw [howes]
        exact andThen_serving_ne_done t e.2)
      exact nomatch hserved'.symm.trans hunserved
  | works y work w' served before spares within eq =>
    rw [eq]
    intro e he
    exact habsent e ((spares hnum).current e he)
  | rests y served before eq =>
    rw [eq]
    exact habsent
  | closes y served before closed eq =>
    rw [eq]
    exact habsent
  | leaves y work work' w' served before tick spares within eq =>
    rw [eq]
    intro e he
    exact habsent e ((spares hnum).current e he)
  | ends y served r before eq =>
    rw [eq]
    exact habsent
  | outside new eq =>
    rw [eq]
    exact habsent

/-- Numbers are given out in order, and a live target without a new number was there before on the same session. -/
structure Counts (w w' : World) : Prop where
  next : w.debugger.nextTarget ≤ w'.debugger.nextTarget
  origin : ∀ t ∈ w'.debugger.targets, t.isTerminated = false → t.id < w.debugger.nextTarget →
    ∃ old ∈ w.debugger.targets, old.isTerminated = false ∧ old.id = t.id ∧ old.session = t.session

namespace Counts

variable {w w' w'' : World}

lemma of_eq (htargets : w'.debugger.targets = w.debugger.targets)
    (hnext : w'.debugger.nextTarget = w.debugger.nextTarget) : Counts w w' where
  next := Nat.le_of_eq hnext.symm
  origin t ht hlive _ := ⟨t, htargets ▸ ht, hlive, rfl, rfl⟩

lemma trans (h : Counts w w') (h' : Counts w' w'') : Counts w w'' where
  next := Nat.le_trans h.next h'.next
  origin t ht hlive hid := by
    obtain ⟨old, hold, holdlive, hoid, hosession⟩ := h'.origin t ht hlive (Nat.lt_of_lt_of_le hid h.next)
    obtain ⟨first, hfirst, hfirstlive, hfid, hfsession⟩ := h.origin old hold holdlive (hoid ▸ hid)
    exact ⟨first, hfirst, hfirstlive, hfid.trans hoid, hfsession.trans hosession⟩

lemma of_keeps (h : Keeps w w') : Counts w w' where
  next := Nat.le_of_eq h.nextTarget.symm
  origin t ht hlive _ := by
    obtain ⟨old, hold, hsucceeds⟩ := h.exists_before ht
    refine ⟨old, hold, ?_, hsucceeds.id.symm, hsucceeds.session.symm⟩
    by_contra hended
    rw [hsucceeds.ended (by simpa using hended)] at hlive
    cases hlive

/-- A target comes, with a new number. -/
lemma reserve (w : World) (launch : Launch) (x : SessionId) : Counts w (w.reserve launch x).2 where
  next := Nat.le_succ _
  origin t ht hlive hid := by
    rcases List.mem_append.mp ht with hold | hnew
    · exact ⟨t, hold, hlive, rfl, rfl⟩
    · obtain rfl := List.mem_singleton.mp hnew
      exact absurd hid (Nat.lt_irrefl _)

lemma claim (w : World) (launch : Launch) (root : Option Path) : Counts w (w.claim launch root).2 := by
  have hclaimed := w.claimed launch root
  generalize w.claim launch root = r at hclaimed
  cases hclaimed with
  | refused e => exact of_eq rfl rfl
  | joins x entry isOpen free => exact reserve w launch x
  | starts w' started =>
    obtain ⟨session, -, -, -, hdebugger⟩ := started.debugger
    have hstarted : Counts w w' := by
      refine of_eq ?_ ?_
      · rw [hdebugger, Debugger.setCurrent_targets]
        rfl
      · rw [hdebugger, Debugger.setCurrent_nextTarget]
        rfl
    exact hstarted.trans (reserve w' launch _)

end Counts

/-- Whatever happens, numbers are given out in order. -/
lemma counts_of_happens (hnum : s.world.debugger.Numbered) (hhappens : Happens s s') : Counts s.world s'.world := by
  have hrefl : Counts s.world s.world := .of_eq rfl rfl
  cases hhappens with
  | still same =>
    rw [same]
    exact hrefl
  | begins call admitted eq =>
    rw [eq]
    exact hrefl
  | moves i call work work' w' underway tick stage move eq =>
    rw [eq]
    cases move with
    | spares spares => exact .of_keeps (spares hnum)
    | claims k launch root run turn world =>
      rw [world]
      exact .claim s.world launch root
    | enters x insert world owes =>
      rw [world]
      exact .of_eq (Debugger.setCurrent_targets ..) (Debugger.setCurrent_nextTarget ..)
    | serves x insert world last =>
      rw [world]
      exact .of_eq rfl rfl
  | works x work w' served before spares within eq =>
    rw [eq]
    exact .of_keeps (spares hnum)
  | rests x served before eq =>
    rw [eq]
    exact hrefl
  | closes x served before closed eq =>
    rw [eq]
    exact hrefl
  | leaves x work work' w' served before tick spares within eq =>
    rw [eq]
    exact .of_keeps (spares hnum)
  | ends x served r before eq =>
    rw [eq]
    exact hrefl
  | outside new eq =>
    rw [eq]
    exact .of_eq rfl rfl

end Onward

section Runs

variable {start : World} {schedule : Nat → Turn} {x : SessionId} {m n : Nat}

lemma served_of_le (hfresh : Fresh start) (hmn : m ≤ n) (hserved : served (play start schedule m).world x = true) :
    served (play start schedule n).world x = true := by
  induction n, hmn using Nat.le_induction with
  | base => exact hserved
  | succ n _ ih =>
    exact (follows_of_happens (assembled hfresh schedule n) (happens_play start schedule n)).served x ih

/-- A session that has lost its place in the table does not get it back. -/
lemma absent_of_le (hfresh : Fresh start) (hmn : m ≤ n) (hserved : served (play start schedule m).world x = true)
    (habsent : Absent (play start schedule m).world x) : Absent (play start schedule n).world x := by
  induction n, hmn using Nat.le_induction with
  | base => exact habsent
  | succ n hle ih =>
    exact absent_of_happens (assembled hfresh schedule n) (attended hfresh schedule (n + 1))
      (happens_play start schedule n) (served_of_le hfresh hle hserved) ih

lemma counts_of_le (hfresh : Fresh start) (hmn : m ≤ n) :
    Counts (play start schedule m).world (play start schedule n).world := by
  induction n, hmn using Nat.le_induction with
  | base => exact .of_eq rfl rfl
  | succ n _ ih =>
    have hnum := (assembled hfresh schedule n).coherent.toNumbered
    exact ih.trans (counts_of_happens hnum (happens_play start schedule n))

/-- A session that is taken out of the table is in no place of it. -/
lemma absent_forget {w : World} (h : w.debugger.Coherent) (x : SessionId) :
    Absent { w with debugger := w.debugger.forget x } x := by
  intro e he hx
  obtain ⟨hold, hother⟩ := List.mem_filter.mp he
  have hentry : e = ((w.debugger.session x).language, x) := by
    rw [← hx, (h.table e hold).2]
  simp [hentry] at hother

/-! ## Claims -/

section Claims

variable (start : World) (schedule : Nat → Turn) (x : SessionId)

/-- In turn `c` a run gets its target on the session. -/
def Claims (c : Nat) (u : Target) : Prop :=
  ∃ i k launch root, schedule c = .step i ∧
    (play start schedule c).calls[i]? = some (.run k, (claiming launch root).outcome) ∧
    ((play start schedule c).world.claim launch root).1 = .ok u ∧ u.session = x

/-- Does the event loop take up an event? -/
def takesUp : Activity.Loop → Activity.Loop → Bool
  | .idle, .busy _ => true
  | _, _ => false

lemma exists_left {l : Activity.Loop} (h : takesUp .idle l = true) : ∃ left, l = .busy left := by
  cases l with
  | busy left => exact ⟨left, rfl⟩
  | idle => cases h
  | ending work => cases h
  | ended => cases h

/-- How many events the event loop takes up from turn `c` on until turn `a`. -/
def takings (c a : Nat) : Nat :=
  (List.range' c (a - c)).countP fun k => takesUp ((play start schedule k).loops x) ((play start schedule (k + 1)).loops x)

/-- Events are taken up in the order in which they came: the one that is gone about in turn `a` had come by turn `c` if
no more are taken up in between than waited then. -/
def HadCome (a c : Nat) : Prop :=
  let w := (play start schedule c).world
  takings start schedule x c a ≤ (w.channel (w.debugger.session x).channel).heard.length

variable {start schedule x} {a c f : Nat} {t u : Target}

/-- What was taken up before had come. -/
lemma hadCome_of_lt (hac : a < c) : HadCome start schedule x a c := by
  have hnone : a - c = 0 := by omega
  simp [HadCome, takings, hnone]

/-- A target that is claimed has the next number, and nobody on its session is alive then. -/
lemma Claims.target (hclaims : Claims start schedule x c u) (hfresh : Fresh start) :
    u.id = (play start schedule c).world.debugger.nextTarget ∧
      ∀ old ∈ (play start schedule c).world.debugger.targets, old.session = x → old.isTerminated = true := by
  obtain ⟨i, k, launch, root, -, -, hok, hsession⟩ := hclaims
  have hcoherent := (assembled hfresh schedule c).coherent
  generalize (play start schedule c).world = w at hok hcoherent ⊢
  have hclaimed := w.claimed launch root
  generalize w.claim launch root = r at hok hclaimed
  cases hclaimed with
  | refused e => cases hok
  | joins y entry isOpen free =>
    obtain rfl := Except.ok.inj hok
    refine ⟨rfl, ?_⟩
    intro old hold hx
    exact Debugger.isTerminated_of_liveTarget?_eq_none free hold (hx.trans hsession.symm)
  | starts w' started =>
    obtain ⟨session, -, -, -, hdebugger⟩ := started.debugger
    obtain rfl := Except.ok.inj hok
    refine ⟨?_, ?_⟩
    · show w'.debugger.nextTarget = _
      rw [hdebugger, Debugger.setCurrent_nextTarget]
      rfl
    · -- nobody can be on the new session yet
      intro old hold hx
      have hplaced := hcoherent.placed old hold
      rw [hx, ← hsession] at hplaced
      exact absurd hplaced (Nat.lt_irrefl _)

/-- Nobody claims a target on a session that is served and in no place of the table. -/
lemma Claims.not_absent (hclaims : Claims start schedule x c u) (hserved : served (play start schedule c).world x = true) :
    ¬ Absent (play start schedule c).world x := by
  obtain ⟨i, k, launch, root, -, -, hok, hsession⟩ := hclaims
  generalize (play start schedule c).world = w at hok hserved ⊢
  have hclaimed := w.claimed launch root
  generalize w.claim launch root = r at hok hclaimed
  intro habsent
  cases hclaimed with
  | refused e => cases hok
  | joins y entry isOpen free =>
    obtain rfl := Except.ok.inj hok
    exact habsent _ entry hsession
  | starts w' started =>
    obtain rfl := Except.ok.inj hok
    have hlt := lt_length_of_served hserved
    rw [← hsession] at hlt
    exact absurd hlt (Nat.lt_irrefl _)

/-- A claim comes before its session is taken out of the table. -/
lemma Claims.lt_of_removes (hclaims : Claims start schedule x c u) (hfresh : Fresh start)
    (hremoves : Removes start schedule x a f) : c < f := by
  obtain ⟨hturn, -, hloop⟩ := hremoves
  have hserved := served_of_busy hfresh hloop
  have hafter : play start schedule (f + 1) = (play start schedule f).after (.loop x) := by
    rw [← hturn]
    rfl
  have habsent : Absent (play start schedule (f + 1)).world x := by
    rw [hafter]
    rcases after_busy hserved hloop with ⟨r, hdone, -⟩ | ⟨work', w', htick, heq⟩ | ⟨htick, -⟩
    · cases hdone
    · obtain ⟨-, rfl⟩ := Prod.mk.inj (Option.some.inj htick)
      rw [heq]
      exact absent_forget (assembled hfresh schedule f).coherent x
    · cases htick
  by_contra hnot
  have hne : c ≠ f := by
    rintro rfl
    obtain ⟨i, k, launch, root, hstep, -⟩ := hclaims
    cases hstep.symm.trans hturn
  have hfc : f + 1 ≤ c := by omega
  have hnext := served_of_le hfresh (Nat.le_succ f) hserved
  exact hclaims.not_absent (served_of_le hfresh hfc hnext) (absent_of_le hfresh hfc hnext habsent)

/-- The live target that an event ends is older than the one that is claimed exactly if the event is applied before the
claim. -/
lemma Claims.id_lt_iff (hclaims : Claims start schedule x c u) (hfresh : Fresh start)
    (hlive : (play start schedule a).world.debugger.liveTarget? x = some t) : t.id < u.id ↔ a < c := by
  obtain ⟨hid, hfree⟩ := hclaims.target hfresh
  obtain ⟨hmem, hsession, hnotEnded⟩ := Debugger.of_liveTarget?_eq_some hlive
  rw [hid]
  constructor
  · intro hlt
    by_contra hnot
    have hca : c ≤ a := by omega
    obtain ⟨old, hold, holdlive, -, holdsession⟩ := (counts_of_le hfresh hca).origin t hmem hnotEnded hlt
    rw [hfree old hold (holdsession.trans hsession)] at holdlive
    cases holdlive
  · intro hac
    have hgiven := ((assembled hfresh schedule a).coherent.given t hmem).2
    have hcounts : Counts (play start schedule a).world (play start schedule c).world :=
      counts_of_le hfresh (Nat.le_of_lt hac)
    have hnext := hcounts.next
    omega

end Claims

/-- Whatever the order in which runs and the handling of events take their steps: after a run got its target on a session,
the handling of a `terminated` event that had come by then disconnects or closes that session exactly if it does so at all,
and either it has ended an earlier target and is on its way to the table at the time of the claim, or the event still
waits at that time, and what it ends later is the target of this run or one that came after it. A session that was taken
out of the table is not claimed any more. -/
theorem hit_after_claim_iff {start : World} (hfresh : Fresh start) {schedule : Nat → Turn} {x : SessionId} {c : Nat}
    {u : Target} (hclaims : Claims start schedule x c u) :
    (∃ a m, Handles start schedule x a ∧ HadCome start schedule x a c ∧ Hits start schedule x a m ∧ c < m) ↔
      ∃ a f m t, Handles start schedule x a ∧ (play start schedule a).world.debugger.liveTarget? x = some t ∧
        Removes start schedule x a f ∧ Hits start schedule x a m ∧ f < m ∧
        (a < c ∧ c < f ∧ t.id < u.id ∨ c < a ∧ HadCome start schedule x a c ∧ u.id ≤ t.id) := by
  constructor
  · rintro ⟨a, m, hhandles, hcome, hhits, -⟩
    obtain ⟨f, t, hfm, hremoves, hlive⟩ := hhits.removed hfresh hhandles
    have hcf := hclaims.lt_of_removes hfresh hremoves
    have hne : a ≠ c := by
      rintro rfl
      obtain ⟨i, k, launch, root, hstep, -⟩ := hclaims
      cases hstep.symm.trans hhandles.1
    have hid := hclaims.id_lt_iff hfresh hlive
    refine ⟨a, f, m, t, hhandles, hlive, hremoves, hhits, hfm, ?_⟩
    by_cases hac : a < c
    · exact .inl ⟨hac, hcf, hid.mpr hac⟩
    · exact .inr ⟨by omega, hcome, by omega⟩
  · rintro ⟨a, f, m, t, hhandles, -, hremoves, hhits, hfm, ⟨hac, hcf, -⟩ | ⟨hca, hcome, -⟩⟩
    · exact ⟨a, m, hhandles, hadCome_of_lt hac, hhits, by omega⟩
    · have ham := hhits.2.1.1
      exact ⟨a, m, hhandles, hcome, hhits, by omega⟩

/-! ### An event that waits too long -/

/-- A run claims a target and asks the adapter to introduce itself, and the adapter says that its debuggee has terminated.
The adapter is given no time to answer, so the run fails and its target has ended. Another run claims a target on the
session; then the event loop takes up the event. -/
def waitsTooLong : List Turn :=
  [.outside { oneLaunch with
      net := { channels := [{ dialect := .sequenced }] }
      debugger := { oneLaunch.debugger with sessions := [{ (default : Session) with language := "java" }] } },
    .begins (.insert 0), .step 0, .step 0, .step 0, .begins (.run 1), .step 1, .step 1, .step 1,
    .outside { oneLaunch with
      net := { channels := [{ dialect := .sequenced, limit := some 0, heard := [⟨"events", ⟨"terminated", .null⟩⟩] }] } }] ++
    List.replicate 16 (.step 1) ++ [.begins (.run 1), .step 2, .step 2, .step 2]

/-- Those turns, one after the other, and then those of the event loop. -/
def waitsTooLongSchedule (n : Nat) : Turn := waitsTooLong.getD n (.loop 0)

/-- The event was there before the claim and is gone about after it: it ends the new target, and the channel is
closed. -/
theorem hit_after_claim_waitsTooLong :
    ∃ u : Target, u.id = 2 ∧ Claims oneLaunch waitsTooLongSchedule 0 29 u ∧
      Handles oneLaunch waitsTooLongSchedule 0 31 ∧ HadCome oneLaunch waitsTooLongSchedule 0 31 29 ∧
      Hits oneLaunch waitsTooLongSchedule 0 31 45 ∧
      ∃ a f m t, Handles oneLaunch waitsTooLongSchedule 0 a ∧
        (play oneLaunch waitsTooLongSchedule a).world.debugger.liveTarget? 0 = some t ∧
        Removes oneLaunch waitsTooLongSchedule 0 a f ∧ Hits oneLaunch waitsTooLongSchedule 0 a m ∧ f < m ∧
        (a < 29 ∧ 29 < f ∧ t.id < u.id ∨ 29 < a ∧ HadCome oneLaunch waitsTooLongSchedule 0 a 29 ∧ u.id ≤ t.id) := by
  have hfresh : Fresh oneLaunch := ⟨rfl, rfl, rfl, by decide⟩
  let launch : Launch := { (default : Launch) with id := 1, language := "java" }
  let u : Target := { id := 2, launch := launch, session := 0 }
  have hclaims : Claims oneLaunch waitsTooLongSchedule 0 29 u := ⟨2, 1, launch, none, rfl, rfl, rfl, rfl⟩
  have hhandles : Handles oneLaunch waitsTooLongSchedule 0 31 := ⟨rfl, ⟨"terminated", .null⟩, rfl, rfl⟩
  have hcome : HadCome oneLaunch waitsTooLongSchedule 0 31 29 := by
    unfold HadCome takings
    decide +kernel
  have hhits : Hits oneLaunch waitsTooLongSchedule 0 31 45 := by
    have hbusy : ∀ k ∈ List.range' 32 14, takesUp .idle ((play oneLaunch waitsTooLongSchedule k).loops 0) = true := by
      decide +kernel
    have hchannel : ((play oneLaunch waitsTooLongSchedule 45).world.debugger.session 0).channel = 0 := by decide +kernel
    have hopen : ((play oneLaunch waitsTooLongSchedule 45).world.channel 0).phase ≠ .closed := by decide +kernel
    have hclosed : ((play oneLaunch waitsTooLongSchedule 46).world.channel 0).phase = .closed := by decide +kernel
    refine ⟨rfl, ⟨by decide, ?_⟩, .inr ?_⟩
    · intro k hk hk'
      exact exists_left (hbusy k (List.mem_range'_1.mpr ⟨hk, by omega⟩))
    · rw [hchannel]
      exact ⟨hopen, hclosed⟩
  refine ⟨u, rfl, hclaims, hhandles, hcome, hhits, ?_⟩
  exact (hit_after_claim_iff hfresh hclaims).mp ⟨31, 45, hhandles, hcome, hhits, by decide⟩

end Runs

end Switchboard.Debug.Running.Scene
