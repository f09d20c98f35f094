import Switchboard.Proofs.Debug.Fetch
import Switchboard.Proofs.Debug.Freshness
import Switchboard.Proofs.Debug.Inquiries
import Switchboard.Proofs.Debug.Outlines

/-!
# Where an expression is evaluated

* `Tried`: the frames of a thread were kept, or they were asked for; this is the frame in which to evaluate, if there is one;
* `Fruitless`, `FirstMatch`: some places were tried in order, and none has the frame; the first one that has it;
* `Aims`, `Conclusion`: what may be asked when other things were asked before, and how the search ends;
* `evaluates_first`: as long as others leave the places as they are, the expression is evaluated in the first one that has
  the frame, and nothing is asked about later ones.
-/

namespace Switchboard.Debug.Target

open Course (net)
open Network (Exchange AwaitsLast Logged Justified)
open Network.Request (Fate)

/-- Frames are asked for, and nothing else. -/
def AsksFrames (log : List Exchange) : Prop := ∀ x ∈ log, x.request.method = "stackTrace"

/-- What is asked to evaluate an expression in a frame. -/
def evaluation (expression : String) (frame : Int) : Network.Request where
  method := "evaluate"
  params := EvaluateArguments.toJson { expression, frameId := some frame, context := some "repl" }

section

variable (v : Viewpoint Wait World) (index : Nat)

/-- The frames of a thread were looked for between two times, and `log'` had been handed over then; `frame?` is the adapter's
number of the one at the index. -/
inductive Tried (p : Nat × Int) (n : Nat) (log : List Exchange) (m : Nat) (log' : List Exchange) (frame? : Option Int) : Prop
    where
  /-- They were kept since somebody asked for them. -/
  | kept (looked : Nat) (since : n ≤ looked) (lt : looked < m) (turn : v.turn looked) (frames : List Stack.Frame)
      (there : ((v.state looked).target p.1).keptFrames? p.2 = some frames) (silent : log' = log)
      (found : frame? = (frames[index]?).map (·.id))
  /-- The adapter was asked for them. -/
  | asked (looked asked : Nat) (since : n ≤ looked) (lt : looked < asked) (turns : v.turn looked ∧ v.turn asked)
      (missing : ((v.state looked).target p.1).keptFrames? p.2 = none) (reply : Except Channel.Fault Json)
      (fate : Fate (net v) (channelAt v p.1 asked) (Fetch.question p.2) (asked + 1) log m log' reply)
      (found : frame? = (Fetch.reading reply).toOption.bind fun body => (body.stackFrames[index]?).map (·.id))

/-- These places were tried in order: the frames of some could not be fetched, and the others have none at the index. -/
inductive Fruitless : List (Nat × Int) → Nat → List Exchange → Nat → List Exchange → Prop where
  | nil {n m : Nat} {log : List Exchange} (le : n ≤ m) : Fruitless [] n log m log
  | cons {p : Nat × Int} {ps : List (Nat × Int)} {n k m : Nat} {log mid log' : List Exchange}
      (tried : Tried v index p n log k mid none) (rest : Fruitless ps k mid m log') : Fruitless (p :: ps) n log m log'

variable (places : List (Nat × Int)) (b : Nat)

/-- This is the first of the places that has a frame at the index: all before it were tried. -/
inductive FirstMatch (m : Nat) (log : List Exchange) (p : Nat × Int) (frame : Int) : Prop where
  | intro (earlier later : List (Nat × Int)) (order : places = earlier ++ p :: later) (k : Nat) (mid : List Exchange)
      (fruitless : Fruitless v index earlier b [] k mid) (found : Tried v index p k mid m log (some frame))

variable (expression : String)

/-- What may be handed over when `log` was handed over. -/
inductive Aims (log : List Exchange) (x : Exchange) : Prop where
  /-- It asks for the frames of a place, and all before it were tried. -/
  | stack (earlier : List (Nat × Int)) (p : Nat × Int) (later : List (Nat × Int)) (order : places = earlier ++ p :: later)
      (k : Nat) (fruitless : Fruitless v index earlier b [] k log) (asks : Asks v p.1 k (Fetch.question p.2) x)
  /-- It asks to evaluate the expression in the first place that has the frame. -/
  | evaluate (p : Nat × Int) (frame : Int) (k : Nat) (first : FirstMatch v index places b k log p frame)
      (asks : Asks v p.1 k (evaluation expression frame) x)

/-- How the search ends. -/
inductive Conclusion (m : Nat) (log : List Exchange) (e : Except Fault EvaluateBody) : Prop where
  /-- No place has the frame. -/
  | nowhere (fruitless : Fruitless v index places b [] m log) (frames : AsksFrames log)
      (failed : e = .error .nothingToEvaluate)
  /-- The adapter was asked to evaluate in the first place that has it, and this is its answer. -/
  | evaluated (p : Nat × Int) (frame : Int) (k : Nat) (mid : List Exchange)
      (first : FirstMatch v index places b k mid p frame) (frames : AsksFrames mid) (asked : Nat) (since : k ≤ asked)
      (turn : v.turn asked) (reply : Except Channel.Fault Json)
      (fate : Fate (net v) (channelAt v p.1 asked) (evaluation expression frame) (asked + 1) mid m log reply)
      (said : e = Session.reading EvaluateBody.shape "evaluate" reply)

end

variable {v : Viewpoint Wait World} {index n m : Nat} {log log' : List Exchange} {p : Nat × Int} {ps : List (Nat × Int)}

/-! ## What is asked on the way -/

lemma Fruitless.later {k : Nat} (h : Fruitless v index ps n log k log') (hk : k ≤ m) :
    Fruitless v index ps n log m log' := by
  induction h with
  | nil le => exact .nil (Nat.le_trans le hk)
  | cons tried _ ih => exact .cons tried (ih hk)

/-- One more place was tried. -/
lemma Fruitless.concat {k : Nat} {mid : List Exchange} (h : Fruitless v index ps n log k mid)
    (hp : Tried v index p k mid m log' none) : Fruitless v index (ps ++ [p]) n log m log' := by
  induction h with
  | nil le =>
    refine .cons ?_ (.nil (Nat.le_refl m))
    cases hp with
    | kept looked since => exact .kept looked (Nat.le_trans le since) ‹_› ‹_› _ ‹_› ‹_› ‹_›
    | asked looked asked since => exact .asked looked asked (Nat.le_trans le since) ‹_› ‹_› ‹_› _ ‹_› ‹_›
  | cons tried _ ih => exact .cons tried (ih hp)

lemma Conclusion.later {places : List (Nat × Int)} {b k : Nat} {expression : String} {e : Except Fault EvaluateBody}
    (h : Conclusion v index places b expression k log e) (hk : k ≤ m) : Conclusion v index places b expression m log e := by
  cases h with
  | nowhere fruitless frames failed => exact .nowhere (fruitless.later hk) frames failed
  | evaluated p frame l mid first frames asked since turn reply fate said =>
    exact .evaluated p frame l mid first frames asked since turn reply (fate.later hk) said

lemma Tried.asksFrames {frame? : Option Int} (h : Tried v index p n log m log' frame?) (hlog : AsksFrames log) :
    AsksFrames log' := by
  cases h with
  | kept _ _ _ _ _ _ silent => exact silent ▸ hlog
  | asked _ _ _ _ _ _ reply fate =>
    cases fate with
    | refused _ _ _ _ same => exact same ▸ hlog
    | replied x _ request _ _ logged =>
      intro y hy
      rw [logged] at hy
      rcases List.mem_append.mp hy with hy | hy
      · exact hlog y hy
      · rw [List.mem_singleton.mp hy, request]
        rfl

/-- If frames were kept when they were looked for, it is among these that the frame was looked for. -/
lemma Tried.exists_looked {frame? : Option Int} (h : Tried v index p n log m log' frame?) :
    ∃ looked, n ≤ looked ∧ looked < m ∧ ∀ frames, ((v.state looked).target p.1).keptFrames? p.2 = some frames →
      frame? = (frames[index]?).map (·.id) := by
  cases h with
  | kept looked since lt _ frames there _ found =>
    refine ⟨looked, since, lt, fun frames' hframes => ?_⟩
    obtain rfl := Option.some.inj (there.symm.trans hframes)
    exact found
  | asked looked asked since lt _ missing reply fate =>
    have := fate.lt
    refine ⟨looked, since, by omega, fun frames hframes => ?_⟩
    cases missing.symm.trans hframes

lemma Fruitless.asksFrames (h : Fruitless v index ps n log m log') (hlog : AsksFrames log) : AsksFrames log' := by
  induction h with
  | nil => exact hlog
  | cons tried _ ih => exact ih (tried.asksFrames hlog)

/-- Nothing is asked once it was asked to evaluate the expression. -/
lemma last_of_justified {places : List (Nat × Int)} {b : Nat} {expression : String}
    (h : Justified (Aims v index places b expression) log) {before after : List Exchange} {x : Exchange}
    (hlog : log = before ++ x :: after) (hx : x.request.method = "evaluate") : after = [] := by
  cases after with
  | nil => rfl
  | cons y rest =>
    -- whatever `y` asks for, all that was handed over before it asks for frames, and so would `x`
    have hframes : AsksFrames (before ++ [x]) := by
      cases h (before ++ [x]) y rest (by rw [hlog, List.append_assoc, List.singleton_append]) with
      | stack _ _ _ _ _ fruitless => exact fruitless.asksFrames nofun
      | evaluate _ _ _ first =>
        obtain ⟨_, _, -, _, _, fruitless, found⟩ := first
        exact found.asksFrames (fruitless.asksFrames nofun)
    have hmethod := hframes x (List.mem_append_right _ (List.mem_singleton.mpr rfl))
    rw [hx] at hmethod
    exact absurd hmethod (by decide)

/-! ## The search -/

lemma id_placeFrames (w : World) (id : Nat) (frames : List StackFrame) (index : Nat) :
    ((placeFrames w id frames)[index]?).map (·.id) = (frames[index]?).map (·.id) := by
  have hlocate : ∀ (f : Stack.Frame) sources disk project, (f.locate sources disk project).id = f.id := by
    intro f sources disk project
    unfold Stack.Frame.locate
    split
    · split <;> rfl
    · rfl
  unfold placeFrames
  split
  all_goals
    simp only [List.getElem?_map, List.getElem?_zipIdx, Option.map_map, Function.comp_def, hlocate]
    rfl

section Records

variable {B : World → Prop} {P : List Exchange → Exchange → Prop} {S : World → World → Prop} {id : Nat} {thread : Int}
  (hS : ∀ w n, S w { w with net := n }) (hholds : v.holds = World.holds)

include hS hholds

/-- The frames of a thread that is in a stop are looked for. -/
lemma records_stack (index : Nat) (hstop : ∀ w, B w → ∃ stop, (w.target id).currentStop thread = .ok stop)
    (hkeep : ∀ w stop frames, B w → S w (w.changeTarget id fun t => (t.keepFrames thread stop frames, [])))
    (hP : ∀ x, Asks v id n (Fetch.question thread) x → P log x) :
    Attempt.Records v B AwaitsLast (Behaves v P S)
      (fun m log' e => Tried v index (id, thread) n log m log' (e.toOption.bind fun frames => (frames[index]?).map (·.id)))
      (stack id thread) n log := by
  refine .bind (records_demand hS _) ?_ ?_
  · rintro _ _ stop - ⟨checked, ⟨hn, rfl, -, -⟩, rfl, -⟩
    refine .bind (records_look hS _) ?_ ?_
    · rintro _ _ kept - ⟨looked, ⟨hlooked, rfl, hturn, -⟩, rfl, hkept⟩
      obtain rfl := Except.ok.inj hkept
      split
      · next frames hframes =>
        exact .pure (.kept looked (by omega) (Nat.lt_succ_self looked) hturn frames hframes rfl rfl)
      · next hnone =>
        refine .bind (records_requestAs hS hholds StackTraceBody.shape _ _ fun x ⟨asked, hasked, hx⟩ =>
          hP x ⟨asked, by omega, hx⟩) ?_ ?_
        · rintro l log' body - ⟨asked, reply, ⟨hsince, -, hturn', -⟩, hfate, hbody⟩
          refine .bind (records_view hS _) ?_ ?_
          · rintro _ _ frames - ⟨placed, ⟨hl, rfl, -, -⟩, rfl, hframes⟩
            obtain rfl := Except.ok.inj hframes
            -- what is kept was fetched in this stop; whether it is taken makes no difference to what is given
            refine .bind (records_change fun w hw => hkeep w stop _ hw) ?_ ?_
            · rintro _ _ _ - ⟨kept, ⟨hkept, rfl, -, -⟩, rfl, -⟩
              refine .pure (.asked looked asked (by omega) hsince ⟨hturn, hturn'⟩ hnone reply (hfate.later (by omega)) ?_)
              have hreading : Fetch.reading reply = .ok body := hbody.symm
              rw [hreading]
              exact id_placeFrames ..
            · rintro _ _ _ - ⟨_, -, -, he⟩
              cases he
          · rintro _ _ _ - ⟨_, -, -, he⟩
            cases he
        · rintro l log' e - ⟨asked, reply, ⟨hsince, -, hturn', -⟩, hfate, he⟩
          refine .asked looked asked (by omega) hsince ⟨hturn, hturn'⟩ hnone reply hfate ?_
          have hreading : Fetch.reading reply = .error e := he.symm
          rw [hreading]
          rfl
    · rintro _ _ _ - ⟨_, -, -, he⟩
      cases he
  · rintro _ _ e - ⟨checked, ⟨-, -, -, hB⟩, -, he⟩
    obtain ⟨stop, hok⟩ := hstop _ hB
    cases he.trans hok

/-- The frame at the index is looked for. -/
lemma records_chooseFrame (index : Nat) (hstop : ∀ w, B w → ∃ stop, (w.target id).currentStop thread = .ok stop)
    (hkeep : ∀ w stop frames, B w → S w (w.changeTarget id fun t => (t.keepFrames thread stop frames, [])))
    (hP : ∀ x, Asks v id n (Fetch.question thread) x → P log x) :
    (Running.chooseFrame id thread index).Records v B AwaitsLast (Behaves v P S)
      (fun m log' f => Tried v index (id, thread) n log m log' (f.map (·.id))) n log := by
  refine Task.Records.andThen (records_stack hS hholds index hstop hkeep hP) fun m log' e _ he => ?_
  cases e with
  | ok frames => exact he
  | error fault => exact he

/-- The expression is evaluated in a frame. -/
lemma records_evaluate (expression : String) (frame : Int)
    (hP : ∀ x, Asks v id n (evaluation expression frame) x → P log x) :
    Attempt.Records v B AwaitsLast (Behaves v P S)
      (fun m log' e => ∃ asked reply, n ≤ asked ∧ v.turn asked ∧
        Fate (net v) (channelAt v id asked) (evaluation expression frame) (asked + 1) log m log' reply ∧
        e = Session.reading EvaluateBody.shape "evaluate" reply)
      (Target.evaluate id frame expression) n log := by
  refine .imp (records_requestAs hS hholds EvaluateBody.shape _ _ hP) ?_
  rintro m log' e - ⟨asked, reply, hasked, hfate, he⟩
  exact ⟨asked, reply, hasked.since, hasked.turn, hfate, he⟩

end Records

section Search

variable {start : World} (hsorted : start.Sorted) {project : Option String} {thread : Option Int} {b : Nat}
  {expression : String} (hholds : v.holds = World.holds)

/-- The places are as they were. -/
def Calm (start w : World) : Prop := w.outlines = start.outlines

/-- A step leaves the places as they were. -/
def Soothes (start w w' : World) : Prop := Calm start w → Calm start w'

include hsorted hholds

/-- The threads of one target are tried in order. -/
lemma records_evaluateIn {id : Nat} (hid : id ∈ start.candidates project) {later : List (Nat × Int)} (threads : List Int)
    (hthreads : ∀ i ∈ threads, i ∈ start.stopped thread id) (earlier : List (Nat × Int))
    (horder : start.places project thread = (earlier ++ threads.map fun i => (id, i)) ++ later)
    (hearlier : Fruitless v index earlier b [] n log) :
    Attempt.Records v (Calm start) AwaitsLast
      (Behaves v (Aims v index (start.places project thread) b expression) (Soothes start))
      (fun m log' e => e = .ok none ∧ Fruitless v index (earlier ++ threads.map fun i => (id, i)) b [] m log' ∨
        ∃ e', e = e'.map some ∧ Conclusion v index (start.places project thread) b expression m log' e')
      (Running.evaluateIn id index expression threads) n log := by
  induction threads generalizing earlier n log with
  | nil => exact .pure (.inl ⟨rfl, by simpa using hearlier⟩)
  | cons i rest ih =>
    rw [Running.evaluateIn]
    have hplace : start.places project thread = earlier ++ (id, i) :: ((rest.map fun i => (id, i)) ++ later) := by
      simpa using horder
    have hi := hthreads i List.mem_cons_self
    -- the thread is still in a stop when its turn comes, since the outlines are those at the start
    have hstop : ∀ w, Calm start w → ∃ stop, (w.target id).currentStop i = .ok stop := fun w hw =>
      World.exists_currentStop (hsorted.congr hw) (World.candidates_congr hw project ▸ hid)
        (World.stopped_congr hw thread id ▸ hi)
    have hkeep : ∀ w stop frames, Calm start w →
        Soothes start w (w.changeTarget id fun t => (t.keepFrames i stop frames, [])) := fun w stop frames hw _ =>
      (World.outlines_keepFrames (hsorted.congr hw) (World.candidates_congr hw project ▸ hid) i stop frames).trans hw
    refine .bind (.ofTask (records_chooseFrame (S := Soothes start) (fun _ _ h => h) hholds index hstop hkeep
      fun x hx => .stack earlier (id, i) _ hplace n hearlier hx)) ?_ ?_
    · rintro m log' frame? - ⟨_, heq, htried⟩
      obtain rfl := Except.ok.inj heq
      cases frame? with
      | some f =>
        have hfirst : FirstMatch v index (start.places project thread) b m log' (id, i) f.id :=
          .intro earlier _ hplace n log hearlier htried
        refine .imp (.map (records_evaluate (S := Soothes start) (fun _ _ h => h) hholds expression f.id
          fun x hx => .evaluate (id, i) f.id m hfirst hx) some) ?_
        rintro l log'' e - ⟨e', ⟨asked, reply, hasked, hturn, hfate, hsaid⟩, rfl⟩
        exact .inr ⟨e', rfl, .evaluated (id, i) f.id m log' hfirst (htried.asksFrames (hearlier.asksFrames nofun)) asked
          hasked hturn reply hfate hsaid⟩
      | none =>
        have hrest := ih (fun j hj => hthreads j (List.mem_cons_of_mem _ hj)) (earlier ++ [(id, i)]) (by simpa using horder)
          (hearlier.concat htried)
        simpa using hrest
    · rintro m log' e - ⟨_, heq, -⟩
      cases heq

/-- The targets are searched in order. -/
lemma records_evaluateAmong (ids : List Nat) (hids : ∀ id ∈ ids, id ∈ start.candidates project) (earlier : List (Nat × Int))
    (horder : start.places project thread = earlier ++ ids.flatMap fun id => (start.stopped thread id).map fun i => (id, i))
    (hearlier : Fruitless v index earlier b [] n log) :
    Attempt.Records v (Calm start) AwaitsLast
      (Behaves v (Aims v index (start.places project thread) b expression) (Soothes start))
      (Conclusion v index (start.places project thread) b expression)
      (Running.evaluateAmong thread index expression ids) n log := by
  induction ids generalizing earlier n log with
  | nil =>
    refine .throw (.nowhere ?_ (hearlier.asksFrames nofun) rfl)
    rw [horder]
    simpa using hearlier
  | cons id rest ih =>
    rw [Running.evaluateAmong]
    refine .bind (records_look (S := Soothes start) (fun _ _ h => h) _) ?_ ?_
    · rintro _ _ suspended - ⟨l, ⟨hl, rfl, -, hcalm⟩, rfl, hsuspended⟩
      obtain rfl := Except.ok.inj hsuspended
      have hstopped : (((v.state l).target id).suspendedThreads.filter fun i => thread.all (· = i))
          = start.stopped thread id := World.stopped_congr hcalm thread id
      rw [hstopped]
      refine .bind (records_evaluateIn hsorted hholds (hids id List.mem_cons_self) _ (fun _ h => h) earlier
        (by rw [horder, List.flatMap_cons, List.append_assoc]) (hearlier.later (Nat.le_succ_of_le hl))) ?_ ?_
      · rintro m log' found - (⟨hnone, hfruitless⟩ | ⟨e, he, hconclusion⟩)
        · obtain rfl := Except.ok.inj hnone
          exact ih (fun id hid => hids id (List.mem_cons_of_mem _ hid)) _
            (by rw [horder, List.flatMap_cons, List.append_assoc]) hfruitless
        · cases e with
          | ok body =>
            obtain rfl := Except.ok.inj he
            exact .pure hconclusion
          | error fault => cases he
      · rintro m log' fault - (⟨hnone, -⟩ | ⟨e, he, hconclusion⟩)
        · cases hnone
        · cases e with
          | ok body => cases he
          | error fault =>
            obtain rfl := Except.error.inj he
            exact hconclusion
    · rintro _ _ _ - ⟨_, -, -, he⟩
      cases he

lemma records_evaluateExpression (frame : Option Nat) :
    Attempt.Records v (Calm start) AwaitsLast
      (Behaves v (Aims v (frame.getD 0) (start.places project thread) b expression) (Soothes start))
      (Conclusion v (frame.getD 0) (start.places project thread) b expression)
      (Running.evaluateExpression project expression thread frame) b [] := by
  unfold Running.evaluateExpression
  refine .bind (records_view (S := Soothes start) (fun _ _ h => h) _) ?_ ?_
  · rintro _ _ running - ⟨l, ⟨hl, rfl, -, hcalm⟩, rfl, hrunning⟩
    obtain rfl := Except.ok.inj hrunning
    have hcandidates : ((v.state l).debugger.targets.filter fun t =>
        t.state = .running && project.all (· = t.launch.project)).map (·.id) = start.candidates project :=
      World.candidates_congr hcalm project
    rw [hcandidates]
    exact records_evaluateAmong hsorted hholds _ (fun _ h => h) [] rfl (.nil (Nat.le_succ_of_le hl))
  · rintro _ _ _ - ⟨_, -, -, he⟩
    cases he

end Search

/-- Two threads are suspended, and it is known of the first one that it has no frames. -/
def twoStopped : World :=
  { Freshness.oneTarget with
    debugger := { Freshness.oneTarget.debugger with
      targets := [{ id := 1, launch := default, session := 0, state := .running
                    threads := [{ id := 1, name := "idle", state := .suspended, stop := 1, frames := some [] },
                      { id := 2, name := "busy", state := .suspended, stop := 1 }] }] } }

/-- The adapter answers a request. -/
def answers (ticket : Nat) (body : Json) (w : World) : World :=
  { w with net := w.net.update 0 fun c =>
      { c with pending := { c.pending with settled := [(ticket, .answered (.ok body))] } } }

/-- Expressions are evaluated, and anything else goes on. -/
def evaluating : Ensemble World Unit (Task Wait World (Except Fault EvaluateBody)) (World → World) :=
  .ofWork World.holds (fun _ => (Running.evaluateExpression none "x" none none).outcome) fun f w => f w

/-- An expression is to be evaluated. The adapter says what frames the second thread has, and then what the value is. -/
def fallsThrough : List (Ensemble.Turn Unit (World → World)) :=
  [.begins ()] ++ List.replicate 12 (.step 0) ++ [.around (answers 0 Freshness.firstReply)]
    ++ List.replicate 12 (.step 0) ++ [.around (answers 1 (.obj [("result", .str "1")]))]

/-- Those turns, one after the other, and then those of the call. -/
def fallsThroughSchedule (n : Nat) : Ensemble.Turn Unit (World → World) := fallsThrough.getD n (.step 0)

end Switchboard.Debug.Target
