import Switchboard.Activity
import Switchboard.Proofs.Debug.Keeping

/-!
# The scene: sessions and targets with all that goes on about them

* `Scene`: a world, calls with what is left of them, and what the event loop of each session is at;
* `Scene.after`, `Scene.play`: one turn, and a run of turns in any order of single accesses;
* `Stage`, `Move`: where a call can be, and what one step of it makes of the world;
* `Closing`: where the event loop of a session that is gone can be;
* `Scene.Happens`: all that can happen in one turn.

Two calls bring something new, a run by its claim and an insertion by two accesses. Every other access spares the world.
-/

namespace Switchboard

/-- A network that takes the place of another one; what was closed before stays closed. -/
def Network.sealed (before after : Network) : Network :=
  { after with
    channels := (after.channels ++ before.channels.drop after.channels.length).mapIdx fun c ch =>
      if (before.channel c).phase = .closed then ch.markClosed else ch }

/-- Closed channels stay closed under the seal. -/
lemma Network.ages_sealed (before after : Network) : Ages before (before.sealed after) := by
  intro c hc
  have hlt : c < (before.sealed after).channels.length := by
    have hbefore : c < before.channels.length := present_of_phase (by rw [hc]; nofun)
    have hlength : (before.sealed after).channels.length
        = after.channels.length + (before.channels.length - after.channels.length) := by simp [sealed]
    have hle : before.channels.length ≤ (before.sealed after).channels.length := by omega
    exact Nat.lt_of_lt_of_le hbefore hle
  have hget : (before.sealed after).channel c = (before.sealed after).channels[c] := by
    simp [channel, List.getD, hlt]
  rw [hget]
  simp only [sealed, List.getElem_mapIdx]
  rw [if_pos hc]
  rfl

namespace Debug.Running

/-! ## What is left of calls -/

/-- What is left of a run when it is its turn at the table. -/
def claiming (launch : Launch) (root : Option Path) : DebugWork Unit := do
  let _ ← (do
    let target ← Attempt.act fun w : World => w.claim launch root
    pursuing root target)

/-- A session becomes the one of its language. Gives the session that was it before. -/
def enter (x : SessionId) (w : World) : Option SessionId × World :=
  let (old, b) := w.debugger.setCurrent (w.debugger.session x).language x
  (old, { w with debugger := b })

/-- From now on the events of a session are taken up. -/
def serveIn (x : SessionId) (w : World) : World := { w with debugger := w.debugger.serve x }

/-- The session that another one took the place of is ended. -/
def replacing (x : SessionId) : Option SessionId → Task Wait World Unit
  | some old => if old ≠ x then close old else pure ()
  | none => pure ()

/-- The last access of an insertion. -/
def serving (x : SessionId) : Task Wait World (Except Fault Unit) := .access (serveIn x) fun _ => .done (.ok ())

/-- What is left of an insertion when it is its turn at the table. -/
def entering (x : SessionId) : Task Wait World (Except Fault Unit) :=
  .access (fun w => (enter x w).2) fun w => (replacing x (enter x w).1).andThen fun _ => serving x

/-- The last access of the end of a session. -/
def forgetting (x : SessionId) : Task Wait World Unit :=
  .modify fun w => { w with debugger := w.debugger.forget x }

/-- What is left of the end of a session whose live target was found. -/
def marking (x : SessionId) (id : Nat) : Task Wait World Unit :=
  (Target.markTerminated id).andThen fun _ => .wait .table (forgetting x)

/-- What is left of the end of a session when its live target has been looked for. -/
def leaving (x : SessionId) : Option Target → Task Wait World Unit
  | some t => marking x t.id
  | none => .wait .table (forgetting x)

lemma sessionClosed_eq (x : SessionId) :
    sessionClosed x = .access id fun w => leaving x (w.debugger.liveTarget? x) := by
  show Task.access id _ = Task.access id _
  congr 1

/-! ## Scenes -/

/-- What is asked of the debugger that has to do with sessions and targets. -/
inductive Scene.Call where
  | run (launch : Nat)
  | insert (x : SessionId)
  | shutdown
  | control (target : Nat) (call : Target.Course.Call)

/-- The work of a call. -/
def Scene.Call.work : Scene.Call → DebugWork Unit
  | run launch => do
    let _ ← Running.run launch
  | insert x => Attempt.ofTask (insertSession x)
  | shutdown => Attempt.ofTask Running.shutdown
  | control id call => do
    let _ ← call.work id

/-- The session that a call inserts. -/
def Scene.Call.inserts? : Scene.Call → Option SessionId
  | insert x => some x
  | _ => none

/-- The world, calls with what is left of them, and what event loops are at. -/
structure Scene where
  world : World
  calls : List (Scene.Call × Task Wait World (Except Fault Unit)) := []
  loops : SessionId → Activity.Loop := fun _ => .idle

namespace Scene

/-- Whose turn it is, and what is new. -/
inductive Turn where
  | begins (call : Call)
  /-- A call makes one access, or passes a wait that is over. -/
  | step (i : Nat)
  /-- The event loop of a session makes one access, takes up an event or comes to its end. -/
  | loop (x : SessionId)
  /-- Anything else changes: the other ends of channels, adapters that are attached, breakpoints, files. -/
  | outside (world : World)

/-- A session is handed over together with its events, so it is inserted once. -/
def admits (s : Scene) : Call → Bool
  | .insert x =>
    x < s.world.debugger.sessions.length && !(s.world.debugger.session x).served &&
      s.calls.all fun c => c.1.inserts? ≠ some x
  | _ => true

/-- What everything else makes of the world. Targets and the table stay, sessions that are attached are not served yet,
and what is closed stays closed. -/
def around (w new : World) : World :=
  { new with
    net := w.net.sealed new.net
    debugger := { new.debugger with
      targets := w.debugger.targets
      nextTarget := w.debugger.nextTarget
      current := w.debugger.current
      sessions := w.debugger.sessions ++ new.debugger.sessions.map fun x => { x with served := false } } }

/-- Note what an event loop is at. -/
def putLoop (s : Scene) (x : SessionId) (l : Activity.Loop) : Scene :=
  { s with loops := fun y => if y = x then l else s.loops y }

/-- An event loop goes on with work; work that is done brings it on. -/
def goOn (s : Scene) (x : SessionId) (next : Activity.Loop) (again : Task Wait World Unit → Activity.Loop) :
    Task Wait World Unit → Scene
  | .done _ => s.putLoop x next
  | work =>
    match work.tick? World.holds s.world with
    | none => s
    | some (work, world) => { s with world }.putLoop x (again work)

/-- The turn of an event loop. -/
def looped (s : Scene) (x : SessionId) : Scene :=
  match s.loops x with
  | .idle =>
    let c := (s.world.debugger.session x).channel
    match (s.world.channel c).takeHeard? with
    | some (heard, ch) =>
      { s with world := s.world.updateChannel c fun _ => ch }.putLoop x (.busy (handleEvent x heard.event))
    | none => if (s.world.channel c).isOpen then s else s.putLoop x (.ending (sessionClosed x))
  | .busy work => s.goOn x .idle .busy work
  | .ending work => s.goOn x .ended .ending work
  | .ended => s

/-- One turn; what is not possible changes nothing. -/
def after (s : Scene) : Turn → Scene
  | .begins call => if s.admits call then { s with calls := s.calls ++ [(call, call.work.outcome)] } else s
  | .step i =>
    match s.calls[i]? with
    | none => s
    | some (call, work) =>
      match work.tick? World.holds s.world with
      | none => s
      | some (work, world) => { s with world, calls := s.calls.set i (call, work) }
  | .loop x => if (s.world.debugger.session x).served then s.looped x else s
  | .outside new => { s with world := around s.world new }

/-- The scene after `n` turns. -/
def play (start : World) (schedule : Nat → Turn) : Nat → Scene
  | 0 => { world := start }
  | n + 1 => (play start schedule n).after (schedule n)

open World (Spares)

/-! ## Where calls can be -/

/-- The work of a call that inserts a session. -/
lemma work_insert (x : SessionId) : (Call.insert x).work.outcome = .wait .table (entering x) := by
  have hrest : ∀ old : Option SessionId,
      (do
        match old with
        | some o => if o ≠ x then close o
        | none => pure ()
        Task.modify (serveIn x) : Task Wait World Unit).andThen (fun _ => .done (.ok ()))
      = (replacing x old).andThen fun _ => serving x := by
    intro old
    cases old with
    | none => rfl
    | some o =>
      dsimp only [replacing]
      split
      · exact Task.andThen_assoc ..
      · rfl
  show Task.wait Wait.table _ = Task.wait Wait.table _
  congr 1
  show Task.access _ _ = Task.access _ _
  congr 1
  funext w
  exact hrest _

/-- What is left of the run of a launch configuration that was looked up. -/
def launching (k : Nat) (w : World) : Task Wait World (Except Fault Unit) :=
  match w.debugger.launches.get? k with
  | none => .done (.error (.noSuchLaunch k))
  | some launch => .wait .table (claiming launch (w.debugger.settings.projectRoot? launch.project)).outcome

/-- The work of a call that runs a launch configuration. -/
lemma work_run (k : Nat) : (Call.run k).work.outcome = .access (fun w => w) (launching k) := by
  show Task.access id _ = Task.access id _
  congr 1
  funext w
  unfold launching
  simp only [Task.andThen, Function.comp, ExceptT.bindCont]
  cases w.debugger.launches.get? k with
  | none => rfl
  | some launch => rfl

/-- Where a call can be: before or after what it brings that is new. -/
inductive Stage : Call → Task Wait World (Except Fault Unit) → Prop
  | asked (k : Nat) : Stage (.run k) (.access (fun w => w) (launching k))
  | queues (k : Nat) (launch : Launch) (root : Option Path) :
    Stage (.run k) (.wait .table (claiming launch root).outcome)
  | claims (k : Nat) (launch : Launch) (root : Option Path) : Stage (.run k) (claiming launch root).outcome
  | handed (x : SessionId) : Stage (.insert x) (.wait .table (entering x))
  | enters (x : SessionId) : Stage (.insert x) (entering x)
  | serves (x : SessionId) (t : Task Wait World Unit) (spares : t.Within Spares) :
    Stage (.insert x) (t.andThen fun _ => serving x)
  | plain (call : Call) (work : Task Wait World (Except Fault Unit)) (spares : work.Within Spares)
      (inserted : ∀ x, call = .insert x → ∃ r, work = .done r) : Stage call work

/-- A call begins at one of these. -/
lemma stage_work (call : Call) : Stage call call.work.outcome := by
  cases call with
  | run k =>
    rw [work_run]
    exact .asked k
  | insert x =>
    rw [work_insert]
    exact .handed x
  | shutdown => exact .plain _ _ (Attempt.Within.ofTask allowed_spares.shutdown) nofun
  | control id call => exact .plain _ _ (Attempt.Within.bind (allowed_spares.control id call) fun _ => .pure ()) nofun

/-- What one step of a call makes of the world. -/
inductive Move (call : Call) (work : Task Wait World (Except Fault Unit)) (w : World)
    (work' : Task Wait World (Except Fault Unit)) (w' : World) : Prop where
  | spares (spares : w.Spares w')
  | claims (k : Nat) (launch : Launch) (root : Option Path) (run : call = .run k)
      (turn : work = (claiming launch root).outcome) (world : w' = (w.claim launch root).2)
  /-- From now on it owes it to the session to serve it. -/
  | enters (x : SessionId) (insert : call = .insert x) (world : w' = (enter x w).2)
      (owes : ∃ t : Task Wait World Unit, t.Within Spares ∧ work' = t.andThen fun _ => serving x)
  | serves (x : SessionId) (insert : call = .insert x) (world : w' = serveIn x w) (last : ∃ r, work' = .done r)

/-- The first step of work in sequence is one of the first part, unless that is done. -/
lemma tick?_andThen_cases {α β : Type} {R : World → World → Prop} {t : Task Wait World α} {k : α → Task Wait World β}
    (ht : t.Within R) {w w' : World} {work : Task Wait World β}
    (htick : (t.andThen k).tick? World.holds w = some (work, w')) :
    (∃ a, t = .done a ∧ (k a).tick? World.holds w = some (work, w')) ∨
      ∃ t' : Task Wait World α, work = t'.andThen k ∧ t'.Within R ∧ (R w w' ∨ w' = w) := by
  cases t with
  | done a => exact .inl ⟨a, rfl, htick⟩
  | access f next =>
    obtain ⟨rfl, rfl⟩ := Prod.mk.inj (Option.some.inj htick)
    have hs := ht w
    exact .inr ⟨next w, rfl, hs.2, .inl hs.1⟩
  | wait on next =>
    simp only [Task.andThen, Task.tick?] at htick
    split at htick
    · obtain ⟨rfl, rfl⟩ := Prod.mk.inj (Option.some.inj htick)
      exact .inr ⟨next, rfl, ht, .inr rfl⟩
    · cases htick

lemma within_replacing (x : SessionId) (old : Option SessionId) : (replacing x old).Within Spares := by
  cases old with
  | none => exact trivial
  | some o =>
    show Task.Within Spares (if o ≠ x then close o else .done ())
    split
    · exact allowed_spares.close o
    · exact trivial

/-- A step that is allowed spares the world. -/
lemma spares_of_or {w w' : World} (h : w.Spares w' ∨ w' = w) : w.Spares w' := by
  rcases h with h | rfl
  · exact h
  · exact .refl w'

/-- A run that has claimed its target, or was refused one, spares the world. -/
lemma within_claimed (root : Option Path) (claimed : Except Fault Target) :
    (((Task.done claimed : Task Wait World _).andThen (ExceptT.bindCont (pursuing root))).andThen
      (ExceptT.bindCont fun _ => (pure () : DebugWork Unit))).Within Spares := by
  refine .andThen ?_ ?_
  · cases claimed with
    | ok target => exact allowed_spares.pursuing root target
    | error e => exact trivial
  · intro r
    cases r with
    | ok _ => exact trivial
    | error e => exact trivial

/-- One step of a call is one of these moves, and the call can be where it leads. -/
theorem stage_tick {call : Call} {work work' : Task Wait World (Except Fault Unit)} {w w' : World}
    (h : Stage call work) (htick : work.tick? World.holds w = some (work', w')) :
    Stage call work' ∧ Move call work w work' w' := by
  cases h with
  | asked k =>
    obtain ⟨rfl, rfl⟩ := Prod.mk.inj (Option.some.inj htick)
    refine ⟨?_, .spares (.refl w)⟩
    unfold launching
    split
    · exact .plain _ _ trivial nofun
    · exact .queues k _ _
  | queues k launch root =>
    obtain ⟨rfl, rfl⟩ := Prod.mk.inj (Option.some.inj htick)
    exact ⟨.claims k launch root, .spares (.refl w)⟩
  | claims k launch root =>
    obtain ⟨rfl, rfl⟩ := Prod.mk.inj (Option.some.inj htick)
    exact ⟨.plain _ _ (within_claimed root (w.claim launch root).1) nofun, .claims k launch root rfl rfl rfl⟩
  | handed x =>
    obtain ⟨rfl, rfl⟩ := Prod.mk.inj (Option.some.inj htick)
    exact ⟨.enters x, .spares (.refl w)⟩
  | enters x =>
    obtain ⟨rfl, rfl⟩ := Prod.mk.inj (Option.some.inj htick)
    have hreplacing := within_replacing x (enter x w).1
    exact ⟨.serves x _ hreplacing, .enters x rfl rfl ⟨_, hreplacing, rfl⟩⟩
  | serves x t spares =>
    rcases tick?_andThen_cases spares htick with ⟨a, -, hserving⟩ | ⟨t', rfl, hspares, hworld⟩
    · obtain ⟨rfl, rfl⟩ := Prod.mk.inj (Option.some.inj hserving)
      exact ⟨.plain _ _ trivial fun _ _ => ⟨_, rfl⟩, .serves x rfl rfl ⟨_, rfl⟩⟩
    · exact ⟨.serves x t' hspares, .spares (spares_of_or hworld)⟩
  | plain call work spares inserted =>
    obtain ⟨hworld, hspares⟩ := Task.Within.tick spares htick
    refine ⟨.plain _ _ hspares ?_, .spares (spares_of_or hworld)⟩
    intro x hx
    obtain ⟨r, rfl⟩ := inserted x hx
    cases htick

/-- A step of a run changes nothing until the run has claimed its target, and after that it spares the world. -/
lemma run_tick {k : Nat} {work work' : Task Wait World (Except Fault Unit)} {w w' : World} (h : Stage (.run k) work)
    (htick : work.tick? World.holds w = some (work', w')) : w' = w ∨ work'.Within Spares := by
  cases h with
  | asked _ | queues _ launch root =>
    obtain ⟨rfl, rfl⟩ := Prod.mk.inj (Option.some.inj htick)
    exact .inl rfl
  | claims _ launch root =>
    obtain ⟨rfl, rfl⟩ := Prod.mk.inj (Option.some.inj htick)
    exact .inr (within_claimed root (w.claim launch root).1)
  | plain _ _ spares inserted => exact .inr (Task.Within.tick spares htick).2

/-! ## All that can happen -/

/-- Calls and event loops are where they can be. -/
structure Staged (s : Scene) : Prop where
  calls : ∀ (i : Nat) (call : Call) (work : Task Wait World (Except Fault Unit)), s.calls[i]? = some (call, work) →
    Stage call work
  busy : ∀ (x : SessionId) (work : Task Wait World Unit), s.loops x = .busy work → work.Within Spares
  ending : ∀ (x : SessionId) (work : Task Wait World Unit), s.loops x = .ending work → work.Within Spares

/-- All that can happen in one turn. -/
inductive Happens (s s' : Scene) : Prop where
  | still (same : s' = s)
  | begins (call : Call) (admitted : s.admits call = true)
      (eq : s' = { s with calls := s.calls ++ [(call, call.work.outcome)] })
  | moves (i : Nat) (call : Call) (work work' : Task Wait World (Except Fault Unit)) (w' : World)
      (underway : s.calls[i]? = some (call, work)) (tick : work.tick? World.holds s.world = some (work', w'))
      (stage : Stage call work') (move : Move call work s.world work' w')
      (eq : s' = { s with world := w', calls := s.calls.set i (call, work') })
  /-- An event loop takes up an event, or goes on with it. -/
  | works (x : SessionId) (work : Task Wait World Unit) (w' : World)
      (served : (s.world.debugger.session x).served = true)
      (before : s.loops x = .idle ∨ ∃ left, s.loops x = .busy left) (spares : s.world.Spares w')
      (within : work.Within Spares) (eq : s' = { s with world := w' }.putLoop x (.busy work))
  | rests (x : SessionId) (served : (s.world.debugger.session x).served = true)
      (before : ∃ left, s.loops x = .busy left) (eq : s' = s.putLoop x .idle)
  /-- An event loop finds its channel closed. -/
  | closes (x : SessionId) (served : (s.world.debugger.session x).served = true) (before : s.loops x = .idle)
      (closed : (s.world.channel (s.world.debugger.session x).channel).phase = .closed)
      (eq : s' = s.putLoop x (.ending (sessionClosed x)))
  | leaves (x : SessionId) (work work' : Task Wait World Unit) (w' : World)
      (served : (s.world.debugger.session x).served = true) (before : s.loops x = .ending work)
      (tick : work.tick? World.holds s.world = some (work', w')) (spares : s.world.Spares w')
      (within : work'.Within Spares) (eq : s' = { s with world := w' }.putLoop x (.ending work'))
  | ends (x : SessionId) (served : (s.world.debugger.session x).served = true) (r : Unit)
      (before : s.loops x = .ending (.done r)) (eq : s' = s.putLoop x .ended)
  | outside (new : World) (eq : s' = { s with world := around s.world new })

/-- An event loop that goes on with work is done with it, or makes one step, or has to wait. -/
lemma goOn_cases (s : Scene) (x : SessionId) (next : Activity.Loop) (again : Task Wait World Unit → Activity.Loop)
    (work : Task Wait World Unit) :
    (∃ r, work = .done r ∧ s.goOn x next again work = s.putLoop x next) ∨
      (∃ work' w', work.tick? World.holds s.world = some (work', w') ∧
        s.goOn x next again work = { s with world := w' }.putLoop x (again work')) ∨
      s.goOn x next again work = s := by
  unfold goOn
  split
  · next r => exact .inl ⟨r, rfl, rfl⟩
  · cases htick : work.tick? World.holds s.world with
    | none => exact .inr (.inr rfl)
    | some r => exact .inr (.inl ⟨r.1, r.2, rfl, rfl⟩)

/-- The world is spared when an event is taken off a channel. -/
lemma spares_takeHeard {w : World} {c : ChannelId} {heard : Channel.Heard} {ch : Channel}
    (h : (w.channel c).takeHeard? = some (heard, ch)) : w.Spares (w.updateChannel c fun _ => ch) := by
  refine .of_net ?_
  intro d hd
  unfold Channel.takeHeard? at h
  split at h
  · obtain ⟨-, rfl⟩ := Prod.mk.inj (Option.some.inj h)
    rcases Network.channel_update_cases w.net c (fun _ => { w.channel c with heard := _ }) d with hsame | ⟨rfl, hnew⟩
    · rw [hsame]
      exact hd
    · rw [hnew]
      exact hd
  · cases h

/-- These are all the things that can happen in the turn of an event loop. -/
lemma happens_looped {s : Scene} (h : Staged s) {x : SessionId}
    (hserved : (s.world.debugger.session x).served = true) : Happens s (s.looped x) := by
  unfold looped
  cases hloop : s.loops x with
  | idle =>
    dsimp only
    split
    · next heard ch htake =>
      exact .works x _ _ hserved (.inl hloop) (spares_takeHeard htake) (allowed_spares.handleEvent x heard.event) rfl
    · split
      · exact .still rfl
      · next hclosed => exact .closes x hserved hloop (by simpa [Channel.isOpen] using hclosed) rfl
  | busy work =>
    rcases goOn_cases s x .idle .busy work with ⟨r, rfl, heq⟩ | ⟨work', w', htick, heq⟩ | heq
    · exact .rests x hserved ⟨_, hloop⟩ heq
    · obtain ⟨hworld, hwithin⟩ := Task.Within.tick (h.busy x work hloop) htick
      exact .works x work' w' hserved (.inr ⟨_, hloop⟩) (spares_of_or hworld) hwithin heq
    · exact .still heq
  | ending work =>
    rcases goOn_cases s x .ended .ending work with ⟨r, rfl, heq⟩ | ⟨work', w', htick, heq⟩ | heq
    · exact .ends x hserved r hloop heq
    · obtain ⟨hworld, hwithin⟩ := Task.Within.tick (h.ending x work hloop) htick
      exact .leaves x work work' w' hserved hloop htick (spares_of_or hworld) hwithin heq
    · exact .still heq
  | ended => exact .still rfl

/-- The turn of a call: it can go on and makes one step, or nothing changes. -/
lemma after_step (s : Scene) (i : Nat) :
    (∃ call work work' w', s.calls[i]? = some (call, work) ∧ work.tick? World.holds s.world = some (work', w') ∧
      s.after (.step i) = { s with world := w', calls := s.calls.set i (call, work') }) ∨ s.after (.step i) = s := by
  unfold after
  cases hi : s.calls[i]? with
  | none => exact .inr (by simp only [hi])
  | some r =>
    obtain ⟨call, work⟩ := r
    cases htick : work.tick? World.holds s.world with
    | none => exact .inr (by simp only [hi, htick])
    | some r =>
      obtain ⟨work', w'⟩ := r
      exact .inl ⟨call, work, work', w', rfl, htick, by simp only [hi, htick]⟩

/-- These are all the things that can happen in one turn. -/
theorem happens {s : Scene} (h : Staged s) (turn : Turn) : Happens s (s.after turn) := by
  cases turn with
  | begins call =>
    unfold after
    dsimp only
    split
    · next hadmits => exact .begins call hadmits rfl
    · exact .still rfl
  | step i =>
    rcases after_step s i with ⟨call, work, work', w', hi, htick, heq⟩ | hsame
    · obtain ⟨hstage, hmove⟩ := stage_tick (h.calls i call work hi) htick
      exact .moves i call work work' w' hi htick hstage hmove heq
    · exact .still hsame
  | loop x =>
    unfold after
    dsimp only
    split
    · next hserved => exact happens_looped h hserved
    · exact .still rfl
  | outside new => exact .outside new rfl

/-- A call keeps what it has left to do in the turns of others. -/
lemma calls_after {s : Scene} {turn : Turn} {i : Nat} (hturn : turn ≠ .step i)
    {c : Call × Task Wait World (Except Fault Unit)} (hi : s.calls[i]? = some c) :
    (s.after turn).calls[i]? = some c := by
  cases turn with
  | begins call =>
    unfold after
    dsimp only
    split
    · rw [List.getElem?_append_left (List.getElem?_eq_some_iff.mp hi).1]
      exact hi
    · exact hi
  | step j =>
    rcases after_step s j with ⟨call, work, work', w', -, -, heq⟩ | hsame
    · have hji : j ≠ i := fun h => hturn (congrArg Turn.step h)
      rw [heq, List.getElem?_set_ne hji]
      exact hi
    · rw [hsame]
      exact hi
  | loop x =>
    have hloop : (s.looped x).calls = s.calls := by
      unfold looped goOn
      grind [Scene.putLoop]
    unfold after
    dsimp only
    split
    · rw [hloop]
      exact hi
    · exact hi
  | outside new => exact hi

/-- What an event loop is at when one of them was noted. -/
lemma loops_putLoop (s : Scene) (x : SessionId) (l : Activity.Loop) (y : SessionId) :
    (s.putLoop x l).loops y = if y = x then l else s.loops y := rfl

/-- Event loops stay where they can be when one of them goes on. -/
lemma Staged.putLoop {s : Scene} (h : Staged s) {x : SessionId} {l : Activity.Loop}
    (hbusy : ∀ work, l = .busy work → work.Within Spares) (hending : ∀ work, l = .ending work → work.Within Spares)
    (w : World) : Staged ({ s with world := w }.putLoop x l) where
  calls := h.calls
  busy := by
    intro y work hy
    rw [loops_putLoop] at hy
    split at hy
    · exact hbusy work hy
    · exact h.busy y work hy
  ending := by
    intro y work hy
    rw [loops_putLoop] at hy
    split at hy
    · exact hending work hy
    · exact h.ending y work hy

/-- Whatever happens, calls and event loops are where they can be. -/
lemma staged_of_happens {s s' : Scene} (h : Staged s) (hhappens : Happens s s') : Staged s' := by
  cases hhappens with
  | still same =>
    rw [same]
    exact h
  | begins call admitted eq =>
    rw [eq]
    refine ⟨?_, h.busy, h.ending⟩
    intro i other work hi
    simp only [List.getElem?_append] at hi
    split at hi
    · exact h.calls i other work hi
    · obtain ⟨rfl, rfl⟩ := Prod.mk.inj (List.mem_singleton.mp (List.mem_of_getElem? hi))
      exact stage_work _
  | moves i call work work' w' underway tick stage move eq =>
    rw [eq]
    refine ⟨?_, h.busy, h.ending⟩
    intro j other left hj
    by_cases hij : i = j
    · subst hij
      rw [List.getElem?_set_self (List.getElem?_eq_some_iff.mp underway).1] at hj
      obtain ⟨rfl, rfl⟩ := Prod.mk.inj (Option.some.inj hj)
      exact stage
    · rw [List.getElem?_set_ne hij] at hj
      exact h.calls j other left hj
  | works x work w' served before spares within eq =>
    rw [eq]
    refine h.putLoop ?_ ?_ w'
    · intro other hother
      obtain rfl := Activity.Loop.busy.inj hother
      exact within
    · intro other hother
      cases hother
  | rests x served before eq =>
    rw [eq]
    refine h.putLoop ?_ ?_ s.world
    · intro other hother
      cases hother
    · intro other hother
      cases hother
  | closes x served before closed eq =>
    rw [eq]
    refine h.putLoop ?_ ?_ s.world
    · intro other hother
      cases hother
    · intro other hother
      obtain rfl := Activity.Loop.ending.inj hother
      exact allowed_spares.sessionClosed x
  | leaves x work work' w' served before tick spares within eq =>
    rw [eq]
    refine h.putLoop ?_ ?_ w'
    · intro other hother
      cases hother
    · intro other hother
      obtain rfl := Activity.Loop.ending.inj hother
      exact within
  | ends x served r before eq =>
    rw [eq]
    refine h.putLoop ?_ ?_ s.world
    · intro other hother
      cases hother
    · intro other hother
      cases hother
  | outside new eq =>
    rw [eq]
    exact ⟨h.calls, h.busy, h.ending⟩

/-- In a run calls and event loops are where they can be. -/
theorem staged (start : World) (schedule : Nat → Turn) (n : Nat) : Staged (play start schedule n) := by
  induction n with
  | zero =>
    exact ⟨fun _ _ _ hcall => (nomatch hcall), fun _ _ hbusy => (nomatch hbusy), fun _ _ hending => (nomatch hending)⟩
  | succ n ih => exact staged_of_happens ih (happens ih (schedule n))

/-- From one time to the next one of these things happens. -/
lemma happens_play (start : World) (schedule : Nat → Turn) (n : Nat) :
    Happens (play start schedule n) (play start schedule (n + 1)) :=
  happens (staged start schedule n) (schedule n)

end Scene

end Debug.Running

end Switchboard
