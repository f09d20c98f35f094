import Switchboard.Activity
import Switchboard.Proofs.Editor.Discretion

/-!
# Everybody but the calls

* `Task.run_followed`: work that nobody interrupts goes on by single steps;
* `World.discreet_read`, `discreet_step`: what comes in over a channel and what processes do is discreet;
* `Activity.Sidelong`: the calls are left alone, and all else goes on discreetly;
* `Activity.Quiet.turn`: so it is in every turn that is not one of a call.
-/

namespace Switchboard

open World (Discreet)

namespace Task

variable {ω σ α : Type}

/-- Work that nobody interrupts goes on by single steps. -/
lemma run_followed (holds : ω → σ → Bool) (t : Task ω σ α) (s : σ) :
    Relation.ReflTransGen (fun a b : Task ω σ α × σ => a.1.tick? holds a.2 = some b) (t, s) (t.run holds s) := by
  induction t generalizing s with
  | done a => exact .refl
  | access f next ih => exact .head rfl (ih s (f s))
  | wait w next ih =>
    rw [run]
    split
    · next hholds =>
      refine .head ?_ (ih s)
      show (Task.wait w next).tick? holds s = _
      rw [tick?, if_pos hholds]
    · exact .refl

/-- What each access may do is done to the state when nobody interrupts, and is what the rest may do. -/
lemma Within.run {R : σ → σ → Prop} (hrefl : ∀ s, R s s) (htrans : ∀ {s s' s''}, R s s' → R s' s'' → R s s'')
    {t : Task ω σ α} (h : t.Within R) (holds : ω → σ → Bool) (s : σ) :
    R s (t.run holds s).2 ∧ (t.run holds s).1.Within R := by
  have hsteps := t.run_followed holds s
  generalize t.run holds s = last at hsteps
  induction hsteps with
  | refl => exact ⟨hrefl s, h⟩
  | tail _ hstep ih =>
    obtain ⟨hchange, hwithin⟩ := Task.Within.tick ih.2 hstep
    refine ⟨?_, hwithin⟩
    rcases hchange with hchange | hsame
    · exact htrans ih.1 hchange
    · rw [hsame]
      exact ih.1

end Task

namespace World

/-! ## What comes in -/

/-- What a server publishes is told, but not as a reply. -/
lemma discreet_applyAnalysisEvent (k : Nat) (w : World) (e : Channel.Event) : Discreet w (applyAnalysisEvent k w e) := by
  unfold applyAnalysisEvent
  split
  · split
    · refine ⟨⟨.refl _, stays_of_eq rfl⟩, ?_⟩
      rw [replies, tell, List.filterMap_append]
      exact List.append_nil _
    · exact .refl w
  · exact .refl w

lemma discreet_applyAnalysis (w : World) (c : ChannelId) : Discreet w (w.applyAnalysis c) := by
  unfold applyAnalysis
  split
  · next k _ =>
    have htaken : Discreet w (w.updateChannel c fun ch => { ch with heard := [] }) :=
      .of_net (.update (f := fun ch => { ch with heard := [] }) (fun _ => id) w.net)
    exact List.foldlRecOn (motive := Discreet w) _ _ htaken fun u hu e _ => hu.trans (discreet_applyAnalysisEvent k u e)
  · exact .refl w

/-- What comes in over a channel is taken in without a reply. -/
theorem discreet_read (w : World) (c : ChannelId) : Discreet w (w.read c).2 := by
  have hread : Discreet w { w with net := (w.net.updateWith c Channel.readOne).2 } := by
    rw [Network.updateWith_eq]
    exact .of_net (.update (fun _ => closed_readOne) _)
  exact hread.trans (discreet_applyAnalysis _ c)

/-- A process stays at its channel, and does nothing to its phase. -/
lemma step_kept (p : Process) (ch : Channel) : (p.step ch).1.channel = p.channel ∧ (p.step ch).2.phase = ch.phase := by
  unfold Process.step
  dsimp only
  split <;> exact ⟨rfl, rfl⟩

lemma discreet_step (w : World) (k : Nat) (p : Process) :
    Discreet w (let (p', ch) := p.step (w.channel p.channel)
      { w.updateChannel p'.channel fun _ => ch with processes := w.processes.set k p' }) := by
  obtain ⟨hchannel, hphase⟩ := step_kept p (w.channel p.channel)
  generalize p.step (w.channel p.channel) = r at hchannel hphase
  obtain ⟨p', ch⟩ := r
  exact ⟨⟨.put (hphase.trans (by rw [hchannel]; rfl)), stays_of_eq rfl⟩, rfl⟩

lemma discreet_takeHeard {w : World} {c : ChannelId} {heard : Channel.Heard} {ch : Channel}
    (h : (w.channel c).takeHeard? = some (heard, ch)) : Discreet w (w.updateChannel c fun _ => ch) := by
  refine .of_net (.put ?_)
  unfold Channel.takeHeard? at h
  split at h
  · obtain ⟨-, rfl⟩ := Prod.mk.inj (Option.some.inj h)
    rfl
  · cases h

end World

/-! ## Turns -/

namespace Activity

/-- What is left of the work of an event loop is discreet. -/
def Loop.Quiet : Loop → Prop
  | .busy work | .ending work => work.Within Discreet
  | .idle | .ended => True

/-- What is left of the work of event loops and workers is discreet. -/
structure Quiet (a : Activity) : Prop where
  loops : ∀ x ∈ a.loops, x.2.Quiet
  jobs : ∀ x ∈ a.jobs, x.2.Within Discreet

/-- The calls are left alone, and all else goes on discreetly. -/
structure Sidelong (a b : Activity) : Prop where
  quiet : b.Quiet
  calls : b.calls = a.calls
  results : b.results = a.results
  world : Discreet a.world b.world

namespace Quiet

variable {a : Activity}

lemma refl (h : a.Quiet) : Sidelong a a := ⟨h, rfl, rfl, .refl _⟩

lemma trans {b c : Activity} (h : Sidelong a b) (h' : Sidelong b c) : Sidelong a c :=
  ⟨h'.quiet, h'.calls.trans h.calls, h'.results.trans h.results, h.world.trans h'.world⟩

lemma onWorld (h : a.Quiet) {f : World → World} (hf : Discreet a.world (f a.world)) : Sidelong a (a.onWorld f) :=
  ⟨⟨h.loops, h.jobs⟩, rfl, rfl, hf⟩

lemma goOn (h : a.Quiet) {α : Type} {work : Task Wait World α} (hwork : work.Within Discreet) :
    Sidelong a (a.goOn work).2 ∧ (a.goOn work).1.Within Discreet := by
  obtain ⟨hworld, hrest⟩ := Task.Within.run Discreet.refl Discreet.trans hwork World.holds a.world
  exact ⟨⟨⟨h.loops, h.jobs⟩, rfl, rfl, hworld⟩, hrest⟩

lemma putLoop (h : a.Quiet) (s : Debug.SessionId) {l : Loop} (hl : l.Quiet) : Sidelong a (a.putLoop s l) := by
  refine ⟨⟨?_, h.jobs⟩, rfl, rfl, .refl _⟩
  intro x hx
  rcases List.mem_cons.mp hx with rfl | hx
  · exact hl
  · exact h.loops x (List.mem_of_mem_filter hx)

lemma loop (h : a.Quiet) (s : Debug.SessionId) : (a.loop s).Quiet := by
  unfold Activity.loop
  cases hfound : a.loops.lookup s with
  | none => exact trivial
  | some l =>
    obtain ⟨before, after, heq, -⟩ := List.lookup_eq_some_iff.mp hfound
    exact h.loops (s, l) (heq ▸ List.mem_append_right _ List.mem_cons_self)

lemma putJobs (h : a.Quiet) {jobs : List (Nat × Task Wait World Unit)} (hjobs : ∀ x ∈ jobs, x.2.Within Discreet) :
    Sidelong a { a with jobs } := ⟨⟨h.loops, hjobs⟩, rfl, rfl, .refl _⟩

/-- An event loop goes on with an event, or with the end of its session. -/
lemma loopBusy (h : a.Quiet) (s : Debug.SessionId) {work : Task Wait World Unit} (hwork : work.Within Discreet) :
    Sidelong a (a.loopBusy s work).1 := by
  obtain ⟨hgone, hrest⟩ := h.goOn hwork
  unfold Activity.loopBusy
  generalize a.goOn work = r at hgone hrest
  obtain ⟨work', b⟩ := r
  cases work' with
  | done u => exact trans hgone (hgone.quiet.putLoop s trivial)
  | access f next | wait w next => exact trans hgone (hgone.quiet.putLoop s hrest)

lemma loopEnding (h : a.Quiet) (s : Debug.SessionId) {work : Task Wait World Unit} (hwork : work.Within Discreet) :
    Sidelong a (a.loopEnding s work).1 := by
  obtain ⟨hgone, hrest⟩ := h.goOn hwork
  unfold Activity.loopEnding
  generalize a.goOn work = r at hgone hrest
  obtain ⟨work', b⟩ := r
  cases work' with
  | done u => exact trans hgone (hgone.quiet.putLoop s trivial)
  | access f next | wait w next => exact trans hgone (hgone.quiet.putLoop s hrest)

lemma loopTurn (h : a.Quiet) (s : Debug.SessionId) : Sidelong a (loopTurn s a).1 := by
  have hallowed := Debug.Bustle.allowed_discreet
  unfold Activity.loopTurn
  have hloop := h.loop s
  cases hat : a.loop s with
  | idle =>
    dsimp only
    split
    · next heard ch hheard =>
      have htaken := h.onWorld (f := fun w => w.updateChannel (a.channelOf s) fun _ => ch)
        (World.discreet_takeHeard hheard)
      exact trans htaken (htaken.quiet.loopBusy s (hallowed.handleEvent s heard.event))
    · split
      · exact h.refl
      · exact h.loopEnding s (hallowed.toAllowedCommands.toAllowedCalls.sessionClosed s)
  | busy work =>
    rw [hat] at hloop
    exact h.loopBusy s hloop
  | ending work =>
    rw [hat] at hloop
    exact h.loopEnding s hloop
  | ended => exact h.refl

/-- Work that is put in place of other work, or dropped. -/
lemma within_putWork {n : Nat} {work : Task Wait World Unit} (hwork : work.Within Discreet)
    {jobs : List (Nat × Task Wait World Unit)} (hjobs : ∀ x ∈ jobs, x.2.Within Discreet) :
    ∀ x ∈ putWork n work jobs, x.2.Within Discreet := by
  have hput : ∀ x ∈ jobs.map (fun x => if x.1 = n then (n, work) else x), x.2.Within Discreet := by
    intro x hx
    obtain ⟨y, hy, rfl⟩ := List.mem_map.mp hx
    split
    · exact hwork
    · exact hjobs y hy
  intro x hx
  cases work with
  | done u => exact hjobs x (List.mem_of_mem_filter hx)
  | access f next | wait w next => exact hput x hx

lemma jobTurn (h : a.Quiet) (n : Nat) : Sidelong a (jobTurn n a).1 := by
  unfold Activity.jobTurn
  cases hfound : a.jobs.lookup n with
  | none => exact h.refl
  | some work =>
    obtain ⟨before, after, heq, -⟩ := List.lookup_eq_some_iff.mp hfound
    have hwork : work.Within Discreet := h.jobs (n, work) (heq ▸ List.mem_append_right _ List.mem_cons_self)
    obtain ⟨hgone, hrest⟩ := h.goOn hwork
    dsimp only
    generalize a.goOn work = r at hgone hrest
    obtain ⟨work', b⟩ := r
    have hput := hgone.quiet.putJobs (within_putWork (n := n) hrest hgone.quiet.jobs)
    cases work' with
    | done u =>
      have hreleased := hput.quiet.onWorld
        (f := fun w => { w with debugger := { w.debugger with pool := w.debugger.pool.release } }) (.of_eq rfl rfl rfl)
      exact trans hgone (trans hput hreleased)
    | access f next | wait w next => exact trans hgone hput

lemma workerTurn (h : a.Quiet) : Sidelong a a.workerTurn.1 := by
  unfold Activity.workerTurn
  split
  · exact h.refl
  · next job pool _ =>
    have htaken := h.onWorld (f := fun w => { w with debugger := { w.debugger with pool } }) (.of_eq rfl rfl rfl)
    have hprefetch := Debug.Bustle.allowed_discreet.toAllowedCommands.toAllowedCalls.prefetch job
    have hjobs : ∀ x ∈ a.jobs ++ [(job.number, Debug.Running.prefetch job)], x.2.Within Discreet := by
      intro x hx
      rcases List.mem_append.mp hx with hx | hx
      · exact h.jobs x hx
      · rw [List.mem_singleton.mp hx]
        exact hprefetch
    have hput := htaken.quiet.putJobs hjobs
    exact trans htaken (trans hput (hput.quiet.jobTurn job.number))

/-- In every turn that is not one of a call, the calls are left alone, and all else goes on discreetly. -/
theorem turn (h : a.Quiet) {actor : Actor} (hother : ∀ n, actor ≠ .call n) : Sidelong a (turn actor a).1 := by
  cases actor with
  | reader c => exact h.onWorld (f := fun w => (w.read c).2) (a.world.discreet_read c)
  | process k =>
    show Sidelong a (processTurn k a).1
    unfold processTurn
    split
    · exact h.refl
    · next p _ => exact h.onWorld (f := fun _ => _) (a.world.discreet_step k p)
  | loop s => exact h.loopTurn s
  | worker => exact h.workerTurn
  | job n => exact h.jobTurn n
  | call n => exact absurd rfl (hother n)

end Quiet

end Activity

end Switchboard
