import Switchboard.Proofs.Debug.Ahead

/-!
# Frames that are fetched when they are out of date

* `Run`: any number of requests and workers, access by access, and whatever happens around them;
* `Run.Transits`, `Refuses`: in a turn a transition of a target is applied, or its launch is refused;
* `Prefetching`: from the stop of a thread to the request for its frames, in turns of its own;
* `drift`: what each turn makes of targets; `stamp_cases`: the version of a target counts its transitions, up to wrapping;
* `Past`, `past`, `exists_putsOff`: how a worker came by its job;
* `timely_iff`: what has to hold besides the check of the version for a request not to be out of date.
-/

namespace Switchboard.Debug.Ahead

open Target (Fetch.Stage)

/-! ## Runs -/

/-- Any number of requests and workers, and whatever happens around them. -/
structure Run where
  start : World
  schedule : Nat → Ensemble.Turn Call (World → World)

namespace Run

variable (r : Run)

/-- The world, the requests and the workers after `n` turns. -/
def moment (n : Nat) : Ensemble.Moment World Call Place := rush.play r.start r.schedule n

/-- The world after `n` turns. -/
def world (n : Nat) : World := (r.moment n).state

/-- A target after `n` turns. -/
def target (id n : Nat) : Target := (r.world n).target id

/-- A call is at a place. -/
def Stands (n i : Nat) (p : Place) : Prop := ∃ call, (r.moment n).calls[i]? = some (call, p)

/-- In this turn a transition of the target is applied. -/
def Transits (id n : Nat) : Prop := (r.target id n).Transition (r.target id (n + 1))

/-- In this turn the launch of the target is refused, and it ends. -/
def Refuses (id n : Nat) : Prop := (r.target id n).Refusal (r.target id (n + 1))

/-- In this turn an event is applied by which threads of a target stop. -/
structure Stops (n i target : Nat) (threads : List Int) : Prop where
  turn : r.schedule n = .step i
  hears : ∃ s e applies, r.Stands n i (.hearing s e applies) ∧
    ((r.world n).applyDebugEvent s e).1 = some (target, .stopped threads)

/-- In this turn the frames of a thread among those that stopped are put off, for the version of that time. -/
structure PutsOff (n i target : Nat) (threads : List Int) (job : Deferred.Job Prefetch) : Prop where
  turn : r.schedule n = .step i
  stands : r.Stands n i (.stopped target threads)
  added : job ∈ (r.world (n + 1)).debugger.pool.queue
  version : job.version = (r.target target n).stamp
  target : job.work.target = target
  thread : job.work.thread ∈ threads

/-- In this turn a worker takes the job. -/
structure Takes (n i : Nat) (job : Deferred.Job Prefetch) : Prop where
  turn : r.schedule n = .step i
  stands : r.Stands n i (.ahead .taking)
  taken : (take (r.world n)).1 = some job

/-- In this turn the delay is over, and the worker finds that the version is still the one that the job was put off for. -/
structure Checks (n i : Nat) (job : Deferred.Job Prefetch) : Prop where
  turn : r.schedule n = .step i
  stands : r.Stands n i (.ahead (.checking job))
  current : (r.target job.work.target n).stamp = job.version

/-- In this turn the worker hands the request for the frames over. -/
structure Asks (n i : Nat) (job : Deferred.Job Prefetch) : Prop where
  turn : r.schedule n = .step i
  stands : ∃ k proper, r.Stands n i (.ahead (.fetching job k proper))
  leaves : ∃ c number, ((r.world (n + 1)).channel c).outgoing = ((r.world n).channel c).outgoing
    ++ [((r.world n).channel c).dialect.request number "stackTrace"
      (StackTraceArguments.toJson { threadId := job.work.thread, startFrame := some 0 })]

end Run

/-- Frames are fetched ahead for a thread that stopped. -/
structure Prefetching where
  /-- The call that took up the event. -/
  event : Nat
  threads : List Int
  job : Deferred.Job Prefetch
  worker : Nat
  /-- When the stop was applied. -/
  stopped : Nat
  putOff : Nat
  taken : Nat
  /-- When the delay was over. -/
  checked : Nat
  asked : Nat

namespace Prefetching

variable (x : Prefetching) (r : Run)

/-- All this took place in the run. -/
structure Took : Prop where
  stops : r.Stops x.stopped x.event x.job.work.target x.threads
  stopped_lt : x.stopped < x.putOff
  putsOff : r.PutsOff x.putOff x.event x.job.work.target x.threads x.job
  putOff_lt : x.putOff < x.taken
  takes : r.Takes x.taken x.worker x.job
  taken_lt : x.taken < x.checked
  checks : r.Checks x.checked x.worker x.job
  checked_lt : x.checked < x.asked
  asks : r.Asks x.asked x.worker x.job

/-- At a time no transition was applied since the stop, and the target has not ended. -/
structure TimelyAt (n : Nat) : Prop where
  calm : ∀ t, x.stopped < t → t < n → ¬ r.Transits x.job.work.target t
  live : (r.target x.job.work.target n).isTerminated = false

/-- Up to a time nothing happened that the check of the version cannot see: no transition before the version was looked up or
after it was checked, no refusal of the launch, and not so many transitions that versions come round. -/
structure UndisturbedUntil (n : Nat) : Prop where
  before : ∀ t, x.stopped < t → t < x.putOff → ¬ r.Transits x.job.work.target t
  after : ∀ t, x.checked < t → t < n → ¬ r.Transits x.job.work.target t
  launched : ∀ t, x.stopped < t → t < n → ¬ r.Refuses x.job.work.target t
  few : {t | x.putOff < t ∧ t < x.checked ∧ r.Transits x.job.work.target t}.ncard < 2 ^ 64

end Prefetching

/-! ## What single steps do -/

/-- A step of a fetch lets targets drift, and puts nothing off. -/
lemma drifts_fetch {id : Nat} {thread : Int} {w w' : World} (h : Target.Fetch.Does id thread w w') : w.Drifts w' := by
  cases h with
  | looks => exact w.drifts_refl
  | asks channel k k' net steps => exact World.drifts_of_eq rfl rfl rfl
  | keeps stop frames =>
    have htouches : Target.Touches id [] w (w.changeTarget id (Target.Course.Deed.keepsFrames thread stop frames).apply) :=
      .deed _ fun h => by cases h
    exact World.drifts_touches htouches

/-- A step of a fetch sends nothing, or it sends the request for the frames. -/
lemma outgoing_fetch {id : Nat} {thread : Int} {w w' : World} (h : Target.Fetch.Does id thread w w') :
    (∀ c, (w'.channel c).outgoing = (w.channel c).outgoing) ∨ ∃ c number, (w'.channel c).outgoing
      = (w.channel c).outgoing ++ [(w.channel c).dialect.request number "stackTrace"
        (StackTraceArguments.toJson { threadId := thread, startFrame := some 0 })] := by
  cases h with
  | looks | keeps stop frames => exact .inl fun _ => rfl
  | asks channel k k' net steps =>
    obtain ⟨f, rfl, -, -, hout⟩ := Network.Request.next_changes steps
    by_cases hc : channel < w.net.channels.length
    · have hchannel : (w.net.update channel f).channel channel = f (w.net.channel channel) := Network.channel_update hc f
      rcases hout with ⟨hsame, -⟩ | ⟨number, ticket, -, hout⟩
      · left
        intro d
        rcases Network.channel_update_cases w.net channel f d with hd | ⟨rfl, hd⟩
        · exact congrArg Channel.outgoing hd
        · exact (congrArg Channel.outgoing hd).trans hsame
      · exact .inr ⟨channel, number, (congrArg Channel.outgoing hchannel).trans hout⟩
    · -- there is no such channel, so nothing changes
      left
      intro d
      have hnone : w.net.update channel f = w.net := by
        rw [Network.update, List.modify_eq_self (Nat.not_lt.mp hc)]
      exact congrArg (fun n : Network => (n.channel d).outgoing) hnone

/-- What a step of a worker does to targets, to what was put off and to what adapters are sent. -/
structure Progress.Steps (a a' : Progress) (w w' : World) : Prop where
  drift : w.debugger.Numbered → w.Drift w'
  queue : ∀ job ∈ w'.debugger.pool.queue, job ∈ w.debugger.pool.queue
  sends : (∀ c, (w'.channel c).outgoing = (w.channel c).outgoing) ∨
    ∃ job k proper c number, a = .fetching job k proper ∧ (w'.channel c).outgoing = (w.channel c).outgoing
      ++ [(w.channel c).dialect.request number "stackTrace"
        (StackTraceArguments.toJson { threadId := job.work.thread, startFrame := some 0 })]

namespace Progress.Steps

variable {a a' : Progress} {w : World}

/-- A step after which the world is the same. -/
lemma still : Steps a a' w w :=
  ⟨fun h => .of_eq h rfl rfl, fun _ => id, .inl fun _ => rfl⟩

/-- A step that changes the pool only. -/
lemma of_pool {pool : Deferred.Pool Prefetch} (hqueue : ∀ job ∈ pool.queue, job ∈ w.debugger.pool.queue) :
    Steps a a' w { w with debugger := { w.debugger with pool } } :=
  ⟨fun h => .of_eq h rfl rfl, hqueue, .inl fun _ => rfl⟩

end Progress.Steps

lemma queue_of_take? {p p' : Deferred.Pool Prefetch} {job : Deferred.Job Prefetch} (h : p.take? = some (job, p')) :
    p.queue = job :: p'.queue := by
  unfold Deferred.Pool.take? at h
  split at h
  · next first rest hqueue =>
    split at h
    · obtain ⟨rfl, rfl⟩ := Prod.mk.inj (Option.some.inj h)
      exact hqueue
    · cases h
  · cases h

/-- Whatever a worker does. -/
theorem Progress.steps {a a' : Progress} {w w' : World} (h : a.next w = some (a', w')) : Steps a a' w w' := by
  cases a with
  | taking =>
    obtain ⟨-, rfl⟩ := Prod.mk.inj (Option.some.inj h)
    unfold take
    split
    · next job pool htake =>
      refine .of_pool fun x hx => ?_
      rw [queue_of_take? htake]
      exact List.mem_cons_of_mem job hx
    · exact .still
  | timing job | checking job =>
    obtain ⟨-, rfl⟩ := Prod.mk.inj (Option.some.inj h)
    exact .still
  | delaying job due =>
    simp only [next] at h
    split at h
    · obtain ⟨-, rfl⟩ := Prod.mk.inj (Option.some.inj h)
      exact .still
    · cases h
  | fetching job k proper =>
    by_cases hk : ∃ result, k = .ended result
    · obtain ⟨result, rfl⟩ := hk
      obtain ⟨-, rfl⟩ := Prod.mk.inj (Option.some.inj h)
      exact .of_pool fun _ => id
    · rw [next_fetching proper fun result hresult => hk ⟨result, hresult⟩] at h
      obtain ⟨⟨k', v⟩, hv, hnext, heq⟩ := Option.pmap_eq_some_iff.mp h
      obtain ⟨-, rfl⟩ := Prod.mk.inj heq
      have hdoes := Target.Fetch.does_next hnext
      have hdrifts := drifts_fetch hdoes
      refine ⟨hdrifts.drift, fun x hx => hdrifts.pool ▸ hx, ?_⟩
      rcases outgoing_fetch hdoes with hquiet | ⟨c, number, hleaves⟩
      · exact .inl hquiet
      · exact .inr ⟨job, k, proper, c, number, rfl, hleaves⟩
  | releasing =>
    obtain ⟨-, rfl⟩ := Prod.mk.inj (Option.some.inj h)
    exact .of_pool fun _ => id
  | finished => cases h

/-! ## What each turn does -/

/-- What is known of a call that is at a place: what is left of a request puts nothing off, threads of which frames are put
off have stopped, and a worker has taken the job that it is doing, and has checked it when it fetches. -/
def Past (r : Run) (n i : Nat) : Place → Prop
  | .rest work => work.Within World.Drifts
  | .hearing _ _ _ => True
  | .stopped target threads => ∃ m < n, r.Stops m i target threads
  | .ahead (.timing job) | .ahead (.delaying job _) | .ahead (.checking job) => ∃ m < n, r.Takes m i job
  | .ahead (.fetching job _ _) => ∃ m m', m < m' ∧ m' < n ∧ r.Takes m i job ∧ r.Checks m' i job
  | .ahead _ => True

section Turns

variable {r : Run} {n i : Nat}

lemma Past.later {p : Place} (h : Past r n i p) : Past r (n + 1) i p := by
  cases p with
  | rest work => exact h
  | hearing s e applies => trivial
  | stopped target threads =>
    obtain ⟨m, hm, hstops⟩ := h
    exact ⟨m, Nat.lt_succ_of_lt hm, hstops⟩
  | ahead a =>
    cases a with
    | timing job | delaying job due | checking job =>
      obtain ⟨m, hm, htakes⟩ := h
      exact ⟨m, Nat.lt_succ_of_lt hm, htakes⟩
    | fetching job k proper =>
      obtain ⟨m, m', hmm, hm, hpast⟩ := h
      exact ⟨m, m', hmm, Nat.lt_succ_of_lt hm, hpast⟩
    | taking | releasing | finished => trivial

lemma past_first (call : Call) : Past r n i (Place.first call) := by
  cases call with
  | worker => trivial
  | request q unhurried =>
    by_cases hevent : ∃ s e, q = .event s e
    · obtain ⟨s, e, rfl⟩ := hevent
      show Past r n i (if h : e.name = "initialized" then .rest (Running.configure s) else .hearing s e h)
      split
      · exact Bustle.allowed_drifts.configure s
      · trivial
    · have hwithin : q.work.Within World.Drifts :=
        Bustle.Request.within_drifts fun s e hq => hevent ⟨s, e, hq⟩
      cases q with
      | event s e => exact absurd ⟨s, e, rfl⟩ hevent
      | _ => exact hwithin

/-- What is known before a step is known after it, together with what the step itself does. -/
lemma Past.next {call : Call} {p p' : Place} {w' : World} (h : Past r n i p) (turn : r.schedule n = .step i)
    (here : (r.moment n).calls[i]? = some (call, p)) (hnext : p.next (r.world n) = some (p', w')) :
    Past r (n + 1) i p' := by
  cases p with
  | rest work =>
    obtain ⟨⟨work', v⟩, htick, heq⟩ := Option.map_eq_some_iff.mp hnext
    obtain ⟨rfl, -⟩ := Prod.mk.inj heq
    exact (Task.Within.tick h htick).2
  | hearing s e applies =>
    -- the event is applied now; if threads stop this is the stop that is looked for later
    obtain ⟨rfl, -⟩ := Prod.mk.inj (Option.some.inj hnext)
    unfold Place.ofEffect
    split
    · next target threads heffect => exact ⟨n, Nat.lt_succ_self n, turn, s, e, applies, ⟨call, here⟩, heffect⟩
    · exact Bustle.allowed_drifts.retire s
    · trivial
  | stopped target threads =>
    obtain ⟨rfl, -⟩ := Prod.mk.inj (Option.some.inj hnext)
    trivial
  | ahead a =>
    obtain ⟨⟨a', v⟩, hstep, heq⟩ := Option.map_eq_some_iff.mp hnext
    obtain ⟨rfl, -⟩ := Prod.mk.inj heq
    cases a with
    | taking =>
      obtain ⟨rfl, -⟩ := Prod.mk.inj (Option.some.inj hstep)
      cases htaken : (take (r.world n)).1 with
      | none => trivial
      | some job => exact ⟨n, Nat.lt_succ_self n, turn, ⟨call, here⟩, htaken⟩
    | timing job =>
      obtain ⟨rfl, -⟩ := Prod.mk.inj (Option.some.inj hstep)
      exact Past.later (p := .ahead (.timing job)) h
    | delaying job due =>
      simp only [Progress.next] at hstep
      split at hstep
      · obtain ⟨rfl, -⟩ := Prod.mk.inj (Option.some.inj hstep)
        exact Past.later (p := .ahead (.checking job)) h
      · cases hstep
    | checking job =>
      obtain ⟨rfl, -⟩ := Prod.mk.inj (Option.some.inj hstep)
      split
      · next hcurrent =>
        obtain ⟨m, hm, htakes⟩ := h
        exact ⟨m, n, hm, Nat.lt_succ_self n, htakes, turn, ⟨call, here⟩, hcurrent⟩
      · trivial
    | fetching job k proper =>
      by_cases hk : ∃ result, k = .ended result
      · obtain ⟨result, rfl⟩ := hk
        obtain ⟨rfl, -⟩ := Prod.mk.inj (Option.some.inj hstep)
        trivial
      · rw [Progress.next_fetching proper fun result hresult => hk ⟨result, hresult⟩] at hstep
        obtain ⟨⟨k', v⟩, hv, -, heq⟩ := Option.pmap_eq_some_iff.mp hstep
        obtain ⟨rfl, -⟩ := Prod.mk.inj heq
        exact Past.later (p := .ahead (.fetching job k proper)) h
    | releasing =>
      obtain ⟨rfl, -⟩ := Prod.mk.inj (Option.some.inj hstep)
      trivial
    | finished => cases hstep

/-- At all times this is known of every call. -/
theorem past (r : Run) {n i : Nat} {call : Call} {p : Place} (here : (r.moment n).calls[i]? = some (call, p)) :
    Past r n i p := by
  induction n generalizing p with
  | zero => cases here
  | succ n ih =>
    rcases rush.place_succ_cases here with hstay | ⟨rfl, -⟩ | ⟨before, turn, there, hnext⟩
    · exact (ih hstay).later
    · exact past_first call
    · exact (ih there).next turn there hnext

/-- A worker stays one. -/
lemma exists_ahead {p : Place} (here : (r.moment n).calls[i]? = some (.worker, p)) : ∃ a, p = .ahead a := by
  have hworker := rush.of_place (Q := fun call p => call = .worker → ∃ a, p = .ahead a) ?_ ?_ here
  · exact hworker rfl
  · rintro call rfl
    exact ⟨.taking, rfl⟩
  · intro call p w p' w' h hnext hcall
    obtain ⟨a, rfl⟩ := h hcall
    obtain ⟨y, -, hy⟩ := Option.map_eq_some_iff.mp hnext
    exact ⟨y.1, (congrArg Prod.fst hy).symm⟩

/-- Jobs that are put off for threads, one for each. -/
lemma mem_queue_schedulePrefetch {w : World} {target : Nat} {threads : List Int} {job : Deferred.Job Prefetch}
    (h : job ∈ (w.schedulePrefetch target threads).debugger.pool.queue) :
    job ∈ w.debugger.pool.queue ∨
      job.version = (w.target target).stamp ∧ job.work.target = target ∧ job.work.thread ∈ threads := by
  have hadded : ∀ (l : List Int) (p : Deferred.Pool Prefetch),
      job ∈ (l.foldl (fun p thread => p.add (some w.debugger.settings.rpc.prefetchDelayMs)
        (w.debugger.target target).stamp ⟨target, thread⟩) p).queue →
      job ∈ p.queue ∨ job.version = (w.target target).stamp ∧ job.work.target = target ∧ job.work.thread ∈ l := by
    intro l
    induction l with
    | nil => exact fun p h => .inl h
    | cons thread rest ih =>
      intro p h
      rcases ih _ h with hold | ⟨hversion, htarget, hthread⟩
      · rcases List.mem_append.mp hold with hold | hnew
        · exact .inl hold
        · obtain rfl := List.mem_singleton.mp hnew
          exact .inr ⟨rfl, rfl, List.mem_cons_self ..⟩
      · exact .inr ⟨hversion, htarget, List.mem_cons_of_mem _ hthread⟩
  exact hadded threads _ h

/-- What one turn does to targets and to what was put off. -/
theorem turn_cases (r : Run) (n : Nat) :
    ((r.world n).debugger.Numbered → (r.world n).Drift (r.world (n + 1))) ∧
      ∀ job ∈ (r.world (n + 1)).debugger.pool.queue, job ∈ (r.world n).debugger.pool.queue ∨
        ∃ i target threads, r.PutsOff n i target threads job := by
  have hturn := rush.happens_play r.start r.schedule n
  show (_ → (r.world n).Drift (rush.play r.start r.schedule (n + 1)).state) ∧
    ∀ job ∈ (rush.play r.start r.schedule (n + 1)).state.debugger.pool.queue, _
  have hadded : ∀ job, job ∈ (rush.play r.start r.schedule (n + 1)).state.debugger.pool.queue →
      job ∈ (r.world (n + 1)).debugger.pool.queue := fun _ => id
  generalize rush.play r.start r.schedule (n + 1) = later at hturn hadded ⊢
  -- only the putting off itself adds to the queue, and workers take from it
  cases hturn with
  | still | begins call begun => exact ⟨fun h => .of_eq h rfl rfl, fun job hjob => .inl hjob⟩
  | around e other => exact ⟨fun h => .of_eq h rfl rfl, fun job hjob => .inl hjob⟩
  | moves i call p p' w' turn here hnext =>
    have hpast := past r here
    cases p with
    | rest work =>
      obtain ⟨⟨work', v⟩, htick, heq⟩ := Option.map_eq_some_iff.mp hnext
      obtain ⟨-, rfl⟩ := Prod.mk.inj heq
      rcases (Task.Within.tick hpast htick).1 with hdrifts | rfl
      · exact ⟨hdrifts.drift, fun job hjob => .inl (hdrifts.pool ▸ hjob)⟩
      · exact ⟨fun h => .of_eq h rfl rfl, fun job hjob => .inl hjob⟩
    | hearing s e applies =>
      obtain ⟨-, rfl⟩ := Prod.mk.inj (Option.some.inj hnext)
      have hdrifts := World.drifts_applyDebugEvent (r.world n) s e
      exact ⟨hdrifts.drift, fun job hjob => .inl (hdrifts.pool ▸ hjob)⟩
    | stopped target threads =>
      obtain ⟨-, rfl⟩ := Prod.mk.inj (Option.some.inj hnext)
      refine ⟨fun h => .of_eq h rfl rfl, fun job hjob => ?_⟩
      rcases mem_queue_schedulePrefetch hjob with hold | ⟨hversion, htarget, hthread⟩
      · exact .inl hold
      · exact .inr ⟨i, target, threads, turn, ⟨call, here⟩, hadded job hjob, hversion, htarget, hthread⟩
    | ahead a =>
      obtain ⟨⟨a', v⟩, hstep, heq⟩ := Option.map_eq_some_iff.mp hnext
      obtain ⟨-, rfl⟩ := Prod.mk.inj heq
      have hsteps := Progress.steps hstep
      exact ⟨hsteps.drift, fun job hjob => .inl (hsteps.queue job hjob)⟩

end Turns

/-! ## How a worker came by its job -/

section Origin

variable {r : Run}

/-- Whatever was put off was put off in some turn. -/
lemma exists_putsOff (hempty : r.start.debugger.pool.queue = []) {n : Nat} {job : Deferred.Job Prefetch}
    (h : job ∈ (r.world n).debugger.pool.queue) : ∃ m < n, ∃ i target threads, r.PutsOff m i target threads job := by
  induction n with
  | zero =>
    have hstart : job ∈ r.start.debugger.pool.queue := h
    rw [hempty] at hstart
    exact absurd hstart List.not_mem_nil
  | succ n ih =>
    rcases (turn_cases r n).2 job h with hold | hnew
    · obtain ⟨m, hm, hputsOff⟩ := ih hold
      exact ⟨m, Nat.lt_succ_of_lt hm, hputsOff⟩
    · exact ⟨n, Nat.lt_succ_self n, hnew⟩

lemma Run.Takes.mem_queue {n i : Nat} {job : Deferred.Job Prefetch} (h : r.Takes n i job) :
    job ∈ (r.world n).debugger.pool.queue := by
  have htaken := h.taken
  unfold take at htaken
  split at htaken
  · next job' pool htake =>
    obtain rfl := Option.some.inj htaken
    rw [queue_of_take? htake]
    exact List.mem_cons_self ..
  · cases htaken

/-- A worker that sends anything asks for the frames of a thread that stopped, and came by its job in this way. -/
theorem exists_took (hempty : r.start.debugger.pool.queue = []) {n i : Nat} {p : Place}
    (here : (r.moment n).calls[i]? = some (.worker, p)) (turn : r.schedule n = .step i) {c : ChannelId}
    (speaks : ((r.world (n + 1)).channel c).outgoing ≠ ((r.world n).channel c).outgoing) :
    ∃ x : Prefetching, x.Took r ∧ x.worker = i ∧ x.asked = n := by
  obtain ⟨a, rfl⟩ := exists_ahead here
  have hturn := rush.happens_play r.start r.schedule n
  have hworld : (rush.play r.start r.schedule (n + 1)).state = r.world (n + 1) := rfl
  generalize rush.play r.start r.schedule (n + 1) = later at hturn hworld
  cases hturn with
  | still => exact absurd (congrArg (fun w => (w.channel c).outgoing) hworld.symm) speaks
  | begins call begun => cases turn.symm.trans begun
  | around e other => cases turn.symm.trans other
  | moves j call p p' w' mine there hnext =>
    obtain rfl := Ensemble.Turn.step.inj (turn.symm.trans mine)
    obtain ⟨rfl, rfl⟩ := Prod.mk.inj (Option.some.inj (there.symm.trans here))
    obtain ⟨⟨a', v⟩, hstep, heq⟩ := Option.map_eq_some_iff.mp hnext
    obtain ⟨-, rfl⟩ := Prod.mk.inj heq
    obtain rfl : v = r.world (n + 1) := hworld
    rcases (Progress.steps hstep).sends with hquiet | ⟨job, k, proper, d, number, rfl, hleaves⟩
    · exact absurd (hquiet c) speaks
    · -- the job was checked and before that taken, it was put off, and its thread had stopped
      obtain ⟨taken, checked, htaken, hchecked, htakes, hchecks⟩ := past r here
      obtain ⟨putOff, hputOff, event, target, threads, hputs⟩ := exists_putsOff hempty htakes.mem_queue
      obtain ⟨call, hstands⟩ := hputs.stands
      obtain ⟨stopped, hstopped, hstops⟩ := past r hstands
      obtain rfl := hputs.target
      exact ⟨⟨event, threads, job, i, stopped, putOff, taken, checked, n⟩,
        ⟨hstops, hstopped, hputs, hputOff, htakes, htaken, hchecks, hchecked, turn, ⟨k, proper, .worker, here⟩,
          d, number, hleaves⟩, rfl, rfl⟩

end Origin

/-! ## Versions and transitions -/

section Versions

variable {r : Run} {id : Nat}

lemma numbered (hstart : r.start.debugger.Numbered) (n : Nat) : (r.world n).debugger.Numbered := by
  induction n with
  | zero => exact hstart
  | succ n ih => exact ((turn_cases r n).1 ih).numbered

/-- A target does not go. -/
lemma present_of_le (hstart : r.start.debugger.Numbered) {m n : Nat} (hmn : m ≤ n)
    (hid : ((r.world m).debugger.target? id).isSome = true) : ((r.world n).debugger.target? id).isSome = true := by
  induction n, hmn using Nat.le_induction with
  | base => exact hid
  | succ n _ ih => exact ((turn_cases r n).1 (numbered hstart n)).target?_isSome ih

/-- What a turn makes of a target. -/
lemma passes (hstart : r.start.debugger.Numbered) {m n : Nat} (hmn : m ≤ n)
    (hid : ((r.world m).debugger.target? id).isSome = true) : (r.target id n).Passes (r.target id (n + 1)) :=
  ((turn_cases r n).1 (numbered hstart n)).passes (numbered hstart n) (present_of_le hstart hmn hid)

section Present

variable (hstart : r.start.debugger.Numbered) {m : Nat} (hid : ((r.world m).debugger.target? id).isSome = true)

include hstart hid

/-- A target that has ended stays so. -/
lemma ended_of_le {k n : Nat} (hmk : m ≤ k) (hkn : k ≤ n) (hk : (r.target id k).isTerminated = true) :
    (r.target id n).isTerminated = true := by
  induction n, hkn using Nat.le_induction with
  | base => exact hk
  | succ n hkn ih => exact (passes hstart (hmk.trans hkn) hid).ended ih

/-- Without a transition and a refusal a target does not end. -/
lemma live_of_calm {n : Nat} (hmn : m ≤ n) (hm : (r.target id m).isTerminated = false)
    (hcalm : ∀ t, m ≤ t → t < n → ¬ r.Transits id t) (hlaunched : ∀ t, m ≤ t → t < n → ¬ r.Refuses id t) :
    (r.target id n).isTerminated = false := by
  induction n, hmn using Nat.le_induction with
  | base => exact hm
  | succ n hmn ih =>
    have hlive := ih (fun t ht htn => hcalm t ht (Nat.lt_succ_of_lt htn)) fun t ht htn =>
      hlaunched t ht (Nat.lt_succ_of_lt htn)
    by_contra hended
    rcases (passes hstart hmn hid).ends hlive (Bool.eq_true_of_not_eq_false hended) with htransits | hrefuses
    · exact hcalm n hmn (Nat.lt_succ_self n) htransits
    · exact hlaunched n hmn (Nat.lt_succ_self n) hrefuses

/-- The version counts transitions: without any it stays as it is, and else it wraps. -/
lemma stamp_cases {n : Nat} (hmn : m ≤ n) :
    {t | m ≤ t ∧ t < n ∧ r.Transits id t}.ncard = 0 ∧ (r.target id n).stamp = (r.target id m).stamp ∨
      0 < {t | m ≤ t ∧ t < n ∧ r.Transits id t}.ncard ∧ (r.target id n).stamp
        = ((r.target id m).stamp + {t | m ≤ t ∧ t < n ∧ r.Transits id t}.ncard) % 2 ^ 64 := by
  -- a turn with a transition adds one to the set and one to the version, any other turn leaves both as they are
  induction n, hmn using Nat.le_induction with
  | base =>
    left
    refine ⟨?_, rfl⟩
    rw [Set.ncard_eq_zero (Set.Finite.subset (Set.finite_Iio m) fun t ht => ht.2.1)]
    exact Set.eq_empty_of_forall_notMem fun t ht => absurd ht.2.1 (Nat.not_lt.mpr ht.1)
  | succ n hmn ih =>
    have hpasses := passes hstart hmn hid
    by_cases htransits : r.Transits id n
    · have hset : {t | m ≤ t ∧ t < n + 1 ∧ r.Transits id t}
          = insert n {t | m ≤ t ∧ t < n ∧ r.Transits id t} := by
        ext t
        simp only [Set.mem_ofPred_eq, Set.mem_insert_iff]
        grind
      have hcard : {t | m ≤ t ∧ t < n + 1 ∧ r.Transits id t}.ncard
          = {t | m ≤ t ∧ t < n ∧ r.Transits id t}.ncard + 1 := by
        rw [hset]
        exact Set.ncard_insert_of_notMem (fun h => absurd h.2.1 (Nat.lt_irrefl n))
          (Set.Finite.subset (Set.finite_Iio n) fun t ht => ht.2.1)
      have hstamp : (r.target id (n + 1)).stamp = ((r.target id n).stamp + 1) % 2 ^ 64 := htransits.stamp
      right
      rw [hcard, hstamp]
      omega
    · have hset : {t | m ≤ t ∧ t < n + 1 ∧ r.Transits id t} = {t | m ≤ t ∧ t < n ∧ r.Transits id t} := by
        ext t
        simp only [Set.mem_ofPred_eq]
        grind
      rw [hset, hpasses.stamp_eq htransits]
      exact ih

end Present

lemma raised_ne (version : Nat) : Deferred.raised version ≠ version := by
  unfold Deferred.raised
  omega

/-- There is no transition where the target stays as it is. -/
lemma not_transits_of_eq {n : Nat} (h : r.target id (n + 1) = r.target id n) : ¬ r.Transits id n := by
  intro htransits
  have hstamp := htransits.stamp
  rw [h] at hstamp
  exact raised_ne _ hstamp.symm

/-- What the world is after the step of a call. -/
lemma world_succ {n i : Nat} {p p' : Place} {w' : World} (turn : r.schedule n = .step i) (stands : r.Stands n i p)
    (hnext : p.next (r.world n) = some (p', w')) : r.world (n + 1) = w' := by
  obtain ⟨call, here⟩ := stands
  exact congrArg Ensemble.Moment.state (rush.play_succ_of_step turn here hnext)

lemma Run.PutsOff.not_transits {n i target : Nat} {threads : List Int} {job : Deferred.Job Prefetch}
    (h : r.PutsOff n i target threads job) : ¬ r.Transits id n := by
  refine not_transits_of_eq ?_
  rw [Run.target, world_succ h.turn h.stands rfl]
  rfl

lemma Run.Checks.not_transits {n i : Nat} {job : Deferred.Job Prefetch} (h : r.Checks n i job) : ¬ r.Transits id n := by
  refine not_transits_of_eq ?_
  rw [Run.target, world_succ h.turn h.stands rfl]
  rfl

/-- What an event does by which threads stop. -/
lemma process_stopped {t : Target} {name : String} {body : Json} {threads : List Int}
    (h : (t.process_ name body).2.2 = .stopped threads) : ∃ b, (t.process_ name body).1 = (t.applyStop b).1 := by
  -- the other events that have a body leave nothing to do
  have hbody : ∀ {α : Type} (shape : Json.Shape α) (f : α → Target × List Note),
      (t.withBody shape body f).2.2 = .none := by
    intro α shape f
    unfold Target.withBody
    split <;> rfl
  unfold Target.process_ at h ⊢
  split at h
  · rw [hbody] at h
    cases h
  · rw [hbody] at h
    cases h
  · split at h
    · next b _ => exact ⟨b, rfl⟩
    · cases h
  · rw [hbody] at h
    cases h
  · rw [hbody] at h
    cases h
  · cases h
  · rw [hbody] at h
    cases h
  · cases h

/-- Where threads stop the target is there, and it has not ended. -/
lemma Run.Stops.live (hstart : r.start.debugger.Numbered) {n i target : Nat} {threads : List Int}
    (h : r.Stops n i target threads) : ((r.world n).debugger.target? target).isSome = true ∧
      (r.target target (n + 1)).isTerminated = false := by
  obtain ⟨s, e, applies, stands, heffect⟩ := h.hears
  have hworld := world_succ h.turn stands rfl
  have hnum := numbered hstart n
  cases hlive : (r.world n).debugger.liveTarget? s with
  | none =>
    rw [World.applyDebugEvent, hlive] at heffect
    cases heffect
  | some t =>
    obtain ⟨hmem, -, ht⟩ := Debugger.of_liveTarget?_eq_some hlive
    have htarget : (r.world n).target t.id = t := hnum.target_eq hmem
    have hid := Target.onward_heard t e.name e.body
    have hstopped : (t.process_ e.name e.body).1.id = target ∧ (t.process_ e.name e.body).2.2 = .stopped threads := by
      rw [World.applyDebugEvent, hlive] at heffect
      exact Prod.mk.inj (Option.some.inj heffect)
    obtain ⟨b, hb⟩ := process_stopped hstopped.2
    obtain rfl : t.id = target := hid.id.symm.trans hstopped.1
    have hpresent : ((r.world n).debugger.target? t.id).isSome = true :=
      List.find?_isSome.mpr ⟨t, hmem, by simp⟩
    refine ⟨hpresent, ?_⟩
    have hafter : r.target t.id (n + 1) = (t.applyStop b).1 := by
      rw [Run.target, hworld, Target.applyDebugEvent_eq hlive htarget]
      refine (Target.target_changeTarget hpresent ?_).trans ?_
      · rw [htarget]
        exact hid.id
      · rw [htarget]
        exact hb
    rw [hafter, Target.isTerminated_eq (Target.guarded_applyStop t b).state]
    exact ht

end Versions

/-! ## Requests that are out of date -/

namespace Prefetching.Took

variable {r : Run} {x : Prefetching}

/-- The version is the same at the check, so between the putting off and the check there was no transition at all, or there
were so many that the version came round. -/
lemma calm_between (hx : x.Took r) (hstart : r.start.debugger.Numbered)
    (hfew : {t | x.putOff < t ∧ t < x.checked ∧ r.Transits x.job.work.target t}.ncard < 2 ^ 64) :
    ∀ t, x.putOff < t → t < x.checked → ¬ r.Transits x.job.work.target t := by
  have hstopped := hx.stopped_lt
  have htaken : x.putOff + 1 ≤ x.checked := Nat.le_of_lt (Nat.lt_of_le_of_lt hx.putOff_lt hx.taken_lt)
  obtain ⟨hpresent, -⟩ := hx.stops.live hstart
  have hput : (r.target x.job.work.target (x.putOff + 1)).stamp = x.job.version := by
    rw [hx.putsOff.version]
    exact (passes hstart hstopped.le hpresent).stamp_eq hx.putsOff.not_transits
  have hcurrent : (r.target x.job.work.target x.checked).stamp = x.job.version := hx.checks.current
  rcases stamp_cases hstart (present_of_le hstart (by omega : x.stopped ≤ x.putOff + 1) hpresent) htaken with
    ⟨hzero, -⟩ | ⟨hsome, hstamp⟩
  · intro t ht htn htransits
    have hnone := (Set.ncard_eq_zero (Set.Finite.subset (Set.finite_Iio x.checked) fun t ht => ht.2.1)).mp hzero
    exact Set.notMem_empty t (hnone ▸ ⟨ht, htn, htransits⟩)
  · rw [hput, hcurrent] at hstamp
    have hbound : {t | x.putOff + 1 ≤ t ∧ t < x.checked ∧ r.Transits x.job.work.target t}.ncard < 2 ^ 64 := hfew
    omega

/-- From the check on, the target is as it was when its thread stopped if and only if nothing happened that the check cannot
see. -/
lemma timelyAt_iff (hx : x.Took r) (hstart : r.start.debugger.Numbered) {n : Nat} (hn : x.checked ≤ n) :
    x.TimelyAt r n ↔ x.UndisturbedUntil r n := by
  obtain ⟨hpresent, hlive⟩ := hx.stops.live hstart
  have hlater := present_of_le hstart (Nat.le_succ _) hpresent
  have hstopped := hx.stopped_lt
  have hchecked : x.putOff < x.checked := hx.putOff_lt.trans hx.taken_lt
  constructor
  · intro h
    refine ⟨fun t ht htn => h.calm t ht (by omega), fun t ht htn => h.calm t (by omega) htn, ?_, ?_⟩
    · intro t ht htn hrefuses
      -- the target would have ended for good
      have hended : (r.target x.job.work.target (t + 1)).isTerminated = true := by
        rw [hrefuses.fails]
        rfl
      have hstays := ended_of_le hstart hlater (by omega) htn hended
      exact absurd (hstays.symm.trans h.live) (by decide)
    · have hnone : {t | x.putOff < t ∧ t < x.checked ∧ r.Transits x.job.work.target t} = ∅ := by
        refine Set.eq_empty_of_forall_notMem ?_
        rintro t ⟨ht, htn, htransits⟩
        exact h.calm t (by omega) (by omega) htransits
      rw [hnone, Set.ncard_empty]
      decide
  · intro h
    have hbetween := hx.calm_between hstart h.few
    have hcalm : ∀ t, x.stopped < t → t < n → ¬ r.Transits x.job.work.target t := by
      intro t ht htn
      rcases Nat.lt_trichotomy t x.putOff with hput | rfl | hput
      · exact h.before t ht hput
      · exact hx.putsOff.not_transits
      · rcases Nat.lt_trichotomy t x.checked with hcheck | rfl | hcheck
        · exact hbetween t hput hcheck
        · exact hx.checks.not_transits
        · exact h.after t hcheck htn
    exact ⟨hcalm, live_of_calm hstart hlater (by omega) hlive hcalm h.launched⟩

end Prefetching.Took

/-- Whatever a worker sends is the request for the frames of a thread that stopped, and it was put off, taken and checked
before. Both when the delay is over and when the request is sent it is true that no transition was applied since the stop and
that the target has not ended if and only if nothing happened that the check of the version cannot see. -/
theorem timely_iff (r : Run) (hstart : r.start.debugger.Numbered) (hempty : r.start.debugger.pool.queue = []) {n i : Nat}
    {p : Place} (here : (r.moment n).calls[i]? = some (.worker, p)) (turn : r.schedule n = .step i) {c : ChannelId}
    (speaks : ((r.world (n + 1)).channel c).outgoing ≠ ((r.world n).channel c).outgoing) :
    ∃ x : Prefetching, x.Took r ∧ x.worker = i ∧ x.asked = n ∧
      (x.TimelyAt r x.checked ↔ x.UndisturbedUntil r x.checked) ∧
      (x.TimelyAt r x.asked ↔ x.UndisturbedUntil r x.asked) := by
  obtain ⟨x, hx, hworker, hasked⟩ := exists_took hempty here turn speaks
  exact ⟨x, hx, hworker, hasked, hx.timelyAt_iff hstart (Nat.le_refl _), hx.timelyAt_iff hstart hx.checked_lt.le⟩

/-! ### A launch that is refused too late -/

/-- A session that is ready, and one launch configuration. -/
def readyToLaunch : World where
  net := { channels := [{ dialect := .sequenced, phase := .ready }] }
  debugger := {
    placesFrames := false, sessions := [default], current := [("", 0)]
    launches := { entries := [{ (default : Launch) with id := 1 }] } }

/-- A thread stops at a breakpoint. -/
def stoppedEvent : Channel.Event := ⟨"stopped", .obj [("reason", "breakpoint"), ("threadId", .int 1)]⟩

/-- The adapter refuses its first request. -/
def refuses (w : World) : World :=
  w.updateChannel 0 fun ch => { ch with pending := ch.pending.answer 1 (.error { message := "no main class" }) }

/-- A minute goes by. -/
def minuteLater (w : World) : World := { w with net := { w.net with now := w.net.now + 60000 } }

/-- While a target is launched its thread stops, then the launch is refused, and then a worker takes the job. -/
def refusing : List (Ensemble.Turn Call (World → World)) :=
  List.flatten [
    [.begins (.request (.command (.run 1)) (Call.unhurried_command _))], List.replicate 17 (.step 0),
    [.begins (.request (.event 0 stoppedEvent) (Call.unhurried_event 0 _))], List.replicate 2 (.step 1),
    [.around refuses], List.replicate 3 (.step 0),
    [.begins .worker], List.replicate 2 (.step 2), [.around minuteLater], List.replicate 9 (.step 2)]

/-- The run of these turns. -/
def refusedLate : Run where
  start := readyToLaunch
  schedule n := refusing.getD n (.around id)

/-- The target whose frames a worker fetches. -/
def fetched? : Call × Place → Option Nat
  | (.worker, .ahead (.fetching job _ _)) => some job.work.target
  | _ => none

/-- The frames of the thread are asked for although the target has ended. -/
theorem not_timelyAt_refusedLate :
    refusedLate.start.debugger.Numbered ∧ refusedLate.start.debugger.pool.queue = [] ∧
      (∃ p, (refusedLate.moment 37).calls[2]? = some (.worker, p)) ∧ refusedLate.schedule 37 = .step 2 ∧
      ((refusedLate.world 38).channel 0).outgoing ≠ ((refusedLate.world 37).channel 0).outgoing ∧
      ∃ x : Prefetching, x.Took refusedLate ∧ x.worker = 2 ∧ x.asked = 37 ∧ ¬ x.TimelyAt refusedLate 37 := by
  have hnumbered : refusedLate.start.debugger.Numbered := ⟨List.nodup_nil, List.forall_mem_nil _, by decide⟩
  have hfetched : (refusedLate.moment 37).calls[2]?.bind fetched? = some 1 := by decide +kernel
  have hempty : refusedLate.start.debugger.pool.queue = [] := rfl
  have hturn : refusedLate.schedule 37 = .step 2 := by simp [refusedLate, refusing]
  have hspeaks : ((refusedLate.world 37).channel 0).outgoing.length
      < ((refusedLate.world 38).channel 0).outgoing.length := by
    decide +kernel
  have hended : (refusedLate.target 1 37).isTerminated = true := by decide +kernel
  obtain ⟨⟨call, p⟩, here, hp⟩ := Option.bind_eq_some_iff.mp hfetched
  unfold fetched? at hp
  split at hp
  · next job k proper heq =>
    obtain ⟨rfl, rfl⟩ := Prod.mk.inj heq
    have hdiffers : ((refusedLate.world 38).channel 0).outgoing ≠ ((refusedLate.world 37).channel 0).outgoing := by
      intro h
      rw [h] at hspeaks
      exact Nat.lt_irrefl _ hspeaks
    obtain ⟨x, hx, hworker, hasked, -⟩ := timely_iff refusedLate hnumbered hempty (n := 37) (i := 2) here hturn hdiffers
    refine ⟨hnumbered, hempty, ⟨_, here⟩, hturn, hdiffers, x, hx, hworker, hasked, fun h => ?_⟩
    -- it is the job that the worker does at that time
    obtain ⟨k', proper', call', there⟩ := hx.asks.stands
    rw [hworker, hasked] at there
    have hplace := (Prod.mk.inj (Option.some.inj (there.symm.trans here))).2
    obtain ⟨hjob, -⟩ := Progress.fetching.inj (Place.ahead.inj hplace)
    have hlive := h.live
    rw [hjob, Option.some.inj hp] at hlive
    exact absurd (hlive.symm.trans hended) (by decide)
  · cases hp

end Switchboard.Debug.Ahead
