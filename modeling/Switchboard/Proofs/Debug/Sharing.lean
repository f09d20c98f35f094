import Switchboard.Proofs.Debug.Contents
import Switchboard.Proofs.Debug.Evaluating
import Switchboard.Proofs.Debug.Onlookers

/-!
# Calls that share the frames of a stop

* `Stay`: a thread in one stop of which no frames are known yet, with any number of calls;
* `Stay.Finds`, `Asks`, `Keeps`, `Sees`: a call finds no frames kept, asks for them, keeps them, and gets to know them;
* `Stay.Past`, `past`: how a fetch came to where it is;
* `Stay.Once`: frames are asked for once, all calls get the same ones, and contents of frames are not lost;
* `Stay.Overlaps`, `once_iff`: that is so if and only if no call looks for them while another one is fetching them.
-/

namespace Switchboard.Debug.Onlookers

open Target (Fetch.Stage)

/-! ## Runs -/

/-- A thread in one stop of which no frames are known yet, any number of calls, and anything that leaves it as it is. -/
structure Stay where
  id : Nat
  thread : Int
  stop : Nat
  start : World
  schedule : Nat → Ensemble.Turn Call (Elsewhere id thread)
  positive : 0 < id
  suspended : (start.target id).currentStop thread = .ok stop
  unknown : (start.target id).keptFrames? thread = none

namespace Stay

variable (r : Stay)

/-- The world and the calls after `n` turns. -/
def moment (n : Nat) : Ensemble.Moment World Call Place := (gathering r.id r.thread).play r.start r.schedule n

/-- The world after `n` turns. -/
def world (n : Nat) : World := (r.moment n).state

/-- The frames that are kept after `n` turns. -/
def kept? (n : Nat) : Option (List Stack.Frame) := ((r.world n).target r.id).keptFrames? r.thread

/-- What is kept in a frame after `n` turns. -/
def contents? (n index : Nat) : Option (List Stack.Variable) := ((r.kept? n).bind (·[index]?)).bind (·.contents)

/-- A call is at a stage of fetching the frames of the thread. -/
def Fetches (n i : Nat) (k : Fetch.Stage) : Prop :=
  ∃ call going rest, (r.moment n).calls[i]? = some (call, .fetch r.id r.thread k going rest)

/-- In this turn a call finds that no frames are kept. -/
structure Finds (n i : Nat) : Prop where
  turn : r.schedule n = .step i
  looks : ∃ stop, r.Fetches n i (.looking stop)
  nothing : r.kept? n = none

/-- In this turn a call hands the request for the frames over. -/
structure Asks (n i : Nat) : Prop where
  turn : r.schedule n = .step i
  posts : ∃ stop channel number ticket, r.Fetches n i (.requesting stop channel (.posting number ticket)) ∧
    (r.world n).net.updateWith channel (fun ch => ch.ask number (Target.Fetch.question r.thread).method
      (Target.Fetch.question r.thread).params) = (.ok (), (r.world (n + 1)).net)

/-- In this turn a call keeps the frames that the adapter gave it. -/
structure Keeps (n i : Nat) (frames : List Stack.Frame) : Prop where
  turn : r.schedule n = .step i
  stands : ∃ stop, r.Fetches n i (.keeping stop frames)

/-- In this turn a call gets to know the frames, as they are kept or as it keeps them. -/
inductive Sees (n i : Nat) (frames : List Stack.Frame) : Prop where
  | kept (turn : r.schedule n = .step i) (looks : ∃ stop, r.Fetches n i (.looking stop)) (kept : r.kept? n = some frames)
  | fetched (keeps : r.Keeps n i frames)

/-- The adapter answers: each call that finds nothing comes to keep what it asked for. -/
def Answered : Prop :=
  ∀ n i, r.Finds n i → ∃ m frames, n < m ∧ r.Keeps m i frames ∧ ∀ l, n < l → l < m → ¬ r.Finds l i

/-- A call looks for frames while those that another one did not find are still on their way. -/
def Overlaps : Prop :=
  ∃ m n i j stop, m < n ∧ r.Finds m i ∧ r.schedule n = .step j ∧ r.Fetches n j (.looking stop) ∧
    ∀ l, m < l → l < n → ∀ i' frames, ¬ r.Keeps l i' frames

/-- A call is fetching the frames of another thread. -/
def FetchesOther (n i : Nat) : Prop :=
  ∃ call id thread k going rest, (id, thread) ≠ (r.id, r.thread) ∧
    (r.moment n).calls[i]? = some (call, .fetch id thread k going rest)

/-- A frame without what was found in it. -/
def bare (f : Stack.Frame) : Stack.Frame := { f with scopes := none, contents := none }

/-- Frames are asked for at most once, all calls get to know the same ones, and what is in a frame is not lost. -/
structure Once : Prop where
  asked : ∀ m n i j, r.Asks m i → r.Asks n j → m = n
  same : ∀ m n i j frames frames', r.Sees m i frames → r.Sees n j frames' → frames.map bare = frames'.map bare
  stays : ∀ m n index, m ≤ n → r.contents? m index ≠ none → r.contents? n index ≠ none

/-! ## How a fetch came to where it is -/

/-- A call found nothing at a time, and neither looked again nor kept anything since. -/
structure Since (n i found : Nat) : Prop where
  finds : r.Finds found i
  lt : found < n
  alone : ∀ l, found < l → l < n → ¬ r.Finds l i ∧ ∀ frames, ¬ r.Keeps l i frames

/-- It has not asked yet. -/
structure Unasked (n i found : Nat) : Prop extends r.Since n i found where
  unasked : ∀ l, found < l → l < n → ¬ r.Asks l i

/-- It has asked in between. -/
structure Asked (n i found asked : Nat) : Prop extends r.Since n i found where
  asks : r.Asks asked i
  found_lt : found < asked
  asked_lt : asked < n

/-- What is known of a fetch at a stage. -/
def Past (n i : Nat) : Fetch.Stage → Prop
  | .checking | .ended _ => True
  | .looking stop => stop = r.stop
  | .asking stop => stop = r.stop ∧ ∃ found, r.Unasked n i found
  | .requesting stop _ k => stop = r.stop ∧
    match k with
    | .starting | .enrolling | .verifying _ _ | .posting _ _ => ∃ found, r.Unasked n i found
    | .timing _ _ | .waiting _ _ _ _ | .fetching _ _ _ => ∃ found asked, r.Asked n i found asked
    | .withdrawing _ _ _ | .ended _ => True
  | .placing stop _ => stop = r.stop ∧ ∃ found asked, r.Asked n i found asked
  | .keeping stop frames =>
    stop = r.stop ∧ (∀ f ∈ frames, f.contents = none) ∧ ∃ found asked, r.Asked n i found asked

section Proofs

variable {r : Stay} {n i : Nat} {k k' : Fetch.Stage}

lemma Fetches.unique (h : r.Fetches n i k) (h' : r.Fetches n i k') : k = k' := by
  obtain ⟨_, _, _, here⟩ := h
  obtain ⟨_, _, _, here'⟩ := h'
  have hplace := (Prod.mk.inj (Option.some.inj (here.symm.trans here'))).2
  injection hplace

/-- A call that does none of this in a turn goes on as before. -/
lemma Since.succ {found : Nat} (h : r.Since n i found) (hfinds : ¬ r.Finds n i)
    (hkeeps : ∀ frames, ¬ r.Keeps n i frames) : r.Since (n + 1) i found where
  finds := h.finds
  lt := Nat.lt_succ_of_lt h.lt
  alone l hl hln := by
    rcases Nat.lt_succ_iff_lt_or_eq.mp hln with hlt | rfl
    · exact h.alone l hl hlt
    · exact ⟨hfinds, hkeeps⟩

lemma Unasked.succ {found : Nat} (h : r.Unasked n i found) (hfinds : ¬ r.Finds n i)
    (hkeeps : ∀ frames, ¬ r.Keeps n i frames) (hasks : ¬ r.Asks n i) : r.Unasked (n + 1) i found where
  toSince := h.toSince.succ hfinds hkeeps
  unasked l hl hln := by
    rcases Nat.lt_succ_iff_lt_or_eq.mp hln with hlt | rfl
    · exact h.unasked l hl hlt
    · exact hasks

lemma Asked.succ {found asked : Nat} (h : r.Asked n i found asked) (hfinds : ¬ r.Finds n i)
    (hkeeps : ∀ frames, ¬ r.Keeps n i frames) : r.Asked (n + 1) i found asked where
  toSince := h.toSince.succ hfinds hkeeps
  asks := h.asks
  found_lt := h.found_lt
  asked_lt := Nat.lt_succ_of_lt h.asked_lt

/-- What is known stays true while a call does none of this. -/
lemma Past.quiet (h : r.Past n i k) (hfinds : ¬ r.Finds n i) (hkeeps : ∀ frames, ¬ r.Keeps n i frames)
    (hasks : ¬ r.Asks n i) : r.Past (n + 1) i k := by
  cases k with
  | checking | ended result => trivial
  | looking stop => exact h
  | asking stop =>
    obtain ⟨hstop, found, hunasked⟩ := h
    exact ⟨hstop, found, hunasked.succ hfinds hkeeps hasks⟩
  | requesting stop channel k =>
    refine ⟨h.1, ?_⟩
    cases k with
    | starting | enrolling | verifying number ticket | posting number ticket =>
      obtain ⟨-, found, hunasked⟩ := h
      exact ⟨found, hunasked.succ hfinds hkeeps hasks⟩
    | timing number ticket | waiting number ticket limit deadline | fetching number ticket limit =>
      obtain ⟨-, found, asked, hasked⟩ := h
      exact ⟨found, asked, hasked.succ hfinds hkeeps⟩
    | withdrawing number ticket fault | ended reply => trivial
  | placing stop body =>
    obtain ⟨hstop, found, asked, hasked⟩ := h
    exact ⟨hstop, found, asked, hasked.succ hfinds hkeeps⟩
  | keeping stop frames =>
    obtain ⟨hstop, hbare, found, asked, hasked⟩ := h
    exact ⟨hstop, hbare, found, asked, hasked.succ hfinds hkeeps⟩

lemma Fetches.not_finds (here : r.Fetches n i k) (hk : ∀ stop, k ≠ .looking stop) : ¬ r.Finds n i := by
  rintro ⟨-, ⟨stop, hlooks⟩, -⟩
  exact hk stop (here.unique hlooks)

lemma Fetches.not_keeps (here : r.Fetches n i k) (hk : ∀ stop frames, k ≠ .keeping stop frames)
    (frames : List Stack.Frame) : ¬ r.Keeps n i frames := by
  rintro ⟨-, stop, hstands⟩
  exact hk stop frames (here.unique hstands)

lemma Fetches.not_asks (here : r.Fetches n i k)
    (hk : ∀ stop channel number ticket, k ≠ .requesting stop channel (.posting number ticket)) : ¬ r.Asks n i := by
  rintro ⟨-, stop, channel, number, ticket, hposts, -⟩
  exact hk stop channel number ticket (here.unique hposts)

/-- A call that cannot go on only waits for an answer. -/
lemma Past.stuck (h : r.Past n i k) (here : r.Fetches n i k)
    (hstuck : r.schedule n = .step i → k.next r.id r.thread (r.world n) = none) : r.Past (n + 1) i k := by
  -- none of what counts here ever has to wait
  refine h.quiet ?_ ?_ ?_
  · rintro ⟨turn, ⟨stop, hlooks⟩, hnothing⟩
    obtain rfl := here.unique hlooks
    have hnext := hstuck turn
    simp only [Fetch.Stage.next] at hnext
    split at hnext <;> cases hnext
  · rintro frames ⟨turn, stop, hstands⟩
    obtain rfl := here.unique hstands
    cases hstuck turn
  · rintro ⟨turn, stop, channel, number, ticket, hposts, -⟩
    obtain rfl := here.unique hposts
    have hnext := Option.map_eq_none_iff.mp (hstuck turn)
    simp only [Network.Request.Stage.next] at hnext
    split at hnext <;> cases hnext

/-- A step of its request leads to what is known at the next stage. -/
lemma Past.next_request {stop : Nat} {channel : ChannelId} {k k' : Network.Request.Stage} {net : Network}
    (h : r.Past n i (.requesting stop channel k)) (here : r.Fetches n i (.requesting stop channel k))
    (turn : r.schedule n = .step i)
    (hnext : k.next channel (Target.Fetch.question r.thread) (r.world n).net = some (k', net))
    (hnet : (r.world (n + 1)).net = net) : r.Past (n + 1) i (Fetch.Stage.ofRequest stop channel k') := by
  have hfinds := here.not_finds (by simp)
  have hkeeps := here.not_keeps (by simp)
  -- only where the request is handed over there is something new to know
  have hlater : (∀ number ticket, k ≠ .posting number ticket) → r.Past (n + 1) i (.requesting stop channel k) := by
    refine fun hk => h.quiet hfinds hkeeps (here.not_asks fun _ _ number ticket heq => ?_)
    injection heq with _ _ hposting
    exact hk number ticket hposting
  cases k with
  | starting =>
    obtain ⟨rfl, -⟩ := Prod.mk.inj (Option.some.inj hnext)
    split
    · exact hlater (by simp)
    · trivial
  | verifying number ticket =>
    obtain ⟨rfl, -⟩ := Prod.mk.inj (Option.some.inj hnext)
    split
    · exact hlater (by simp)
    · exact ⟨h.1, trivial⟩
  | enrolling | timing number ticket =>
    obtain ⟨rfl, -⟩ := Prod.mk.inj (Option.some.inj hnext)
    exact hlater (by simp)
  | posting number ticket =>
    simp only [Network.Request.Stage.next] at hnext
    split at hnext
    · next hok =>
      obtain ⟨rfl, hsent⟩ := Prod.mk.inj (Option.some.inj hnext)
      obtain ⟨hstop, found, hunasked⟩ := h
      have hasks : r.Asks n i := ⟨turn, stop, channel, number, ticket, here, Prod.ext hok (hsent.trans hnet.symm)⟩
      exact ⟨hstop, found, n, hunasked.toSince.succ hfinds hkeeps, hasks, hunasked.lt, Nat.lt_succ_self n⟩
    · obtain ⟨rfl, -⟩ := Prod.mk.inj (Option.some.inj hnext)
      exact ⟨h.1, trivial⟩
  | waiting number ticket limit deadline =>
    simp only [Network.Request.Stage.next] at hnext
    split at hnext
    · obtain ⟨rfl, -⟩ := Prod.mk.inj (Option.some.inj hnext)
      exact hlater (by simp)
    · cases hnext
  | fetching number ticket limit =>
    simp only [Network.Request.Stage.next] at hnext
    split at hnext
    · obtain ⟨rfl, -⟩ := Prod.mk.inj (Option.some.inj hnext)
      show r.Past (n + 1) i (Fetch.Stage.ofReply stop _)
      unfold Fetch.Stage.ofReply
      split
      · exact hlater (by simp)
      · trivial
    · obtain ⟨rfl, -⟩ := Prod.mk.inj (Option.some.inj hnext)
      exact ⟨h.1, trivial⟩
  | withdrawing number ticket fault =>
    obtain ⟨rfl, -⟩ := Prod.mk.inj (Option.some.inj hnext)
    trivial
  | ended reply => cases hnext

/-- A step leads to what is known at the next stage. -/
lemma Past.next (h : r.Past n i k) (here : r.Fetches n i k) (turn : r.schedule n = .step i)
    (hsuspended : ((r.world n).target r.id).currentStop r.thread = .ok r.stop)
    (hnext : k.next r.id r.thread (r.world n) = some (k', r.world (n + 1))) : r.Past (n + 1) i k' := by
  cases k with
  | checking =>
    simp only [Fetch.Stage.next, hsuspended] at hnext
    obtain ⟨rfl, -⟩ := Prod.mk.inj (Option.some.inj hnext)
    rfl
  | looking stop =>
    simp only [Fetch.Stage.next] at hnext
    split at hnext
    · obtain ⟨rfl, -⟩ := Prod.mk.inj (Option.some.inj hnext)
      trivial
    · next hnothing =>
      obtain ⟨rfl, -⟩ := Prod.mk.inj (Option.some.inj hnext)
      exact ⟨h, n, ⟨⟨turn, ⟨stop, here⟩, hnothing⟩, Nat.lt_succ_self n, fun l _ _ => by omega⟩, fun l _ _ => by omega⟩
  | asking stop =>
    obtain ⟨rfl, -⟩ := Prod.mk.inj (Option.some.inj hnext)
    exact h.quiet (here.not_finds (by simp)) (here.not_keeps (by simp)) (here.not_asks (by simp))
  | requesting stop channel k =>
    obtain ⟨⟨k', net⟩, hstep, hr⟩ := Option.map_eq_some_iff.mp hnext
    obtain ⟨rfl, hworld⟩ := Prod.mk.inj hr
    exact h.next_request here turn hstep (congrArg World.net hworld.symm)
  | placing stop body =>
    obtain ⟨rfl, -⟩ := Prod.mk.inj (Option.some.inj hnext)
    obtain ⟨hstop, found, asked, hasked⟩ := h
    exact ⟨hstop, Target.Course.contents_placeFrames _ _ _, found, asked,
      hasked.succ (here.not_finds (by simp)) (here.not_keeps (by simp))⟩
  | keeping stop frames =>
    obtain ⟨rfl, -⟩ := Prod.mk.inj (Option.some.inj hnext)
    trivial
  | ended result => cases hnext

/-! ## What each turn does to the thread -/

lemma modest {call : Call} {p : Place} (here : (r.moment n).calls[i]? = some (call, p)) : p.Modest :=
  (gathering r.id r.thread).of_place (Q := fun _ p => p.Modest) (fun call => (Place.modest_first call).2)
    (fun _ _ _ _ _ hp hstep => hp.next hstep) here

/-- Frames have nothing to do with the stop. -/
lemma currentStop_of_frames {t t' : Target} {thread : Int} {x : DebugThread} {frames : Option (List Stack.Frame)}
    (hx : t.thread? thread = some x) (hx' : t'.thread? thread = some { x with frames }) :
    t'.currentStop thread = t.currentStop thread := by
  rw [Target.currentStop, Target.currentStop, hx, hx']
  rfl

lemma currentStop_congr {t t' : Target} {thread : Int} (h : t'.thread? thread = t.thread? thread) :
    t'.currentStop thread = t.currentStop thread := by
  rw [Target.currentStop, Target.currentStop, h]

/-- The world after frames are kept. -/
lemma Keeps.world_succ {frames : List Stack.Frame} (h : r.Keeps n i frames) :
    ∃ stop, r.Fetches n i (.keeping stop frames) ∧ r.world (n + 1) = (r.world n).changeTarget r.id fun t => (t.keepFrames r.thread stop frames, []) := by
  obtain ⟨turn, stop, call, going, rest, here⟩ := h
  have hstep : (gathering r.id r.thread).step call (.fetch r.id r.thread (.keeping stop frames) going rest) (r.world n)
    = some (rest (.ok frames), (r.world n).changeTarget r.id fun t => (t.keepFrames r.thread stop frames, [])) := rfl
  exact ⟨stop, ⟨call, going, rest, here⟩,
    congrArg Ensemble.Moment.state ((gathering r.id r.thread).play_succ_of_step turn here hstep)⟩

/-- In a turn in which no frames are kept nothing changes but the contents of a frame. -/
lemma tends_of_not_keeps (hpresent : ((r.world n).debugger.target? r.id).isSome = true)
    (hnone : ∀ i frames, ¬ r.Keeps n i frames) : Tends r.id r.thread (r.world n) (r.world (n + 1)) := by
  have hhappens := (gathering r.id r.thread).happens_play r.start r.schedule n
  show Tends r.id r.thread (r.moment n).state ((gathering r.id r.thread).play r.start r.schedule (n + 1)).state
  generalize (gathering r.id r.thread).play r.start r.schedule (n + 1) = later at hhappens
  cases hhappens with
  | still | begins => exact .same rfl
  | around e other => exact .same (e.spares _)
  | moves i call p p' w' mine here steps =>
    refine (next_tends r.positive hpresent (modest here) steps).resolve_right ?_
    rintro ⟨stop, frames, going, rest, rfl, -⟩
    exact hnone i frames ⟨mine, stop, call, going, rest, here⟩

/-- The thread stays in its stop. -/
theorem suspended_at (r : Stay) (n : Nat) : ((r.world n).target r.id).currentStop r.thread = .ok r.stop := by
  induction n with
  | zero => exact r.suspended
  | succ n ih =>
    have hpresent := Target.isSome_of_currentStop ih
    by_cases hkeeps : ∃ i frames, r.Keeps n i frames
    · obtain ⟨i, frames, keeps⟩ := hkeeps
      obtain ⟨stop, -, hworld⟩ := keeps.world_succ
      -- whether the frames are taken or not, the stop is left alone
      rw [hworld, Target.target_changeTarget hpresent (Target.id_keepFrames ..)]
      rcases Target.thread?_keepFrames ((r.world n).target r.id) r.thread stop frames r.thread with
        hsame | ⟨-, x, hx, -, hkept⟩
      · rw [currentStop_congr hsame, ih]
      · rw [currentStop_of_frames hx hkept, ih]
    · cases tends_of_not_keeps hpresent fun i frames h => hkeeps ⟨i, frames, h⟩ with
      | same same => rw [currentStop_congr same, ih]
      | fills x frames index scopes l there kept filled => rw [currentStop_of_frames there filled, ih]

/-- What is known of every fetch of the frames of the thread. -/
theorem past (here : r.Fetches n i k) : r.Past n i k := by
  induction n generalizing k with
  | zero =>
    obtain ⟨_, _, _, here⟩ := here
    cases here
  | succ n ih =>
    obtain ⟨call, going, rest, here⟩ := here
    -- where a fetch is due it is at its start
    have hstarts : ∀ p : Place, p.AtStart → p = .fetch r.id r.thread k going rest → r.Past (n + 1) i k := by
      rintro p hstart rfl
      obtain rfl : k = .checking := hstart
      trivial
    rcases (gathering r.id r.thread).place_succ_origin here with
      ⟨hstay, hstuck⟩ | ⟨hfirst, -⟩ | ⟨before, turn, there, hstep⟩
    · have hfetches : r.Fetches n i k := ⟨call, going, rest, hstay⟩
      refine (ih hfetches).stuck hfetches fun turn => ?_
      have hnone := hstuck turn
      simp only [gathering, Place.next] at hnone
      exact Option.pmap_eq_none_iff.mp hnone
    · exact hstarts _ (Place.modest_first call).1 hfirst.symm
    · have hmodest := modest there
      cases before with
      | aside work =>
        obtain ⟨_, _, heq⟩ := Option.map_eq_some_iff.mp hstep
        cases (Prod.mk.inj heq).1
      | view next => exact hstarts _ (hmodest (r.world n)).1 (Prod.mk.inj (Option.some.inj hstep)).1
      | await on next =>
        simp only [gathering, Place.next] at hstep
        split at hstep
        · exact hstarts _ hmodest.1 (Prod.mk.inj (Option.some.inj hstep)).1
        · cases hstep
      | fetch id thread k' going' rest' =>
        have hfetch : (Place.fetch id thread k' going' rest').next (r.world n) = some (_, r.world (n + 1)) := hstep
        obtain ⟨k'', proper, hnext, hplace⟩ := Place.next_fetch hfetch
        rcases Place.onward_cases rest' k'' proper with ⟨result, -, heq⟩ | ⟨going'', heq⟩
        · exact hstarts _ (hmodest result).1 (heq.symm.trans hplace.symm)
        · rw [heq] at hplace
          injection hplace with hid hthread hk
          subst hid hthread hk
          have hfetches : r.Fetches n i k' := ⟨call, going', rest', there⟩
          exact (ih hfetches).next hfetches turn (r.suspended_at n) hnext

/-- What is kept is what is kept last. -/
lemma Keeps.kept {frames : List Stack.Frame} (h : r.Keeps n i frames) : r.kept? (n + 1) = some frames := by
  obtain ⟨stop, hfetches, hworld⟩ := h.world_succ
  -- the fetch began in the stop that the thread is still in, so what it brings is taken
  obtain ⟨rfl, -⟩ := past hfetches
  obtain ⟨x, hx, hin⟩ := Target.isIn_of_currentStop (r.suspended_at n)
  have hpresent := Target.isSome_of_currentStop (r.suspended_at n)
  rw [kept?, hworld, Target.target_changeTarget hpresent (Target.id_keepFrames ..), Target.keptFrames?,
    Target.thread?_keepFrames_of_isIn hx hin]
  rfl

/-- Frames as they are kept have no contents. -/
lemma Keeps.contents {frames : List Stack.Frame} (h : r.Keeps n i frames) (index : Nat) :
    r.contents? (n + 1) index = none := by
  obtain ⟨stop, hfetches⟩ := h.stands
  obtain ⟨-, hbare, -⟩ := past hfetches
  rw [contents?, h.kept, Option.bind_some]
  cases hframe : frames[index]? with
  | none => rfl
  | some f => exact hbare f (List.mem_of_getElem? hframe)

/-- Where no frames are kept those that are there stay, and so do their contents. -/
lemma kept_succ (hnone : ∀ i frames, ¬ r.Keeps n i frames) :
    (r.kept? (n + 1)).map (List.map bare) = (r.kept? n).map (List.map bare) ∧
      ∀ index, r.contents? n index ≠ none → r.contents? (n + 1) index ≠ none := by
  cases tends_of_not_keeps (Target.isSome_of_currentStop (r.suspended_at n)) hnone with
  | same same =>
    have hkept : r.kept? (n + 1) = r.kept? n := by rw [kept?, kept?, Target.keptFrames?, Target.keptFrames?, same]
    simp only [contents?, hkept]
    exact ⟨trivial, fun _ h => h⟩
  | fills x frames index scopes l there kept filled =>
    have hbefore : r.kept? n = some frames := by rw [kept?, Target.keptFrames?, there, Option.bind_some, kept]
    have hafter : r.kept? (n + 1)
        = some (frames.modify index fun f => { f with scopes := some scopes, contents := some l }) := by
      rw [kept?, Target.keptFrames?, filled, Option.bind_some]
    refine ⟨?_, fun other hother => ?_⟩
    · rw [hbefore, hafter, Option.map_some, Option.map_some, Target.Course.map_modify_of_forall]
      exact fun _ => rfl
    · rw [contents?, hafter, Option.bind_some, List.getElem?_modify]
      rw [contents?, hbefore, Option.bind_some] at hother
      cases hframe : frames[other]? with
      | none => simp [hframe] at hother
      | some f =>
        rw [hframe] at hother
        by_cases hindex : index = other
        · simp [hindex]
        · simpa [hindex] using hother

/-- As long as no frames are kept those that are there stay, and so do their contents. -/
lemma kept_of_le {m n : Nat} (hmn : m ≤ n) (hnone : ∀ l, m ≤ l → l < n → ∀ i frames, ¬ r.Keeps l i frames) :
    (r.kept? n).map (List.map bare) = (r.kept? m).map (List.map bare) ∧
      ∀ index, r.contents? m index ≠ none → r.contents? n index ≠ none := by
  induction n, hmn using Nat.le_induction with
  | base => exact ⟨rfl, fun _ h => h⟩
  | succ n hmn ih =>
    obtain ⟨hkept, hcontents⟩ := ih fun l hl hln => hnone l hl (Nat.lt_succ_of_lt hln)
    obtain ⟨hkept', hcontents'⟩ := kept_succ (hnone n hmn (Nat.lt_succ_self n))
    exact ⟨hkept'.trans hkept, fun index h => hcontents' index (hcontents index h)⟩

/-- Frames that are there were kept by a call. -/
lemma exists_keeps (h : r.kept? n ≠ none) : ∃ m < n, ∃ i frames, r.Keeps m i frames := by
  by_contra hnone
  have hkept := (kept_of_le (Nat.zero_le n) fun l _ hl i frames hkeeps => hnone ⟨l, hl, i, frames, hkeeps⟩).1
  rw [show r.kept? 0 = none from r.unknown] at hkept
  exact h (Option.map_eq_none_iff.mp hkept)

/-- What a call gets to know is there afterwards. -/
lemma Sees.kept_succ {frames : List Stack.Frame} (h : r.Sees n i frames) : r.kept? (n + 1) = some frames := by
  cases h with
  | fetched keeps => exact keeps.kept
  | kept turn looks kept =>
    obtain ⟨stop, call, going, rest, here⟩ := looks
    have hlook : (Fetch.Stage.looking stop).next r.id r.thread (r.world n) = some (.ended (.ok frames), r.world n) := by
      simp only [Fetch.Stage.next, show ((r.world n).target r.id).keptFrames? r.thread = some frames from kept]
    have hstep : (Place.fetch r.id r.thread (.looking stop) going rest).next (r.world n) = some (_, r.world n) :=
      Place.next_of_fetch hlook
    have hworld : r.world (n + 1) = r.world n := by
      rw [world, moment, (gathering r.id r.thread).play_succ_of_step turn here hstep]
    rw [kept?, hworld]
    exact kept

/-! ## The result -/

/-- A request comes after a look that found nothing, and each look has one request at most. -/
lemma Asks.exists_finds (h : r.Asks n i) : ∃ found, r.Unasked n i found := by
  obtain ⟨-, stop, channel, number, ticket, hposts, -⟩ := h
  exact (past hposts).2

/-- Frames that are kept were asked for after a look that found nothing. -/
lemma Keeps.exists_asked {frames : List Stack.Frame} (h : r.Keeps n i frames) :
    ∃ found asked, r.Asked n i found asked := by
  obtain ⟨-, stop, hstands⟩ := h
  exact (past hstands).2.2

/-- In one turn one call goes on. -/
lemma eq_of_turn {j : Nat} (hi : r.schedule n = .step i) (hj : r.schedule n = .step j) : i = j :=
  Ensemble.Turn.step.inj (hi.symm.trans hj)

section Single

variable (single : ∀ m n i j, r.Finds m i → r.Finds n j → m = n)

include single

/-- If one look found nothing, what a call does once at most after such a look is done once at most. -/
lemma unique_of_finds {P : Nat → Nat → Prop}
    (hafter : ∀ n i, P n i → ∃ found, r.Finds found i ∧ found < n ∧ ∀ l, found < l → l < n → ¬ P l i) {m j : Nat}
    (hm : P m i) (hn : P n j) : m = n := by
  obtain ⟨found, hfound, hlt, halone⟩ := hafter m i hm
  obtain ⟨found', hfound', hlt', halone'⟩ := hafter n j hn
  -- both come after the one look, so it is one call, and the later one would be its second after that look
  obtain rfl := single _ _ _ _ hfound hfound'
  obtain rfl := eq_of_turn hfound.turn hfound'.turn
  rcases Nat.lt_trichotomy m n with hmn | heq | hnm
  · exact absurd hm (halone' m hlt hmn)
  · exact heq
  · exact absurd hn (halone n hlt' hnm)

lemma asks_unique {m j : Nat} (hm : r.Asks m i) (hn : r.Asks n j) : m = n :=
  unique_of_finds single (fun _ _ h =>
    let ⟨found, hfound⟩ := h.exists_finds
    ⟨found, hfound.finds, hfound.lt, hfound.unasked⟩) hm hn

lemma keeps_unique {m j : Nat} {frames frames' : List Stack.Frame} (hm : r.Keeps m i frames) (hn : r.Keeps n j frames') :
    m = n := by
  refine unique_of_finds single (P := fun n i => ∃ frames, r.Keeps n i frames) ?_ ⟨frames, hm⟩ ⟨frames', hn⟩
  rintro n i ⟨frames, h⟩
  obtain ⟨found, asked, hasked⟩ := h.exists_asked
  exact ⟨found, hasked.finds, hasked.lt, fun l hl hln ⟨frames', h'⟩ => (hasked.alone l hl hln).2 frames' h'⟩

/-- If one look found nothing, frames that are there stay there. -/
lemma kept_of_single {m : Nat} (hmn : m ≤ n) (hkept : r.kept? m ≠ none) :
    (r.kept? n).map (List.map bare) = (r.kept? m).map (List.map bare) ∧
      ∀ index, r.contents? m index ≠ none → r.contents? n index ≠ none := by
  obtain ⟨l, hl, j, frames, hkeeps⟩ := exists_keeps hkept
  refine kept_of_le hmn fun l' hl' _ i' frames' hkeeps' => ?_
  have := keeps_unique single hkeeps hkeeps'
  omega

lemma once_of_single : r.Once where
  asked m n i j hm hn := asks_unique single hm hn
  same m n i j frames frames' hm hn := by
    have hsame : ∀ {m n i j : Nat} {frames frames' : List Stack.Frame}, m ≤ n → r.Sees m i frames → r.Sees n j frames' →
        frames.map bare = frames'.map bare := by
      intro m n i j frames frames' hmn hm hn
      have hkept := (kept_of_single single (Nat.succ_le_succ hmn) (by rw [hm.kept_succ]; exact Option.some_ne_none _)).1
      rw [hm.kept_succ, hn.kept_succ] at hkept
      exact (Option.some.inj hkept).symm
    rcases Nat.le_total m n with hmn | hnm
    · exact hsame hmn hm hn
    · exact (hsame hnm hn hm).symm
  stays m n index hmn hcontents := by
    refine (kept_of_single single hmn fun hnone => hcontents ?_).2 index hcontents
    rw [contents?, hnone]
    rfl

end Single

/-- A call that finds nothing asks, if the adapter answers. -/
lemma Finds.exists_asks (answered : r.Answered) (h : r.Finds n i) :
    ∃ asked, n < asked ∧ r.Asks asked i ∧ ∀ l, n < l → l ≤ asked → ¬ r.Finds l i := by
  obtain ⟨m, frames, hnm, hkeeps, halone⟩ := answered n i h
  obtain ⟨found, asked, hasked⟩ := hkeeps.exists_asked
  -- what is kept comes from this look, as the call did not look again in between
  obtain rfl : found = n := by
    rcases Nat.lt_trichotomy found n with hlt | heq | hgt
    · exact absurd h (hasked.alone n hlt hnm).1
    · exact heq
    · exact absurd hasked.finds (halone found hgt hasked.lt)
  exact ⟨asked, hasked.found_lt, hasked.asks, fun l hl hle => halone l hl (Nat.lt_of_le_of_lt hle hasked.asked_lt)⟩

/-- If there is one request at most, one look at most found nothing. -/
lemma single_of_asked (answered : r.Answered) (asked : ∀ m n i j, r.Asks m i → r.Asks n j → m = n) :
    ∀ m n i j, r.Finds m i → r.Finds n j → m = n := by
  intro m n i j hm hn
  obtain ⟨a, hma, ha, halone⟩ := hm.exists_asks answered
  obtain ⟨b, hnb, hb, halone'⟩ := hn.exists_asks answered
  obtain rfl := asked _ _ _ _ ha hb
  obtain rfl := eq_of_turn ha.turn hb.turn
  rcases Nat.lt_trichotomy m n with hlt | heq | hgt
  · exact absurd hn (halone n hlt hnb.le)
  · exact heq
  · exact absurd hm (halone' m hgt hma.le)

/-- Frames that are there do not go away. -/
lemma kept_ne_none_of_le {m : Nat} (hmn : m ≤ n) (h : r.kept? m ≠ none) : r.kept? n ≠ none := by
  induction n, hmn using Nat.le_induction with
  | base => exact h
  | succ n hmn ih =>
    by_cases hkeeps : ∃ i frames, r.Keeps n i frames
    · obtain ⟨i, frames, keeps⟩ := hkeeps
      rw [keeps.kept]
      exact Option.some_ne_none _
    · intro hnone
      have hkept := (kept_succ fun i frames h => hkeeps ⟨i, frames, h⟩).1
      rw [hnone] at hkept
      exact ih (Option.map_eq_none_iff.mp hkept.symm)

/-- A second look finds nothing if and only if it comes during the first fetch. -/
lemma single_iff_not_overlaps : (∀ m n i j, r.Finds m i → r.Finds n j → m = n) ↔ ¬ r.Overlaps := by
  constructor
  · rintro hsingle ⟨m, n, i, j, stop, hmn, hfinds, turn, hlooks, hnone⟩
    have hnone' : ∀ l, m ≤ l → l < n → ∀ i' frames, ¬ r.Keeps l i' frames := by
      intro l hl hln i' frames hkeeps
      rcases hl.eq_or_lt with rfl | hlt
      · obtain rfl := eq_of_turn hkeeps.turn hfinds.turn
        obtain ⟨stop', hlooks'⟩ := hfinds.looks
        exact hlooks'.not_keeps (by simp) frames hkeeps
      · exact hnone l hlt hln i' frames hkeeps
    have hkept := (kept_of_le hmn.le hnone').1
    rw [hfinds.nothing] at hkept
    have hnothing : r.kept? n = none := Option.map_eq_none_iff.mp hkept
    exact hmn.ne (hsingle m n i j hfinds ⟨turn, ⟨stop, hlooks⟩, hnothing⟩)
  · intro hnot
    have hle : ∀ {m n i j}, r.Finds m i → r.Finds n j → ¬ m < n := by
      intro m n i j hm hn hmn
      obtain ⟨stop, hlooks⟩ := hn.looks
      refine hnot ⟨m, n, i, j, stop, hmn, hm, hn.turn, hlooks, fun l _ hln i' frames hkeeps => ?_⟩
      exact kept_ne_none_of_le (Nat.succ_le_of_lt hln) (by rw [hkeeps.kept]; exact Option.some_ne_none _) hn.nothing
    intro m n i j hm hn
    exact Nat.le_antisymm (Nat.not_lt.mp (hle hn hm)) (Nat.not_lt.mp (hle hm hn))

/-- In its turn a call hands over a request for frames only in a fetch. -/
lemma asks_of_hands (turn : r.schedule n = .step i)
    (hhands : Network.Hands ["stackTrace"] (r.world n).net (r.world (n + 1)).net) : r.Asks n i ∨ r.FetchesOther n i := by
  have hhappens := (gathering r.id r.thread).happens_play r.start r.schedule n
  change Network.Hands _ _ ((gathering r.id r.thread).play r.start r.schedule (n + 1)).state.net at hhands
  generalize hlater : (gathering r.id r.thread).play r.start r.schedule (n + 1) = later at hhappens hhands
  cases hhappens with
  | still | begins => exact absurd hhands (Network.not_hands_refl _ _)
  | around e other => cases turn.symm.trans other
  | moves j call p p' w' mine here steps =>
    obtain rfl := eq_of_turn turn mine
    obtain ⟨id, thread, stop, channel, number, ticket, going, rest, rfl, hsent⟩ := next_hands (modest here) steps hhands
    by_cases hthread : (id, thread) = (r.id, r.thread)
    · obtain ⟨rfl, rfl⟩ := Prod.mk.inj hthread
      refine .inl ⟨turn, stop, channel, number, ticket, ⟨call, going, rest, here⟩, ?_⟩
      rw [world, moment, world, moment, hlater]
      exact hsent
    · exact .inr ⟨call, id, thread, _, going, rest, hthread, here⟩

/-- If the adapter answers, frames are asked for once in a stop, are the same for all calls and do not lose their
contents if and only if no call looks for them while another one is fetching them. In any case a request for them has a
look of its own that found nothing, what a call gets to know is what is kept then, and contents are lost only when
frames are kept again, and then all of them. -/
theorem once_iff (r : Stay) (answered : r.Answered) :
    (r.Once ↔ ¬ r.Overlaps) ∧
    (∀ n i, r.schedule n = .step i → Network.Hands ["stackTrace"] (r.world n).net (r.world (n + 1)).net →
      r.Asks n i ∨ r.FetchesOther n i) ∧
    (∀ n i, r.Asks n i → ∃ m, m < n ∧ r.Finds m i ∧ ∀ l, m < l → l < n → ¬ r.Finds l i ∧ ¬ r.Asks l i) ∧
    (∀ n i frames, r.Sees n i frames → r.kept? (n + 1) = some frames) ∧
    ∀ n index, r.contents? n index ≠ none → r.contents? (n + 1) index = none →
      ∃ i frames, r.Keeps n i frames ∧ ∀ other, r.contents? (n + 1) other = none := by
  refine ⟨⟨fun honce => ?_, fun hnot => ?_⟩, fun n i => asks_of_hands, fun n i hasks => ?_,
    fun n i frames => Sees.kept_succ, fun n index hthere hgone => ?_⟩
  · exact single_iff_not_overlaps.mp (single_of_asked answered honce.asked)
  · exact once_of_single (single_iff_not_overlaps.mpr hnot)
  · obtain ⟨m, hm⟩ := hasks.exists_finds
    exact ⟨m, hm.lt, hm.finds, fun l hl hln => ⟨(hm.alone l hl hln).1, hm.unasked l hl hln⟩⟩
  · by_contra hnone
    refine (kept_succ fun i frames hkeeps => hnone ⟨i, frames, hkeeps, hkeeps.contents⟩).2 index hthere hgone

end Proofs

/-! ## Two calls at once -/

section Computed

variable (r : Stay) {n i : Nat} {frames : List Stack.Frame}

/-- The call that finds nothing kept in a turn. -/
def finder? (n : Nat) : Option Nat :=
  match r.schedule n with
  | .step i =>
    match (r.moment n).calls[i]? with
    | some (_, .fetch id thread (.looking _) _ _) =>
      if id = r.id ∧ thread = r.thread ∧ r.kept? n = none then some i else none
    | _ => none
  | _ => none

/-- The call that keeps frames in a turn. -/
def keeper? (n : Nat) : Option (Nat × List Stack.Frame) :=
  match r.schedule n with
  | .step i =>
    match (r.moment n).calls[i]? with
    | some (_, .fetch id thread (.keeping _ frames) _ _) =>
      if id = r.id ∧ thread = r.thread then some (i, frames) else none
    | _ => none
  | _ => none

variable {r}

lemma finder?_eq_some_iff : r.finder? n = some i ↔ r.Finds n i := by
  constructor
  · intro h
    unfold finder? at h
    split at h
    · next j turn =>
      split at h
      · next call id thread stop going rest here =>
        split at h
        · next hthread =>
          obtain ⟨rfl, rfl, hnothing⟩ := hthread
          obtain rfl := Option.some.inj h
          exact ⟨turn, ⟨stop, call, going, rest, here⟩, hnothing⟩
        · cases h
      · cases h
    · cases h
  · rintro ⟨turn, ⟨stop, call, going, rest, here⟩, hnothing⟩
    simp [finder?, turn, here, hnothing]

lemma keeper?_eq_some_iff : r.keeper? n = some (i, frames) ↔ r.Keeps n i frames := by
  constructor
  · intro h
    unfold keeper? at h
    split at h
    · next j turn =>
      split at h
      · next call id thread stop found going rest here =>
        split at h
        · next hthread =>
          obtain ⟨rfl, rfl⟩ := hthread
          obtain ⟨rfl, rfl⟩ := Prod.mk.inj (Option.some.inj h)
          exact ⟨turn, stop, call, going, rest, here⟩
        · cases h
      · cases h
    · cases h
  · rintro ⟨turn, stop, call, going, rest, here⟩
    simp [keeper?, turn, here]

end Computed

/-- A thread is suspended, and nothing is known of its frames. -/
def oneStop : World :=
  { Target.Freshness.oneTarget with
    debugger := { Target.Freshness.oneTarget.debugger with
      targets := [{ id := 1, launch := default, session := 0, state := .running
                    threads := [{ id := 1, name := "main", state := .suspended, stop := 1 }] }] } }

/-- The adapter answers a request. -/
def answers (ticket : Nat) (body : Json) : Elsewhere 1 1 := ⟨Target.answers ticket body, fun _ => rfl⟩

/-- A frame is looked into and the frames are asked for, and both calls find that none are kept. The first one is given
its frames and fills one of them; then the other one is given its own. -/
def overlap : List (Ensemble.Turn Call (Elsewhere 1 1)) :=
  List.flatten [[.begins (.contents 1 1 0), .begins (.stack 1 1)], List.replicate 2 (.step 0), List.replicate 2 (.step 1),
    List.replicate 6 (.step 0), [.around (answers 0 (Target.Course.frameReply 10 "run"))], List.replicate 13 (.step 0),
    [.around (answers 1 Target.Course.scopesReply)], List.replicate 3 (.step 0), List.replicate 6 (.step 1),
    [.around (answers 2 (Target.Course.frameReply 20 "run"))], List.replicate 4 (.step 1)]

/-- Those turns, one after the other. -/
def overlapping : Stay where
  id := 1
  thread := 1
  stop := 1
  start := oneStop
  schedule n := overlap.getD n (.step 2)
  positive := by decide
  suspended := rfl
  unknown := rfl

/-- The adapter answers both calls, and yet the frames are asked for twice; the frame that was filled is replaced. -/
theorem not_once_overlapping :
    overlapping.Answered ∧ ¬ overlapping.Once ∧
      (overlapping.kept? 30).map (·.map (·.id)) = some [10] ∧ overlapping.contents? 30 0 ≠ none ∧
      (overlapping.kept? 41).map (·.map (·.id)) = some [20] ∧ overlapping.contents? 41 0 = none := by
  have hturn : ∀ n, 41 ≤ n → overlapping.schedule n = .step 2 := fun n hn => List.getD_eq_default _ _ hn
  -- after those turns nobody is left to go on
  have hcalls : ∀ n, 41 ≤ n → (overlapping.moment n).calls.length = 2 := by
    intro n hn
    induction n, hn using Nat.le_induction with
    | base => decide +kernel
    | succ n hn ih =>
      have hnone : (overlapping.moment n).calls[2]? = none := List.getElem?_eq_none ih.le
      show ((gathering 1 1).after (overlapping.moment n) (overlapping.schedule n)).calls.length = 2
      simp only [hturn n hn, Ensemble.after, hnone, ih]
  have hfinder : ∀ n < 41, overlapping.finder? n = if n = 3 then some 0 else if n = 5 then some 1 else none := by
    decide +kernel
  have hkeeper : ∀ n < 41,
      (overlapping.keeper? n).map (·.1) = if n = 16 then some 0 else if n = 40 then some 1 else none := by
    decide +kernel
  have hfinds : ∀ n i, overlapping.Finds n i ↔ n = 3 ∧ i = 0 ∨ n = 5 ∧ i = 1 := by
    intro n i
    by_cases hn : n < 41
    · rw [← finder?_eq_some_iff, hfinder n hn]
      split_ifs <;> simp_all [eq_comm]
    · constructor
      · rintro ⟨turn, ⟨stop, call, going, rest, here⟩, -⟩
        obtain rfl := eq_of_turn turn (hturn n (Nat.not_lt.mp hn))
        rw [List.getElem?_eq_none (hcalls n (Nat.not_lt.mp hn)).le] at here
        cases here
      · omega
  have hkeeps : ∀ n < 41, ∀ i, (overlapping.keeper? n).map (·.1) = some i → ∃ frames, overlapping.Keeps n i frames := by
    intro n hn i h
    obtain ⟨⟨j, frames⟩, hkeeper, rfl⟩ := Option.map_eq_some_iff.mp h
    exact ⟨frames, keeper?_eq_some_iff.mp hkeeper⟩
  have hanswered : overlapping.Answered := by
    intro n i h
    rcases (hfinds n i).mp h with ⟨rfl, rfl⟩ | ⟨rfl, rfl⟩
    · obtain ⟨frames, h⟩ := hkeeps 16 (by decide) 0 (hkeeper 16 (by decide))
      exact ⟨16, frames, by decide, h, fun l hl hlm hfinds' => by have := (hfinds l 0).mp hfinds'; omega⟩
    · obtain ⟨frames, h⟩ := hkeeps 40 (by decide) 1 (hkeeper 40 (by decide))
      exact ⟨40, frames, by decide, h, fun l hl hlm hfinds' => by have := (hfinds l 1).mp hfinds'; omega⟩
  have hoverlaps : overlapping.Overlaps := by
    have hfirst : overlapping.Finds 3 0 := (hfinds 3 0).mpr (by decide)
    have hsecond : overlapping.Finds 5 1 := (hfinds 5 1).mpr (by decide)
    obtain ⟨stop, hlooks⟩ := hsecond.looks
    refine ⟨3, 5, 0, 1, stop, by decide, hfirst, hsecond.turn, hlooks, fun l hl hl' i frames hnone => ?_⟩
    obtain rfl : l = 4 := by omega
    have hkeeper := hkeeper 4 (by decide)
    rw [keeper?_eq_some_iff.mpr hnone] at hkeeper
    cases hkeeper
  have hnot : ¬ overlapping.Once := fun honce => (once_iff overlapping hanswered).1.mp honce hoverlaps
  exact ⟨hanswered, hnot, by decide +kernel, by decide +kernel, by decide +kernel, by decide +kernel⟩

end Stay

end Switchboard.Debug.Onlookers
