import Switchboard.Proofs.Channel.SingleFlight
import Switchboard.Proofs.Debug.Pursuit

/-!
# Launches and the answer to `initialize`

* `requests`: any number of requests on the world, and all that can happen meanwhile, seen from one channel;
* `attends_requests`: runs take turns at the door of the channel;
* `Episode`: a run of all that; `Episode.Launches`, `Looks`, `Answers`: a launch leaves, a run looks at the phase, a run
  finds the good answer to its `initialize`;
* `launches_after_answer_iff`: a launch comes after such an answer exactly if its run did not find the session ready before
  any.

A session can be ready before it is introduced: an adapter that says on its own that it is initialized gets the second
half of the handshake at once.
-/

namespace Switchboard.Debug.Pursuit

open Debug.Bustle (Request)
open Network (Place Ending Exchange Attends Attended InOrder Somebody Settled standsAt)
open Ensemble (Turn Moment)

/-! ## All that goes on about a channel -/

/-- What else happens between two accesses: something to the channel, or something beside it and all requests. -/
inductive Around (c : ChannelId) where
  | channel (e : Network.Around c) (grows : ∀ n, n.channels.length ≤ (e.change n).channels.length)
  | aside (change : World → World) (beside : ∀ w : World, w.Beside c (change w))

namespace Around

variable {c : ChannelId}

/-- What becomes of the world. -/
def change : Around c → World → World
  | channel e _, w => { w with net := e.change w.net }
  | aside change _, w => change w

lemma continues (e : Around c) {w : World} (hw : w.Grounded) : w.Continues (e.change w) := by
  cases e with
  | channel e grows => exact .of_net hw fun d hd => Nat.lt_of_lt_of_le hd (grows w.net)
  | aside change beside => exact (beside w).continues hw

lemma nudged (e : Around c) (w : World) : (w.net.channel c).door.Nudged ((e.change w).net.channel c).door := by
  cases e with
  | channel e grows => exact (e.mild w.net).door
  | aside change beside =>
    show (w.net.channel c).door.Nudged ((change w).net.channel c).door
    rw [(beside w).net.door]
    exact .same _

/-- No request leaves. -/
lemma not_asks (e : Around c) (w : World) (names : List String) : ¬ Network.Asks c names w.net (e.change w).net := by
  rintro ⟨message, hleaves, name, -, seq, params, hread⟩
  have hdrop : ∀ k, ((e.change w).net.channel c).outgoing ≠ (w.net.channel c).outgoing.drop k := by
    intro k hout
    refine Network.not_leaves_of_le ?_ hleaves
    rw [hout, List.length_drop]
    exact Nat.sub_le _ _
  cases e with
  | channel e grows =>
    rcases e.outgoing_change w.net with ⟨k, hout⟩ | ⟨reply, hreply, hnot⟩
    · exact hdrop k hout
    · rw [hleaves.unique hreply] at hread
      exact hnot name (.inl ⟨_, _, hread⟩)
  | aside change beside =>
    obtain ⟨k, hout⟩ := (beside w).net.taken
    exact hdrop k hout

end Around

/-- Any number of requests, and all that can happen meanwhile. -/
def requests (c : ChannelId) : Ensemble World Request Spot (Around c) where
  start := Spot.ofRequest
  step := fun _ spot w => spot.next w
  around := fun e w => e.change w

/-- At the door of a channel runs move, or all stand as before. -/
lemma Spot.Does.attended {w w' : World} {r : Request} {spot spot' : Spot} (h : Does w w' spot spot') (hw : w.Grounded)
    (hfine : spot.Fine w r) (c : ChannelId) :
    Attended World.net c (Spot.stand c) (Spot.IsShaken c) spot w spot' w' := by
  cases h with
  | turns target root session place place' step =>
    obtain ⟨hid, hwithin⟩ := hfine.placed
    by_cases hown : session.channel = c
    · subst hown
      obtain ⟨-, ended, hmoves, hended⟩ :=
        Place.moves (hid.present hw) (hwithin.mono fun _ _ h => h.mild session.channel) step
      refine .inl ⟨ended, ?_, ?_⟩
      · simpa only [Spot.stand, if_pos] using hmoves
      · simpa only [Spot.IsShaken, true_and] using hended
    · refine .inr ⟨?_, ?_, (Place.mild_of_ne (Ne.symm hown) (hwithin.mono fun _ _ h => h.mild c) step).door⟩
      · simp only [Spot.stand, if_neg hown]
      · simp only [Spot.IsShaken, hown, false_and]
  | aside _ _ aside aside' civil =>
    exact .inr ⟨(aside' c).1.trans (aside c).1.symm, iff_of_false (aside' c).2 (aside c).2, (civil.mild c).door⟩
  | launches d ending _ _ _ passed passed' mild _ =>
    exact .inr ⟨(passed'.stand c).trans (passed.stand c).symm, (passed'.isShaken_iff c).trans (passed.isShaken_iff c).symm,
      (mild c).door⟩

/-- Runs take turns at the door of a channel. -/
lemma attends_requests (c : ChannelId) : Attends (requests c) World.net c (Spot.stand c) (Spot.IsShaken c)
    World.Grounded fun w r spot => spot.Fine w r where
  start r := by
    have haway : ∀ launch, (Spot.asked launch).stand c = .away ∧ ¬ (Spot.asked launch).IsShaken c := fun _ => ⟨rfl, id⟩
    show (Spot.ofRequest r).stand c = .away ∧ ¬ (Spot.ofRequest r).IsShaken c
    unfold Spot.ofRequest
    split
    · exact haway _
    · exact ⟨rfl, id⟩
  step r spot w spot' w' hw hfine h := by
    obtain ⟨hcontinues, hfine', hdoes⟩ := (Spot.goes h).does hw hfine
    exact ⟨hcontinues.grounded, hfine', fun _ _ hq => hq.continues hcontinues, hdoes.attended hw hfine c⟩
  around e w hw := ⟨(e.continues hw).grounded, fun _ _ hq => hq.continues (e.continues hw), e.nudged w⟩

/-! ## Episodes -/

/-- Requests and all that happens meanwhile, in turns. -/
structure Episode where
  channel : ChannelId
  start : World
  schedule : Nat → Turn Request (Around channel)

namespace Episode

variable (e : Episode)

/-- The world and the requests after `n` turns. -/
def after (n : Nat) : Moment World Request Spot := (requests e.channel).play e.start e.schedule n

/-- The phase of the channel after `n` turns. -/
def phase (n : Nat) : Phase := ((e.after n).state.net.channel e.channel).phase

/-- A request to launch or to attach leaves over the channel in a turn. -/
def Launches (n : Nat) : Prop :=
  Network.Asks e.channel Target.launchings (e.after n).state.net (e.after (n + 1)).state.net

/-- In its turn a run looks at the phase of the channel. -/
def Looks (i m : Nat) : Prop :=
  e.schedule m = .step i ∧ ∃ target root session k,
    (e.after m).place? i = some (.introducing target root session (.looking k)) ∧ session.channel = e.channel

/-- In its turn a run that asked over the channel to initialize finds the good answer. -/
def Answers (i l : Nat) : Prop :=
  e.schedule l = .step i ∧ ∃ spot spot', (e.after l).place? i = some spot ∧ spot.IsAsking e.channel ∧
    (e.after (l + 1)).place? i = some spot' ∧ spot'.IsAnswered e.channel

/-- Some run did before a turn. -/
def Answered (n : Nat) : Prop := ∃ l < n, ∃ i, e.Answers i l

/-- The episode as a request sees it. -/
def viewpoint (i : Nat) : Viewpoint Wait Network where
  holds := Wait.holds
  state n := (e.after n).state.net
  turn n := e.schedule n = .step i

/-- At first nobody was at the door of the channel, and sessions that are inserted are there. -/
structure Proper : Prop where
  grounded : e.start.Grounded
  phase : (e.start.net.channel e.channel).phase = .notInitialized
  turns : (e.start.net.channel e.channel).turn = (e.start.net.channel e.channel).turnsGiven
  admitted : ∀ n r, e.schedule n = .begins r → r.Admitted (e.after n).state

variable {e} {i m n : Nat} {r : Request} {spot : Spot}

lemma place?_of_calls (h : (e.after n).calls[i]? = some (r, spot)) : (e.after n).place? i = some spot := by
  rw [Moment.place?, h]
  rfl

lemma calls_of_place? (h : (e.after n).place? i = some spot) : ∃ r, (e.after n).calls[i]? = some (r, spot) := by
  obtain ⟨⟨r, spot⟩, hcall, rfl⟩ := Option.map_eq_some_iff.mp h
  exact ⟨r, hcall⟩

/-- A run stands where it is at the handshake. -/
lemma standsAt_introducing {target : Target} {root : Option Path} {session : Session} {place : Place (Network.Asking Json)}
    (h : (e.after n).place? i = some (.introducing target root session place)) (hown : session.channel = e.channel) :
    standsAt (Spot.stand e.channel) (e.after n) i = place.stand :=
  (Network.standsAt_of_place? h).trans (if_pos hown)

lemma Answered.later (h : e.Answered m) (hmn : m ≤ n) : e.Answered n := by
  obtain ⟨l, hl, hanswers⟩ := h
  exact ⟨l, Nat.lt_of_lt_of_le hl hmn, hanswers⟩

/-- A handshake that returned well was answered. -/
lemma answered_of_shaken (h : Somebody (Spot.IsShaken e.channel) (e.after n)) : e.Answered n := by
  obtain ⟨i, spot, hspot, hshaken⟩ := h
  obtain ⟨r, hcall⟩ := calls_of_place? hspot
  have hstart : ∀ r : Request, ¬ (Spot.ofRequest r).IsShaken e.channel ∧ ¬ (Spot.ofRequest r).IsAnswered e.channel := by
    intro r
    unfold Spot.ofRequest
    split <;> exact ⟨id, nofun⟩
  obtain ⟨m, hm, before, after, -, hbefore, hnot, hstep, -, hafter⟩ :=
    (requests e.channel).exists_step_of_place (Q := fun _ spot => spot.IsShaken e.channel) (fun r => (hstart r).1) hcall
      hshaken
  obtain ⟨l, hl, before', after', hturn, hbefore', -, hstep', hcall', hafter'⟩ :=
    (requests e.channel).exists_step_of_place (Q := fun _ spot => spot.IsAnswered e.channel) (fun r => (hstart r).2)
      hbefore ((Spot.goes hstep).answered_of_shaken hnot hafter)
  exact ⟨l, Nat.lt_trans hl hm, i, hturn, before', after', place?_of_calls hbefore',
    (Spot.goes hstep').asking_of_answered hafter', place?_of_calls hcall', hafter'⟩

/-- The answer is that of an exchange that took place. -/
lemma exchange_of_answers {l : Nat} (h : e.Answers i l) : ∃ (session : Session) (x : Exchange),
    session.channel = e.channel ∧ x.channel = e.channel ∧ x.request = session.introduction ∧
      (∃ body, x.Took (e.viewpoint i) body) ∧ x.answered ≤ l := by
  obtain ⟨-, -, spot, -, -, hspot, hanswered⟩ := h
  obtain ⟨r, hcall⟩ := calls_of_place? hspot
  have hreached : spot.Reached (e.viewpoint i) (l + 1) := by
    refine (requests e.channel).of_place_at (I := fun n _ spot => spot.Reached (e.viewpoint i) n) ?_ ?_ ?_ hcall
    · intro n r
      show (Spot.ofRequest r).Reached (e.viewpoint i) n
      unfold Spot.ofRequest
      split <;> trivial
    · exact fun n _ spot hspot => hspot.later
    · exact fun n spot spot' hspot mine _ hstep => (Spot.goes hstep).reached hspot mine rfl rfl
  cases hanswered with
  | mk target root session own k body =>
    obtain ⟨x, hchannel, hrequest, htook, hlt⟩ := hreached
    exact ⟨session, x, own, hchannel.trans own, hrequest, htook, Nat.le_of_lt_succ hlt⟩

namespace Proper

variable (he : e.Proper)

include he

lemma inOrder (n : Nat) : InOrder World.net e.channel (Spot.stand e.channel) (Spot.IsShaken e.channel) World.Grounded
    (fun w r spot => spot.Fine w r) (e.after n) := by
  refine (attends_requests e.channel).inOrder (s := e.start) he.grounded (by rw [he.phase]; nofun) he.turns ?_ n
  exact fun n r hr => Spot.fine_ofRequest (he.admitted n r hr)

/-- A launch leaves in the turn of a run that is past the handshake, which let it go on. -/
lemma passed_of_launches (h : e.Launches n) : ∃ i r spot ending, e.schedule n = .step i ∧
    (e.after n).calls[i]? = some (r, spot) ∧ spot.Passed e.channel ending ∧ ending.result = .ok () := by
  have hturn := (requests e.channel).happens_play e.start e.schedule n
  unfold Launches after at h
  unfold after
  generalize (requests e.channel).play e.start e.schedule (n + 1) = later at hturn h
  cases hturn with
  | still => exact absurd h.hands (Network.not_hands_refl _ _)
  | begins r begun => exact absurd h.hands (Network.not_hands_refl _ _)
  | moves i r spot spot' w' mine here steps =>
    have hfine := (he.inOrder n).fine i r spot here
    obtain ⟨-, -, hdoes⟩ := (Spot.goes steps).does (he.inOrder n).good hfine
    obtain ⟨ending, hpassed, hok⟩ := hdoes.passed_of_asks hfine h
    exact ⟨i, r, spot, ending, mine, here, hpassed, hok⟩
  | around a other => exact absurd h (a.not_asks _ _)

/-- Once a run has looked and found the channel ready no run will find an answer. -/
lemma answered_of_ready (hlooks : e.Looks i m) (hready : e.phase m = .ready) (h : e.Answered n) :
    e.Answered m := by
  obtain ⟨-, target, root, session, k, hplace, hown⟩ := hlooks
  obtain ⟨l, hl, j, hanswers⟩ := h
  rcases Nat.lt_or_ge l m with hlm | hml
  · exact ⟨l, hlm, j, hanswers⟩
  · obtain ⟨-, spot, -, hspot, hasking, -⟩ := hanswers
    have hsettled := (attends_requests e.channel).settled_of_le he.inOrder hml
      ((he.inOrder m).settled (standsAt_introducing hplace hown) hready)
    cases hasking with
    | mk target root session own k stage live =>
      have hinside : (standsAt (Spot.stand e.channel) (e.after l) j).IsInside := by
        rw [standsAt_introducing hspot own]
        trivial
      exact absurd hinside (hsettled.outside j)

/-- The run of a launch looked at the phase of the channel. Unless it found it ready, some run had found an answer before
the launch. -/
lemma looks_of_passed {ending : Ending} (hcall : (e.after n).calls[i]? = some (r, spot))
    (hpassed : spot.Passed e.channel ending) (hok : ending.result = .ok ()) :
    ∃ m < n, e.Looks i m ∧ (e.phase m ≠ .ready → e.Answered n) := by
  have hstart : ∀ r : Request, (Spot.ofRequest r).looked? e.channel ≠ some ending.found? := by
    intro r
    unfold Spot.ofRequest
    split <;> nofun
  obtain ⟨m, hm, before, after, hturn, hbefore, hnot, hstep, -, hlooked⟩ :=
    (requests e.channel).exists_step_of_place (Q := fun _ spot => spot.looked? e.channel = some ending.found?) hstart hcall
      hpassed.looked?
  obtain ⟨target, root, session, k, rfl, hown, hfound⟩ := (Spot.goes hstep).looking_of_looked hnot hlooked
  refine ⟨m, hm, ⟨hturn, target, root, session, k, place?_of_calls hbefore, hown⟩, fun hready => ?_⟩
  cases ending with
  | shook result =>
    have hshook : Ending.shook result = .shook (.ok ()) := congrArg Ending.shook hok
    exact answered_of_shaken ⟨i, spot, place?_of_calls hcall, (hpassed.isShaken_iff e.channel).mpr ⟨rfl, hshook⟩⟩
  | found phase =>
    obtain ⟨hphase, htried⟩ := hfound phase rfl
    have hlooking := standsAt_introducing (place?_of_calls hbefore) hown
    cases phase with
    | notInitialized => exact absurd rfl htried
    | initializing =>
      exact (answered_of_shaken ((he.inOrder m).orderly.shaken_of_looking hlooking hphase)).later (Nat.le_of_lt hm)
    | ready => exact absurd hphase hready
    | closed => cases hok

end Proper

/-- What is true of launches. -/
structure AfterAnswer (e : Episode) : Prop where
  /-- The run of a launch looked at the phase before; and some run found a good answer before the launch exactly if some
  run had found one by that look, should it have found the session ready. -/
  launch : ∀ n, e.Launches n → ∃ i m, e.schedule n = .step i ∧ m < n ∧ e.Looks i m ∧
    (e.Answered n ↔ (e.phase m = .ready → e.Answered m))
  /-- Good answers are those of exchanges that took place, in which the adapter was asked to initialize. -/
  exchange : ∀ i l, e.Answers i l → ∃ (session : Session) (x : Exchange), session.channel = e.channel ∧
    x.channel = e.channel ∧ x.request = session.introduction ∧ (∃ body, x.Took (e.viewpoint i) body) ∧ x.answered ≤ l

end Episode

/-- Single accesses of any number of requests, in whichever order and whatever else happens, are those of the program; and
every launch that leaves over a channel comes after a good answer to an `initialize` on it, unless its run found the
session ready before there was any. -/
theorem launches_after_answer_iff (e : Episode) (he : e.Proper) :
    (∀ n, (Ensemble.ofWork World.holds Request.work Around.change).play e.start e.schedule n
      = (e.after n).told fun _ spot => spot.work) ∧
    e.AfterAnswer := by
  refine ⟨fun n => ?_, ?_, fun i l => Episode.exchange_of_answers⟩
  · have hstart : Request.work = fun r => ((requests e.channel).start r).work :=
      funext fun r => (Spot.work_ofRequest r).symm
    rw [hstart]
    exact Ensemble.play_followed (x := requests e.channel) (fun _ spot => spot.work)
      (fun _ spot w => spot.tick_work w) e.start e.schedule n
  · intro n hlaunches
    obtain ⟨i, r, spot, ending, hturn, hcall, hpassed, hok⟩ := he.passed_of_launches hlaunches
    obtain ⟨m, hm, hlooks, hanswered⟩ := he.looks_of_passed hcall hpassed hok
    refine ⟨i, m, hturn, hm, hlooks, ?_, ?_⟩
    · exact fun h hready => he.answered_of_ready hlooks hready h
    · intro h
      by_cases hready : e.phase m = .ready
      · exact (h hready).later (Nat.le_of_lt hm)
      · exact hanswered hready

/-! ## A session that is ready too early -/

section Early

/-- One configuration, and the session of its language, over one channel. -/
def prepared : World where
  net := { channels := [{ dialect := .sequenced }] }
  debugger :=
    { launches := { entries := [{ (default : Launch) with id := 1, language := "java" }] }
      sessions := [{ (default : Session) with language := "java", channel := 0 }]
      current := [("java", 0)] }

/-- The adapter accepts the first request. -/
def accepts : Around 0 :=
  .channel (.receives (.obj [("type", "response"), ("request_seq", .int 1), ("success", true)]))
    fun _ => Nat.le_of_eq (List.length_modify ..).symm

/-- The adapter says that it is initialized before it was asked anything; then the configuration is run. -/
def early : List (Turn Request (Around 0)) :=
  .begins (.event 0 ⟨"initialized", .null⟩) :: .replicate 7 (.step 0) ++ .around accepts :: .replicate 5 (.step 0) ++
    .begins (.command (.run 1)) :: .replicate 16 (.step 1)

/-- Those turns, one after the other. -/
def earlyEpisode : Episode := ⟨0, prepared, fun n => early.getD n (.step 0)⟩

/-- A run is at its handshake. -/
def Spot.isShaking : Spot → Bool
  | introducing _ _ _ (.shaking _ _) => true
  | _ => false

lemma proper_early : earlyEpisode.Proper where
  grounded := ⟨⟨⟨List.nodup_nil, List.forall_mem_nil _, by decide⟩, List.forall_mem_nil _, List.forall_mem_nil _,
    List.forall_mem_singleton.mpr ⟨by decide, rfl⟩⟩, List.forall_mem_singleton.mpr (by decide)⟩
  phase := rfl
  turns := rfl
  admitted := by
    rintro n _ hr s rfl
    have hmem : (.begins (.insert s) : Turn Request (Around 0)) ∈ early := by
      have hturn : early.getD n (.step 0) = .begins (.insert s) := hr
      rw [List.getD] at hturn
      cases hn : early[n]? with
      | none => rw [hn] at hturn; cases hturn
      | some turn =>
        rw [hn] at hturn
        exact hturn ▸ List.mem_of_getElem? hn
    simp [early] at hmem

/-- The launch leaves, and nobody ever asked the adapter to initialize. -/
theorem launch_unanswered_early : earlyEpisode.Launches 30 ∧ ¬ earlyEpisode.Answered 30 ∧
    ∃ m < 30, earlyEpisode.Looks 1 m ∧ earlyEpisode.phase m = .ready ∧ ¬ earlyEpisode.Answered m := by
  have hlaunches : earlyEpisode.Launches 30 := by
    let launch : Launch := { (default : Launch) with id := 1, language := "java" }
    let arguments := Template.render (launch.vars none) (Session.template default .launch)
    have hout : Network.Leaves 0 (earlyEpisode.after 30).state.net (earlyEpisode.after 31).state.net
        (Dialect.sequenced.request 2 "launch" arguments) := by
      with_unfolding_all rfl
    have hdialect : ((earlyEpisode.after 30).state.net.channel 0).dialect = .sequenced := by decide +kernel
    obtain ⟨params, hread⟩ := Dialect.sequenced.decode_request 2 "launch" arguments
    exact ⟨_, hout, "launch", Target.name_mem_launchings .launch, .int 2, params, hdialect.symm ▸ hread⟩
  have hnobody : ∀ l < 30, ((earlyEpisode.after l).calls.all fun c => !c.2.isShaking) = true := by decide +kernel
  have hunanswered : ¬ earlyEpisode.Answered 30 := by
    rintro ⟨l, hl, i, -, spot, -, hspot, hasking, -⟩
    obtain ⟨r, hcall⟩ := Episode.calls_of_place? hspot
    have hnot := List.all_eq_true.mp (hnobody l hl) _ (List.mem_of_getElem? hcall)
    cases hasking
    cases hnot
  obtain ⟨i, m, hturn, hm, hlooks, hiff⟩ := (launches_after_answer_iff earlyEpisode proper_early).2.launch 30 hlaunches
  obtain ⟨hready, hnone⟩ := Classical.not_imp.mp (fun h => hunanswered (hiff.mpr h))
  obtain rfl : 1 = i := Turn.step.inj hturn
  exact ⟨hlaunches, hunanswered, m, hm, hlooks, hready, hnone⟩

end Early

end Switchboard.Debug.Pursuit
