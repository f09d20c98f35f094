import Switchboard.Proofs.Debug.Upkeep

/-!
# Rounds of synchronization

* `Run`: any number of commands on breakpoints, access by access, and whatever happens around them;
* `Hands`, `Hears`: a command hands the breakpoints of a file over to an adapter, and finds the answer;
* `Hands.leaves`: what is handed over leaves over the channel;
* `Round`: from the look at the breakpoints of a file to the recording of what was answered for them;
* `Underway`, `tidy`: what a command has done when it is about to go on;
* `exists_took`: whatever is recorded was answered in a round.
-/

namespace Switchboard.Debug.Upkeep

open Breakpoint (Catalog)
open Network.Request (Stage)

/-! ## Runs -/

/-- Any number of commands, and whatever happens around them. -/
structure Run where
  start : World
  schedule : Nat → Ensemble.Turn Job (World → World)

namespace Run

variable (r : Run)

/-- The world and the commands after `n` turns. -/
def moment (n : Nat) : Ensemble.Moment World Job (List Chore) := upkeep.play r.start r.schedule n

/-- The breakpoints after `n` turns. -/
def catalog (n : Nat) : Catalog := (r.moment n).state.debugger.breakpoints

/-- A command is about to go on with a chore. -/
def Stands (n i : Nat) (ch : Chore) : Prop := ∃ job rest, (r.moment n).calls[i]? = some (job, ch :: rest)

variable {r} in
lemma Stands.eq {n i : Nat} {ch ch' : Chore} (h : r.Stands n i ch) (h' : r.Stands n i ch') : ch = ch' := by
  obtain ⟨job, rest, h⟩ := h
  obtain ⟨job', rest', h'⟩ := h'
  have hplace := (Prod.mk.inj (Option.some.inj (h.symm.trans h'))).2
  exact (List.cons.inj hplace).1

end Run

/-- A request as it goes out: for the breakpoints of a file, over a channel, under a number and a ticket. -/
structure Letter where
  path : Path
  sent : List (Nat × SourceBreakpoint)
  channel : ChannelId
  number : Int
  ticket : Nat

/-- The number and the ticket of a request that was handed over and has not come to its end. -/
def awaited? : Stage → Option (Int × Nat)
  | .timing number ticket | .waiting number ticket _ _ | .fetching number ticket _ => some (number, ticket)
  | _ => none

section Steps

variable (r : Run) (n i : Nat) (x : Letter)

/-- A command is about to hand the request over. -/
def Posts : Prop := r.Stands n i (.ask (.file x.path x.sent) x.channel (.posting x.number x.ticket) rfl)

/-- A command has handed the request over and waits for the answer. -/
def Awaits : Prop :=
  ∃ stage live, r.Stands n i (.ask (.file x.path x.sent) x.channel stage live) ∧
    awaited? stage = some (x.number, x.ticket)

/-- In this turn a command hands the request over. -/
structure Hands : Prop where
  turn : r.schedule n = .step i
  posts : Posts r n i x
  awaits : Awaits r (n + 1) i x

/-- In this turn a command finds the answer to the request. -/
structure Hears (responses : List BreakpointResponse) : Prop where
  turn : r.schedule n = .step i
  fetches : ∃ limit, r.Stands n i (.ask (.file x.path x.sent) x.channel (.fetching x.number x.ticket limit) rfl)
  answer : ∃ answer body,
    ((r.moment n).state.channel x.channel).pending.settlement? x.ticket = some (.answered (.ok answer)) ∧
      SetBreakpointsBody.shape answer = .ok body ∧ body.breakpoints = responses

/-- In this turn a command looks up what there is to send for a file. -/
structure Reads (path : Path) (sent : List (Nat × SourceBreakpoint)) : Prop where
  turn : r.schedule n = .step i
  reads : ∃ s, r.Stands n i (.read s path)
  listed : sent = (r.moment n).state.debugger.sourceBreakpoints path

end Steps

/-- The breakpoints of a file are looked up and sent, and what is answered is recorded. -/
structure Round where
  job : Nat
  letter : Letter
  responses : List BreakpointResponse
  /-- When the breakpoints were looked up. -/
  read : Nat
  /-- When the request was handed over. -/
  handed : Nat
  /-- When the answer was found. -/
  heard : Nat
  /-- When it was recorded. -/
  recorded : Nat

namespace Round

/-- The round took place up to the time `n`, where the answer is about to be recorded. -/
structure Came (r : Run) (x : Round) (n : Nat) : Prop where
  reads : Reads r x.read x.job x.letter.path x.letter.sent
  read_lt : x.read < x.handed
  hands : Hands r x.handed x.job x.letter
  handed_lt : x.handed < x.heard
  awaits : ∀ t, x.handed < t → t ≤ x.heard → Awaits r t x.job x.letter
  hears : Hears r x.heard x.job x.letter x.responses
  heard_lt : x.heard < n
  ready : ∀ t, x.heard < t → t ≤ n → r.Stands t x.job (.record x.letter.sent x.responses)

/-- The round took place. -/
structure Took (r : Run) (x : Round) : Prop extends Came r x x.recorded where
  turn : r.schedule x.recorded = .step x.job

/-- The ids of the breakpoints that were sent. -/
def ids (x : Round) : List Nat := x.letter.sent.map (·.1)

end Round

/-! ## What a command has done -/

/-- No request of it has begun. -/
def Chore.IsFresh : Chore → Prop
  | ask _ _ _ _ | record _ _ => False
  | _ => True

/-- What a command has done when it is about to go on with a chore. -/
def Underway (r : Run) (n i : Nat) : Chore → Prop
  | .ask (.file path sent) c stage _ => ∃ read < n, Reads r read i path sent ∧
      ∀ number ticket, awaited? stage = some (number, ticket) → ∃ handed, read < handed ∧ handed < n ∧
        Hands r handed i ⟨path, sent, c, number, ticket⟩ ∧
          ∀ t, handed < t → t ≤ n → Awaits r t i ⟨path, sent, c, number, ticket⟩
  | .record sent responses => ∃ x : Round, x.job = i ∧ x.letter.sent = sent ∧ x.responses = responses ∧ x.Came r n
  | _ => True

/-- Only the first chore has begun. -/
def Tidy (r : Run) (n i : Nat) : List Chore → Prop
  | [] => True
  | ch :: rest => Underway r n i ch ∧ ∀ x ∈ rest, x.IsFresh

section Underway

variable {r : Run} {n i : Nat}

lemma Chore.IsFresh.underway {ch : Chore} (h : ch.IsFresh) : Underway r n i ch := by
  cases ch with
  | ask q c stage live => cases h
  | record sent responses => cases h
  | _ => trivial

lemma tidy_of_fresh {l : List Chore} (h : ∀ x ∈ l, x.IsFresh) : Tidy r n i l := by
  cases l with
  | nil => trivial
  | cons ch rest =>
    exact ⟨(h ch (List.mem_cons_self ..)).underway, fun x hx => h x (List.mem_cons_of_mem _ hx)⟩

/-- A command that has not gone on has done what it had done before. -/
lemma Underway.later {ch : Chore} (h : Underway r n i ch) (here : r.Stands (n + 1) i ch) : Underway r (n + 1) i ch := by
  cases ch with
  | ask q c stage live =>
    cases q with
    | exceptions filters => trivial
    | file path sent =>
      obtain ⟨read, hread, hreads, hhanded⟩ := h
      refine ⟨read, Nat.lt_succ_of_lt hread, hreads, fun number ticket hawaited => ?_⟩
      obtain ⟨handed, hlt, hn, hhands, hawaits⟩ := hhanded number ticket hawaited
      refine ⟨handed, hlt, Nat.lt_succ_of_lt hn, hhands, fun t ht htn => ?_⟩
      rcases Nat.le_succ_iff.mp htn with htn | rfl
      · exact hawaits t ht htn
      · exact ⟨stage, live, here, hawaited⟩
  | record sent responses =>
    obtain ⟨x, rfl, rfl, rfl, hcame⟩ := h
    refine ⟨x, rfl, rfl, rfl, { hcame with heard_lt := Nat.lt_succ_of_lt hcame.heard_lt, ready := fun t ht htn => ?_ }⟩
    rcases Nat.le_succ_iff.mp htn with htn | rfl
    · exact hcame.ready t ht htn
    · exact here
  | _ => trivial

/-- A request is awaited once it is handed over. -/
lemma awaited?_next {c : ChannelId} {q : Network.Request} {net net' : Network} {stage stage' : Stage}
    (h : stage.next c q net = some (stage', net')) {number : Int} {ticket : Nat}
    (hawaited : awaited? stage' = some (number, ticket)) :
    stage = .posting number ticket ∨ awaited? stage = some (number, ticket) := by
  cases stage with
  | starting | verifying id ticket' =>
    obtain ⟨rfl, -⟩ := Prod.mk.inj (Option.some.inj h)
    split at hawaited <;> cases hawaited
  | enrolling | withdrawing id ticket' fault =>
    obtain ⟨rfl, -⟩ := Prod.mk.inj (Option.some.inj h)
    cases hawaited
  | posting id ticket' =>
    simp only [Stage.next] at h
    split at h
    · obtain ⟨rfl, -⟩ := Prod.mk.inj (Option.some.inj h)
      obtain ⟨rfl, rfl⟩ := Prod.mk.inj (Option.some.inj hawaited)
      exact .inl rfl
    · obtain ⟨rfl, -⟩ := Prod.mk.inj (Option.some.inj h)
      cases hawaited
  | timing id ticket' =>
    obtain ⟨rfl, -⟩ := Prod.mk.inj (Option.some.inj h)
    exact .inr hawaited
  | waiting id ticket' limit deadline =>
    simp only [Stage.next] at h
    split at h
    · obtain ⟨rfl, -⟩ := Prod.mk.inj (Option.some.inj h)
      exact .inr hawaited
    · cases h
  | fetching id ticket' limit =>
    simp only [Stage.next] at h
    split at h
    · obtain ⟨rfl, -⟩ := Prod.mk.inj (Option.some.inj h)
      cases hawaited
    · obtain ⟨rfl, -⟩ := Prod.mk.inj (Option.some.inj h)
      cases hawaited
  | ended result => cases h

/-- A request that ends well finds its answer in the last step. -/
lemma fetching_of_next {c : ChannelId} {q : Network.Request} {net net' : Network} {stage : Stage} {answer : Json}
    (h : stage.next c q net = some (.ended (.ok answer), net')) : ∃ number ticket limit,
      stage = .fetching number ticket limit ∧
        (net.channel c).pending.settlement? ticket = some (.answered (.ok answer)) := by
  cases stage with
  | starting | verifying id ticket =>
    have hstage := (Prod.mk.inj (Option.some.inj h)).1
    split at hstage <;> cases hstage
  | enrolling | timing id ticket => cases h
  | withdrawing id ticket fault => cases h
  | posting id ticket | waiting id ticket limit deadline =>
    simp only [Stage.next] at h
    split at h <;> cases h
  | fetching id ticket limit =>
    simp only [Stage.next, Network.fetch] at h
    cases hs : (net.channel c).pending.settlement? ticket with
    | none =>
      simp only [hs] at h
      cases h
    | some s =>
      simp only [hs] at h
      rcases s with ⟨fault | body⟩ | -
      · cases h
      · obtain ⟨hstage, -⟩ := Prod.mk.inj (Option.some.inj h)
        cases hstage
        exact ⟨id, ticket, limit, rfl, hs⟩
      · cases h
  | ended result => cases h

/-- What was handed over by a step is awaited from then on, and what was awaited before still is. -/
lemma Underway.asked {path : Path} {sent : List (Nat × SourceBreakpoint)} {c : ChannelId} {stage stage' : Stage}
    {live : stage.reply? = none} {live' : stage'.reply? = none} {net' : Network}
    (h : Underway r n i (.ask (.file path sent) c stage live)) (turn : r.schedule n = .step i)
    (here : r.Stands n i (.ask (.file path sent) c stage live))
    (hnext : stage.next c (Question.file path sent).request (r.moment n).state.net = some (stage', net'))
    (later : r.Stands (n + 1) i (.ask (.file path sent) c stage' live')) :
    Underway r (n + 1) i (.ask (.file path sent) c stage' live') := by
  obtain ⟨read, hread, hreads, hhanded⟩ := h
  refine ⟨read, Nat.lt_succ_of_lt hread, hreads, fun number ticket hawaited => ?_⟩
  have hafter : Awaits r (n + 1) i ⟨path, sent, c, number, ticket⟩ := ⟨stage', live', later, hawaited⟩
  rcases awaited?_next hnext hawaited with rfl | hbefore
  · refine ⟨n, hread, Nat.lt_succ_self n, ⟨turn, here, hafter⟩, fun t ht htn => ?_⟩
    obtain rfl : t = n + 1 := by omega
    exact hafter
  · obtain ⟨handed, hlt, hn, hhands, hawaits⟩ := hhanded number ticket hbefore
    refine ⟨handed, hlt, Nat.lt_succ_of_lt hn, hhands, fun t ht htn => ?_⟩
    rcases Nat.le_succ_iff.mp htn with htn | rfl
    · exact hawaits t ht htn
    · exact hafter

/-- A request that was handed over and answered is about to be recorded. -/
lemma Underway.answered {path : Path} {sent : List (Nat × SourceBreakpoint)} {c : ChannelId} {stage : Stage}
    {live : stage.reply? = none} {net' : Network} {answer : Json} {body : SetBreakpointsBody}
    (h : Underway r n i (.ask (.file path sent) c stage live)) (turn : r.schedule n = .step i)
    (here : r.Stands n i (.ask (.file path sent) c stage live))
    (hnext : stage.next c (Question.file path sent).request (r.moment n).state.net = some (.ended (.ok answer), net'))
    (hshape : SetBreakpointsBody.shape answer = .ok body)
    (later : r.Stands (n + 1) i (.record sent body.breakpoints)) :
    Underway r (n + 1) i (.record sent body.breakpoints) := by
  obtain ⟨number, ticket, limit, rfl, hsettled⟩ := fetching_of_next hnext
  obtain ⟨read, hread, hreads, hhanded⟩ := h
  obtain ⟨handed, hlt, hn, hhands, hawaits⟩ := hhanded number ticket rfl
  refine ⟨⟨i, ⟨path, sent, c, number, ticket⟩, body.breakpoints, read, handed, n, n + 1⟩, rfl, rfl, rfl, ?_⟩
  have hhears : Hears r n i ⟨path, sent, c, number, ticket⟩ body.breakpoints :=
    ⟨turn, ⟨limit, here⟩, answer, body, hsettled, hshape, rfl⟩
  refine ⟨hreads, hlt, hhands, hn, hawaits, hhears, Nat.lt_succ_self n, fun t ht htn => ?_⟩
  obtain rfl : t = n + 1 := by
    have : n < t := ht
    omega
  exact later

/-- The answer to a request is heard only if it is one. -/
lemma heard_file_cases (path : Path) (sent : List (Nat × SourceBreakpoint)) (reply : Except Channel.Fault Json) :
    (Question.file path sent).heard reply = [] ∨
      ∃ answer body, reply = .ok answer ∧ SetBreakpointsBody.shape answer = .ok body ∧
        (Question.file path sent).heard reply = [.record sent body.breakpoints] := by
  cases reply with
  | error e => exact .inl rfl
  | ok answer =>
    cases hshape : SetBreakpointsBody.shape answer with
    | error e =>
      left
      simp only [Question.heard, Session.reading, hshape]
      rfl
    | ok body =>
      refine .inr ⟨answer, body, rfl, hshape, ?_⟩
      simp only [Question.heard, Session.reading, hshape]
      rfl

/-- What is left of a request is the request at its next stage, or what is left to do when it is over. -/
lemma resume_cases (q : Question) (c : ChannelId) (stage : Stage) :
    (∃ live, q.resume c stage = [.ask q c stage live]) ∨
      ∃ reply, stage = .ended reply ∧ q.resume c stage = q.heard reply := by
  unfold Question.resume
  split
  · next live => exact .inl ⟨live, rfl⟩
  · next reply h =>
    cases stage with
    | ended result =>
      obtain rfl := Option.some.inj h
      exact .inr ⟨_, rfl, rfl⟩
    | _ => cases h

/-- A request that is handed over leaves, with what there was to send for the file. -/
lemma Hands.leaves {x : Letter} (h : Hands r n i x) (hc : x.channel < (r.moment n).state.net.channels.length) :
    ((r.moment (n + 1)).state.channel x.channel).outgoing = ((r.moment n).state.channel x.channel).outgoing
      ++ [((r.moment n).state.channel x.channel).dialect.request x.number "setBreakpoints"
        (Sync.fileArguments x.path (x.sent.map (·.2)))] := by
  obtain ⟨job, rest, here⟩ := h.posts
  have hnext : ∃ stage net, (Stage.posting x.number x.ticket).next x.channel (Question.file x.path x.sent).request
      (r.moment n).state.net = some (stage, net) ∧ stage.reply? = none := by
    simp only [Stage.next]
    split <;> exact ⟨_, _, rfl, rfl⟩
  obtain ⟨stage, net, hnext, live⟩ := hnext
  have hstep : goOn (.ask (.file x.path x.sent) x.channel (.posting x.number x.ticket) rfl :: rest) (r.moment n).state
      = some (.ask (.file x.path x.sent) x.channel stage live :: rest, { (r.moment n).state with net }) := by
    rcases resume_cases (.file x.path x.sent) x.channel stage with ⟨live, hresume⟩ | ⟨reply, rfl, -⟩
    · simp only [goOn, Chore.next, hnext, Option.map_some, hresume]
      rfl
    · cases live
  have hplay : r.moment (n + 1) = _ := upkeep.play_succ_of_step h.turn here hstep
  have hstands : r.Stands (n + 1) i (.ask (.file x.path x.sent) x.channel stage live) := by
    refine ⟨job, rest, ?_⟩
    rw [hplay]
    exact List.getElem?_set_self (List.getElem?_eq_some_iff.mp here).1
  obtain ⟨stage', live', hthere, hawaited⟩ := h.awaits
  obtain ⟨-, -, rfl⟩ := Chore.ask.inj (hthere.eq hstands)
  -- if the request had failed nobody would wait for an answer
  have htiming : stage' = .timing x.number x.ticket := by
    simp only [Stage.next] at hnext
    split at hnext
    · exact (Prod.mk.inj (Option.some.inj hnext)).1.symm
    · obtain ⟨rfl, -⟩ := Prod.mk.inj (Option.some.inj hnext)
      cases hawaited
  obtain ⟨f, rfl, -, -, ⟨-, hfailed⟩ | ⟨number, ticket, hstage, hout⟩⟩ := Network.Request.next_changes hnext
  · exact absurd htiming (hfailed x.number x.ticket)
  · obtain ⟨rfl, -⟩ := Stage.timing.inj (hstage.symm.trans htiming)
    rw [hplay]
    exact (congrArg Channel.outgoing (Network.channel_update hc f)).trans hout

/-- A step of a command leaves one chore that has begun, or none. -/
lemma Underway.next {ch : Chore} {rest l : List Chore} {w' : World} (h : Underway r n i ch) (turn : r.schedule n = .step i)
    (hrest : ∀ x ∈ rest, x.IsFresh) (here : r.Stands n i ch) (hnext : ch.next (r.moment n).state = some (l, w'))
    {job : Job} (later : (r.moment (n + 1)).calls[i]? = some (job, l ++ rest)) : Tidy r (n + 1) i (l ++ rest) := by
  have hfresh (hl : ∀ x ∈ l, x.IsFresh) : Tidy r (n + 1) i (l ++ rest) :=
    tidy_of_fresh fun x hx => (List.mem_append.mp hx).elim (hl x) (hrest x)
  -- the only chores that have begun are requests and what follows them
  cases ch with
  | change call =>
    obtain ⟨rfl, -⟩ := Prod.mk.inj (Option.some.inj hnext)
    refine hfresh fun x hx => ?_
    obtain ⟨e, -, rfl⟩ := List.mem_map.mp hx
    trivial
  | list s =>
    obtain ⟨rfl, -⟩ := Prod.mk.inj (Option.some.inj hnext)
    refine hfresh fun x hx => ?_
    rcases List.mem_append.mp hx with hx | hx
    · obtain ⟨path, -, rfl⟩ := List.mem_map.mp hx
      trivial
    · obtain rfl := List.mem_singleton.mp hx
      trivial
  | errand e =>
    simp only [Chore.next] at hnext
    split at hnext
    · obtain ⟨rfl, -⟩ := Prod.mk.inj (Option.some.inj hnext)
      exact hfresh (List.forall_mem_singleton.mpr trivial)
    · cases hnext
  | choose e =>
    obtain ⟨rfl, -⟩ := Prod.mk.inj (Option.some.inj hnext)
    refine hfresh fun x hx => ?_
    obtain ⟨s, -, rfl⟩ := List.mem_map.mp hx
    trivial
  | check s t =>
    obtain ⟨rfl, -⟩ := Prod.mk.inj (Option.some.inj hnext)
    refine hfresh fun x hx => ?_
    split at hx
    · obtain rfl := List.mem_singleton.mp hx
      trivial
    · cases hx
  | tell s t =>
    cases t with
    | file path =>
      obtain ⟨rfl, -⟩ := Prod.mk.inj (Option.some.inj hnext)
      exact hfresh (List.forall_mem_singleton.mpr trivial)
    | exceptions =>
      obtain ⟨rfl, -⟩ := Prod.mk.inj (Option.some.inj hnext)
      exact ⟨trivial, hrest⟩
  | read s path =>
    obtain ⟨rfl, -⟩ := Prod.mk.inj (Option.some.inj hnext)
    have hreads : Reads r n i path ((r.moment n).state.debugger.sourceBreakpoints path) := ⟨turn, ⟨s, here⟩, rfl⟩
    exact ⟨⟨n, Nat.lt_succ_self n, hreads, fun number ticket hawaited => by cases hawaited⟩, hrest⟩
  | ask q c stage live =>
    obtain ⟨⟨stage', net'⟩, hstage, heq⟩ := Option.map_eq_some_iff.mp hnext
    obtain ⟨rfl, -⟩ := Prod.mk.inj heq
    rcases resume_cases q c stage' with ⟨live', hresume⟩ | ⟨reply, rfl, hresume⟩
    · rw [hresume] at later ⊢
      refine ⟨?_, hrest⟩
      cases q with
      | exceptions filters => trivial
      | file path sent => exact h.asked turn here hstage ⟨job, rest, later⟩
    · rw [hresume] at later hfresh ⊢
      cases q with
      | exceptions filters => exact hfresh (List.forall_mem_nil _)
      | file path sent =>
        rcases heard_file_cases path sent reply with hheard | ⟨answer, body, rfl, hshape, hheard⟩
        · rw [hheard] at hfresh ⊢
          exact hfresh (List.forall_mem_nil _)
        · rw [hheard] at later ⊢
          exact ⟨h.answered turn here hstage hshape ⟨job, rest, later⟩, hrest⟩
  | record sent responses =>
    obtain ⟨rfl, -⟩ := Prod.mk.inj (Option.some.inj hnext)
    exact hfresh (List.forall_mem_nil _)

/-- At all times a command has done what it needs to have done for its first chore, and its other chores have not begun. -/
theorem tidy (r : Run) {n i : Nat} {job : Job} {l : List Chore} (here : (r.moment n).calls[i]? = some (job, l)) :
    Tidy r n i l := by
  induction n generalizing l with
  | zero => cases here
  | succ n ih =>
    rcases upkeep.place_succ_cases here with hstay | ⟨rfl, -⟩ | ⟨before, turn, there, hstep⟩
    · cases l with
      | nil => trivial
      | cons ch rest => exact ⟨(ih hstay).1.later ⟨job, rest, here⟩, (ih hstay).2⟩
    · apply tidy_of_fresh
      intro x hx
      cases job with
      | edit call =>
        simp only [upkeep, Job.chores] at hx
        split at hx
        · obtain rfl := List.mem_singleton.mp hx
          trivial
        · cases hx
      | everything s =>
        obtain rfl := List.mem_singleton.mp hx
        trivial
    · cases before with
      | nil => cases hstep
      | cons ch rest =>
        obtain ⟨⟨l', w'⟩, hnext, heq⟩ := Option.map_eq_some_iff.mp hstep
        obtain ⟨rfl, rfl⟩ := Prod.mk.inj heq
        obtain ⟨hch, hrest⟩ := ih there
        exact hch.next turn hrest ⟨job, rest, there⟩ hnext here

/-- What is recorded is what was answered in a round. -/
theorem exists_took {sent : List (Nat × SourceBreakpoint)} {responses : List BreakpointResponse}
    (turn : r.schedule n = .step i) (here : r.Stands n i (.record sent responses)) :
    ∃ x : Round, x.Took r ∧ x.recorded = n ∧ x.job = i ∧ x.letter.sent = sent ∧ x.responses = responses := by
  obtain ⟨job, rest, hplace⟩ := here
  obtain ⟨x, rfl, rfl, rfl, hcame⟩ := (tidy r hplace).1
  refine ⟨{ x with recorded := n }, { hcame with turn := turn, ready := hcame.ready }, rfl, rfl, rfl, rfl⟩

end Underway

end Switchboard.Debug.Upkeep
