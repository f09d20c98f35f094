import Switchboard.Proofs.Editor.Bystanders
import Switchboard.Proofs.Editor.Lines

/-!
# A service in every interleaving

* `Service.listenOnce?`, `Activity.callOnce?`: single steps of the listener and of a call;
* `Service.listen_followed`, `Activity.callTurn_followed`: whole turns are made of them;
* `Run`: bytes come from the editor in pieces, and the listener, the calls and all else go on in any order;
* `State.Turns`, `turns`: all that one turn can come to.

The commands of a run are any that are proper: they may fail, break down or wait for ever. What happens beside is discreet,
as it is in the turns of everybody else.
-/

namespace Switchboard

open World (Discreet Onward)

/-! ## Calls -/

namespace Activity

/-- One step of a call, if it can make one. A call that is done is dropped. -/
def callOnce? (a : Activity) (number : Nat) : Option Activity :=
  (a.calls.lookup number).bind fun work =>
    (work.tick? World.holds a.world).map fun (work, world) =>
      { a with
        world
        calls := putWork number work a.calls
        results := match work.result? with
          | some v => a.results ++ [(number, v)]
          | none => a.results }

/-- What is left in the place of a call. -/
def left (number : Nat) : Task Wait World Json → List (Nat × Task Wait World Json)
  | .done _ => []
  | work => [(number, work)]

section Calls

variable {number : Nat} {work : Task Wait World Json} {before after : List (Nat × Task Wait World Json)}

lemma left_of_result? (h : work.result? = none) : left number work = [(number, work)] := by
  cases work with
  | done v => cases h
  | access f next | wait w next => rfl

/-- Where numbers differ, those around a call have other ones. -/
lemma ne_of_nodup (hnumbers : ((before ++ (number, work) :: after).map Prod.fst).Nodup) {x : Nat × Task Wait World Json}
    (hx : x ∈ before ++ after) : x.1 ≠ number := by
  rw [List.map_append, List.map_cons, List.nodup_middle, List.nodup_cons, ← List.map_append] at hnumbers
  exact fun hsame => hnumbers.1 (List.mem_map.mpr ⟨x, hx, hsame⟩)

/-- A call is put where it was. -/
lemma putWork_between (hnumbers : ((before ++ (number, work) :: after).map Prod.fst).Nodup) (work' : Task Wait World Json) :
    putWork number work' (before ++ (number, work) :: after) = before ++ left number work' ++ after := by
  have hbefore : ∀ x ∈ before, x.1 ≠ number := fun x hx => ne_of_nodup hnumbers (List.mem_append_left _ hx)
  have hafter : ∀ x ∈ after, x.1 ≠ number := fun x hx => ne_of_nodup hnumbers (List.mem_append_right _ hx)
  have hmap : ∀ t : Task Wait World Json,
      (before ++ (number, work) :: after).map (fun x => if x.1 = number then (number, t) else x)
        = before ++ [(number, t)] ++ after := by
    intro t
    rw [List.map_append, List.map_cons, if_pos rfl, List.map_congr_left fun x hx => if_neg (hbefore x hx),
      List.map_congr_left fun x hx => if_neg (hafter x hx), List.map_id', List.map_id', List.append_assoc]
    rfl
  cases work' with
  | done v =>
    show (before ++ (number, work) :: after).filter (·.1 ≠ number) = before ++ [] ++ after
    rw [List.filter_append, List.filter_cons, if_neg (by simp),
      List.filter_eq_self.mpr fun x hx => by simpa using hbefore x hx,
      List.filter_eq_self.mpr fun x hx => by simpa using hafter x hx, List.append_nil]
  | access f next => exact hmap _
  | wait w next => exact hmap _

lemma lookup_between (hnumbers : ((before ++ (number, work) :: after).map Prod.fst).Nodup) :
    (before ++ (number, work) :: after).lookup number = some work := by
  refine List.lookup_eq_some_iff.mpr ⟨before, after, rfl, ?_⟩
  intro x hx
  have hne := ne_of_nodup hnumbers (List.mem_append_left after hx)
  simpa using hne.symm

/-- No number comes in a step of a call. -/
lemma numbers_callOnce? {a b : Activity} (h : a.callOnce? number = some b) :
    b.calls.map Prod.fst ⊆ a.calls.map Prod.fst := by
  obtain ⟨work, -, hstep⟩ := Option.bind_eq_some_iff.mp h
  obtain ⟨⟨work', w⟩, -, rfl⟩ := Option.map_eq_some_iff.mp hstep
  intro n hn
  obtain ⟨c, hc, rfl⟩ := List.mem_map.mp hn
  have hmap : ∀ t : Task Wait World Json, c ∈ a.calls.map (fun x => if x.1 = number then (number, t) else x) →
      c.1 ∈ a.calls.map Prod.fst := by
    intro t ht
    obtain ⟨x, hx, rfl⟩ := List.mem_map.mp ht
    split
    · next hnumber => exact List.mem_map.mpr ⟨x, hx, hnumber⟩
    · exact List.mem_map_of_mem hx
  cases work' with
  | done v => exact List.mem_map_of_mem (List.mem_of_mem_filter hc)
  | access f next | wait on next => exact hmap _ hc

/-- The activity when so much is left of a call, and the world is this one. -/
def reached (a : Activity) (number : Nat) (before after : List (Nat × Task Wait World Json))
    (r : Task Wait World Json × World) : Activity :=
  { a with
    world := r.2
    calls := before ++ left number r.1 ++ after
    results := match r.1.result? with
      | some v => a.results ++ [(number, v)]
      | none => a.results }

lemma reached_self {a : Activity} (hcalls : a.calls = before ++ (number, work) :: after) (hwork : work.result? = none) :
    a.reached number before after (work, a.world) = a := by
  have hsame : before ++ left number work ++ after = a.calls := by
    rw [left_of_result? hwork, hcalls, List.append_assoc, List.singleton_append]
  unfold reached
  dsimp only
  rw [hwork, hsame]

/-- In a step of a call so much is left of it as in a step of its work. -/
lemma callOnce?_between {a : Activity} (hcalls : a.calls = before ++ (number, work) :: after)
    (hnumbers : (a.calls.map Prod.fst).Nodup) :
    a.callOnce? number = (work.tick? World.holds a.world).map (a.reached number before after) := by
  rw [hcalls] at hnumbers
  unfold callOnce?
  rw [hcalls, lookup_between hnumbers, Option.bind_some]
  congr 1
  funext r
  dsimp only
  rw [putWork_between hnumbers]
  rfl

/-- A turn of a call is made of single steps, if calls have different numbers and those that are done are dropped. -/
theorem callTurn_followed {a : Activity} (hnumbers : (a.calls.map Prod.fst).Nodup)
    (hunder : ∀ c ∈ a.calls, c.2.result? = none) (number : Nat) :
    Relation.ReflTransGen (fun a b => a.callOnce? number = some b) a (callTurn number a).1 := by
  cases hfound : a.calls.lookup number with
  | none =>
    unfold callTurn
    rw [hfound]
  | some work =>
    obtain ⟨before, after, hcalls, -⟩ := List.lookup_eq_some_iff.mp hfound
    have hwork : work.result? = none := hunder (number, work) (hcalls ▸ List.mem_append_right _ List.mem_cons_self)
    have hsteps : ∀ r, Relation.ReflTransGen (fun a b => a.1.tick? World.holds a.2 = some b) (work, a.world) r →
        Relation.ReflTransGen (fun a b => a.callOnce? number = some b) a (a.reached number before after r) := by
      intro r hr
      induction hr with
      | refl => rw [reached_self hcalls hwork]
      | @tail b c _ hstep ih =>
        obtain ⟨t, w⟩ := b
        have hunderway : t.result? = none := by
          cases t with
          | done v => cases hstep
          | access f next | wait on next => rfl
        have hcalls' : (a.reached number before after (t, w)).calls = before ++ (number, t) :: after := by
          rw [reached, left_of_result? hunderway, List.append_assoc, List.singleton_append]
        have hnumbers' : ((a.reached number before after (t, w)).calls.map Prod.fst).Nodup := by
          rw [hcalls', List.map_append, List.map_cons]
          rw [hcalls, List.map_append, List.map_cons] at hnumbers
          exact hnumbers
        refine ih.tail ?_
        show (a.reached number before after (t, w)).callOnce? number = _
        rw [callOnce?_between hcalls' hnumbers']
        show Option.map _ (t.tick? World.holds w) = _
        rw [show t.tick? World.holds w = some c from hstep, Option.map_some]
        simp only [reached, hunderway]
    have hlast : (a.reached number before after (work.run World.holds a.world)) = (callTurn number a).1 := by
      unfold callTurn
      rw [hfound]
      dsimp only [goOn]
      rw [hcalls] at hnumbers ⊢
      rw [putWork_between hnumbers]
      rfl
    rw [← hlast]
    exact hsteps _ (work.run_followed World.holds a.world)

end Calls

end Activity

namespace Editor

/-! ## The listener -/

namespace Service

/-- How the service ended, if it did. -/
def Phase.outcome? : Phase → Option (Option String)
  | .ended fault => some fault
  | .reading | .waiting _ | .stopping _ _ => none

lemma Phase.eq_of_outcome? {p : Phase} {fault : Option String} (h : p.outcome? = some fault) : p = .ended fault := by
  cases p with
  | ended f => exact congrArg Phase.ended (Option.some.inj h)
  | reading | waiting | stopping => cases h

/-- The same service in another world. -/
def inWorld (s : Service) (w : World) : Service := { s with activity := { s.activity with world := w } }

/-- Every session has ended; the order to stop is replied to, if there was one. -/
def conclude (s : Service) : Option Json → Service
  | some id => { s with phase := .ended none }.tell (.reply (Order.reply id (.obj [("ok", .null)])))
  | none => { s with phase := .ended none }

lemma phase_conclude (s : Service) (id : Option Json) : (s.conclude id).phase = .ended none := by
  cases id <;> rfl

lemma inputEnded_conclude (s : Service) (id : Option Json) : (s.conclude id).inputEnded = s.inputEnded := by
  cases id <;> rfl

lemma calls_conclude (s : Service) (id : Option Json) : (s.conclude id).activity.calls = s.activity.calls := by
  cases id <;> rfl

/-- What is done for a line, and the last reply, open nothing. -/
lemma onward_heed (s : Service) (sense : Sense) : Onward s.world (s.heed sense).world := by
  cases sense with
  | unreadable => exact .tell _ _
  | blank | garbled | stop id | order o => exact .refl _

lemma onward_conclude (s : Service) (id : Option Json) : Onward s.world (s.conclude id).world := by
  cases id with
  | none => exact .refl _
  | some id => exact .tell _ _

/-- One step of the listener, if it can make one: it takes up a line, begins to stop, or goes on with stopping by one
access. -/
def listenOnce? (s : Service) : Option Service :=
  match s.phase with
  | .reading =>
    match s.firstLine? with
    | some (line, rest) => some ({ s with input := rest }.heed (Sense.of line))
    | none => if s.inputEnded then some { s with phase := .stopping none endSessions } else none
  | .waiting id => if s.activity.calls.isEmpty then some { s with phase := .stopping (some id) endSessions } else none
  | .stopping id work =>
    match work with
    | .done _ => some (s.conclude id)
    | work => (work.tick? World.holds s.world).map fun (work, w) => { s.inWorld w with phase := .stopping id work }
  | .ended _ => none

/-- A line is taken up when it has arrived. -/
lemma listenOnce?_of_firstLine? {s : Service} (hphase : s.phase = .reading) {line rest : List UInt8}
    (hline : s.firstLine? = some (line, rest)) : s.listenOnce? = some ({ s with input := rest }.heed (Sense.of line)) := by
  unfold listenOnce?
  split
  · rw [hline]
  · next hother => exact nomatch hother.symm.trans hphase
  · next hother => exact nomatch hother.symm.trans hphase
  · next hother => exact nomatch hother.symm.trans hphase

/-- Stopping goes on by single steps. -/
lemma goOnStopping_followed (s : Service) (id : Option Json) (work : Task Wait World Unit) :
    Relation.ReflTransGen (fun a b => a.listenOnce? = some b) { s with phase := .stopping id work }
      (s.goOnStopping id work) := by
  have hsteps : ∀ r, Relation.ReflTransGen (fun a b => a.1.tick? World.holds a.2 = some b) (work, s.world) r →
      Relation.ReflTransGen (fun a b => a.listenOnce? = some b) { s with phase := .stopping id work }
        { s.inWorld r.2 with phase := .stopping id r.1 } := by
    intro r hr
    induction hr with
    | refl => exact .refl
    | @tail b c _ hstep ih =>
      obtain ⟨t, w⟩ := b
      refine ih.tail ?_
      cases t with
      | done u => cases hstep
      | access f next | wait on next =>
        unfold listenOnce?
        dsimp only at hstep ⊢
        show Option.map _ (Task.tick? World.holds _ w) = _
        rw [hstep]
        rfl
  have hrun := hsteps _ (work.run_followed World.holds s.world)
  have hgone : s.activity.goOn work
      = ((work.run World.holds s.world).1, { s.activity with world := (work.run World.holds s.world).2 }) := rfl
  unfold goOnStopping
  rw [hgone]
  generalize work.run World.holds s.world = r at hrun
  obtain ⟨left, w⟩ := r
  cases left with
  | done u => exact hrun.tail rfl
  | access f next | wait on next => exact hrun

/-- A turn of the listener is made of single steps. -/
theorem listen_followed (s : Service) : Relation.ReflTransGen (fun a b => a.listenOnce? = some b) s s.listen.1 := by
  cases hphase : s.phase with
  | reading =>
    cases hline : s.firstLine? with
    | some r =>
      rw [listen_of_firstLine? hphase hline]
      exact .single (listenOnce?_of_firstLine? hphase hline)
    | none =>
      unfold listen
      rw [hphase]
      dsimp only
      rw [hline]
      dsimp only
      split
      · next hended =>
        refine .head ?_ (s.goOnStopping_followed none endSessions)
        unfold listenOnce?
        rw [hphase]
        dsimp only
        rw [hline]
        exact if_pos hended
      · exact .refl
  | waiting id =>
    unfold listen
    rw [hphase]
    dsimp only
    split
    · next hidle =>
      refine .head ?_ (s.goOnStopping_followed (some id) endSessions)
      unfold listenOnce?
      rw [hphase]
      exact if_pos hidle
    · exact .refl
  | stopping id work =>
    have hsteps := s.goOnStopping_followed id work
    rw [← hphase] at hsteps
    unfold listen
    rw [hphase]
    exact hsteps
  | ended fault =>
    unfold listen
    rw [hphase]

end Service

/-! ## Runs -/

/-- A service, and the bytes that the editor has yet to send. -/
structure State where
  service : Service
  unsent : List UInt8

/-- Whose turn it is. -/
inductive Turn where
  /-- So many more bytes come from the editor. -/
  | arrives (count : Nat)
  /-- The input ends, if all of it has come. -/
  | hangsUp
  | listens
  | call (number : Nat)
  /-- Something else happens in the world. -/
  | aside (change : World → World)

/-- One turn; what is not possible changes nothing. -/
def State.after (s : State) : Turn → State
  | .arrives count => ⟨s.service.feed (s.unsent.take count), s.unsent.drop count⟩
  | .hangsUp => if s.unsent = [] then { s with service := s.service.endInput } else s
  | .listens => { s with service := s.service.listenOnce?.getD s.service }
  | .call number =>
    { s with service :=
        { s.service with activity := (s.service.activity.callOnce? number).getD s.service.activity } }
  | .aside change => { s with service := s.service.inWorld (change s.service.world) }

/-- A service with certain commands in a world, the bytes that its editor sends, and the order of turns. -/
structure Run where
  commands : Commands
  proper : commands.Proper
  world : World
  stream : List UInt8
  schedule : Nat → Turn
  /-- What else happens in the world is discreet. -/
  discreet : ∀ n change, schedule n = .aside change → ∀ w, Discreet w (change w)

namespace Run

/-- The service and what is yet to come from the editor after `n` turns. -/
def state (r : Run) : Nat → State
  | 0 => ⟨{ Service.ofWorld r.world with commands := r.commands }, r.stream⟩
  | n + 1 => (r.state n).after (r.schedule n)

variable (r : Run) (n : Nat)

/-- What the service is at then. -/
def phase : Service.Phase := (r.state n).service.phase

/-- The calls under way. -/
def calls : List (Nat × Task Wait World Json) := (r.state n).service.activity.calls

/-- The world then. -/
def worldAt : World := (r.state n).service.world

end Run

namespace State

/-- What one turn can come to. -/
inductive Turns (s : State) (turn : Turn) : State → Prop
  | still : Turns s turn s
  | arrives (first rest : List UInt8) (parts : s.unsent = first ++ rest) : Turns s turn ⟨s.service.feed first, rest⟩
  | hangsUp (sent : s.unsent = []) : Turns s turn ⟨s.service.endInput, s.unsent⟩
  | takes (line rest : List UInt8) (mine : turn = .listens) (reads : s.service.phase = .reading)
      (first : s.service.firstLine? = some (line, rest)) :
    Turns s turn ⟨{ s.service with input := rest }.heed (Sense.of line), s.unsent⟩
  | quits (mine : turn = .listens) (reads : s.service.phase = .reading) (nothing : s.service.firstLine? = none)
      (finished : s.service.inputEnded = true) :
    Turns s turn ⟨{ s.service with phase := .stopping none Service.endSessions }, s.unsent⟩
  | stops (id : Json) (mine : turn = .listens) (waits : s.service.phase = .waiting id)
      (idle : s.service.activity.calls = []) :
    Turns s turn ⟨{ s.service with phase := .stopping (some id) Service.endSessions }, s.unsent⟩
  | ends (id : Option Json) (work work' : Task Wait World Unit) (w : World) (mine : turn = .listens)
      (here : s.service.phase = .stopping id work) (tick : work.tick? World.holds s.service.world = some (work', w)) :
    Turns s turn ⟨{ s.service.inWorld w with phase := .stopping id work' }, s.unsent⟩
  | concludes (id : Option Json) (u : Unit) (mine : turn = .listens) (here : s.service.phase = .stopping id (.done u)) :
    Turns s turn ⟨s.service.conclude id, s.unsent⟩
  | calls (number : Nat) (a : Activity) (other : turn ≠ .listens) (step : s.service.activity.callOnce? number = some a) :
    Turns s turn ⟨{ s.service with activity := a }, s.unsent⟩
  | aside (w : World) (other : turn ≠ .listens) (discreet : Discreet s.service.world w) :
    Turns s turn ⟨s.service.inWorld w, s.unsent⟩

/-- These are all the things that one turn can come to. -/
theorem turns (s : State) {turn : Turn} (hdiscreet : ∀ change, turn = .aside change → ∀ w, Discreet w (change w)) :
    Turns s turn (s.after turn) := by
  cases turn with
  | arrives count => exact .arrives _ _ (List.take_append_drop count s.unsent).symm
  | hangsUp =>
    unfold after
    dsimp only
    split
    · next hsent => exact .hangsUp hsent
    · exact .still
  | listens =>
    unfold after
    dsimp only
    cases hstep : s.service.listenOnce? with
    | none => exact .still
    | some service =>
      unfold Service.listenOnce? at hstep
      split at hstep
      · next hphase =>
        split at hstep
        · next line rest hline =>
          obtain rfl := Option.some.inj hstep
          exact .takes line rest rfl hphase hline
        · next hline =>
          split at hstep
          · next hfinished =>
            obtain rfl := Option.some.inj hstep
            exact .quits rfl hphase hline hfinished
          · cases hstep
      · next id hphase =>
        split at hstep
        · next hidle =>
          obtain rfl := Option.some.inj hstep
          exact .stops id rfl hphase (List.isEmpty_iff.mp hidle)
        · cases hstep
      · next id work hphase =>
        split at hstep
        · next u =>
          obtain rfl := Option.some.inj hstep
          exact .concludes id u rfl hphase
        · obtain ⟨⟨work', w⟩, htick, rfl⟩ := Option.map_eq_some_iff.mp hstep
          exact .ends id work work' w rfl hphase htick
      · cases hstep
  | call number =>
    unfold after
    dsimp only
    cases hstep : s.service.activity.callOnce? number with
    | none => exact .still
    | some a => exact .calls number a nofun hstep
  | aside change => exact .aside _ nofun (hdiscreet change rfl _)

end State

lemma Run.turns (r : Run) (n : Nat) : (r.state n).Turns (r.schedule n) (r.state (n + 1)) :=
  (r.state n).turns (r.discreet n)

end Editor

end Switchboard
