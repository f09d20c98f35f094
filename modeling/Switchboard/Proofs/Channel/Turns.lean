import Switchboard.Proofs.Channel.Traffic

/-!
# Taking turns for the handshake

* `Stages`, `Handshake`: a handshake told by its stages; `Handshake.ofCall`: any call is one;
* `Place`: where a caller of `Network.initializeWith` is, one place for each of its accesses;
* `Place.tick_work`: a step of the work is a step from place to place; `Place.Goes`: what such a step can be;
* `Place.looked?`: what a caller made of its look at the phase; `Place.outgoing_next`, `mild_of_ne`: what else steps do;
* `Stand`, `Stand.Moves`: the same as far as the door is concerned;
* `Orderly`: what holds of the door and all that stand at it, kept by every move and every nudge.
-/

namespace Switchboard.Network

/-! ## Places -/

/-- How a caller of `initializeWith` fares: its handshake returned, or it found the channel in some phase. -/
inductive Ending where
  | shook (result : Except Channel.Fault Unit)
  | found (phase : Phase)

/-- What the caller returns. -/
def Ending.result : Ending → Except Channel.Fault Unit
  | shook result => result
  | found .closed => .error .closed
  | found _ => .ok ()

/-- The phase that the caller found, if that is how it fared. -/
def Ending.found? : Ending → Option Phase
  | shook _ => none
  | found phase => some phase

/-- What is left of a handshake. -/
abbrev Shaking := Task Wait Network (Except Channel.Fault Unit)

/-- Stages of a handshake: one step of each, and what is left to do at it. A step leads to another stage or to the end. -/
structure Stages (γ : Type) where
  next : γ → Network → Option ((γ ⊕ Except Channel.Fault Unit) × Network)
  left : γ → Shaking
  live : ∀ g, (left g).result? = none
  tick : ∀ g n, (left g).tick? Wait.holds n = (next g n).map fun r => (r.1.elim left Task.done, r.2)

/-- A handshake told by its stages. -/
structure Handshake (γ : Type) extends Stages γ where
  first : γ ⊕ Except Channel.Fault Unit

namespace Handshake

variable {γ : Type} (h : Handshake γ)

/-- What is left to do at a stage or at the end. -/
def rest (at_ : γ ⊕ Except Channel.Fault Unit) : Shaking := at_.elim h.left Task.done

/-- All that there is to do. -/
def call : Call Unit := ExceptT.mk (h.rest h.first)

/-- What the handshake does is allowed. -/
def Within (R : Network → Network → Prop) : Prop := (h.rest h.first).Within R

lemma Within.mono {h : Handshake γ} {R S : Network → Network → Prop} (hRS : ∀ n n', R n n' → S n n')
    (hh : h.Within R) : h.Within S := Task.Within.mono hRS hh

end Handshake

/-- A handshake that has something left to do. -/
abbrev Live := { left : Shaking // left.result? = none }

/-- Something is left to do, or there is a result. -/
def Live.ofTask : Shaking → Live ⊕ Except Channel.Fault Unit
  | .done result => .inr result
  | .access f next => .inl ⟨.access f next, rfl⟩
  | .wait on next => .inl ⟨.wait on next, rfl⟩

lemma Live.elim_ofTask (left : Shaking) : (Live.ofTask left).elim (·.1) Task.done = left := by
  cases left <;> rfl

/-- Any handshake, whose stages are what is left of it. -/
def Handshake.ofCall (call : Call Unit) : Handshake Live where
  first := Live.ofTask call.outcome
  next g n := (g.1.tick? Wait.holds n).map fun (left, n) => (Live.ofTask left, n)
  left := (·.1)
  live g := g.2
  tick g n := by simp only [Option.map_map, Function.comp_def, Live.elim_ofTask, Prod.mk.eta, Option.map_id']

lemma Handshake.call_ofCall (call : Call Unit) : (Handshake.ofCall call).call = call := Live.elim_ofTask call.outcome

/-- Where a caller of `initializeWith` is. -/
inductive Place (γ : Type) where
  /-- Before it takes a turn. -/
  | arriving
  | queueing (ticket : Nat)
  /-- Its turn is on, and it is about to look at the phase. -/
  | looking (ticket : Nat)
  /-- Nobody shook hands, and it is about to mark the channel. -/
  | entering (ticket : Nat)
  /-- Its handshake is running. -/
  | shaking (ticket : Nat) (stage : γ)
  /-- Its handshake failed, and it is about to take the mark back. -/
  | reverting (ticket : Nat) (fault : Channel.Fault)
  /-- It is about to pass its turn on. -/
  | leaving (ticket : Nat) (ending : Ending)
  | gone (ending : Ending)

namespace Place

variable {γ : Type}

/-- The place of a caller whose handshake has come to a stage or to its end. -/
def resume (ticket : Nat) : γ ⊕ Except Channel.Fault Unit → Place γ
  | .inl stage => shaking ticket stage
  | .inr (.ok ()) => leaving ticket (.shook (.ok ()))
  | .inr (.error fault) => reverting ticket fault

lemma eq_gone_or (p : Place γ) : (∃ ending, p = gone ending) ∨ ∀ ending, p ≠ gone ending := by
  cases p with
  | gone ending => exact .inl ⟨ending, rfl⟩
  | _ => exact .inr fun _ hgone => nomatch hgone

section Work

variable (c : ChannelId) (h : Handshake γ)

/-- What is left to do when a turn is over. -/
def leavingCall (ending : Ending) : Call Unit := do
  passTurn c
  Attempt.ofExcept ending.result

/-- What is left to do when it is known how a handshake ended. -/
def settlingCall : Except Channel.Fault Unit → Call Unit
  | .ok () => passTurn c
  | .error e => do
    setPhase c .notInitialized
    passTurn c
    throw e

/-- What is left to do when nobody shook hands. -/
def enteringCall : Call Unit := do
  setPhase c .initializing
  match ← Attempt.ofTask h.call.outcome with
  | .ok () => passTurn c
  | .error e => do
    setPhase c .notInitialized
    passTurn c
    throw e

/-- What is left to do when the turn is on. -/
def lookingCall : Call Unit := do
  let n ← Attempt.ofTask Task.state
  match (n.channel c).phase with
  | .ready => passTurn c
  | .initializing => passTurn c
  | .closed => do
    passTurn c
    throw .closed
  | .notInitialized => enteringCall c h

/-- What is left to do at a place. -/
def work : Place γ → Task Wait Network (Except Channel.Fault Unit)
  | arriving => (initializeWith c h.call).outcome
  | queueing ticket => Attempt.outcome do
    Attempt.ofTask (Task.await (.turn c ticket))
    lookingCall c h
  | looking _ => (lookingCall c h).outcome
  | entering _ => (enteringCall c h).outcome
  | shaking _ stage => (h.left stage).andThen fun result => (settlingCall c result).outcome
  | reverting _ fault => (settlingCall c (.error fault)).outcome
  | leaving _ ending => (leavingCall c ending).outcome
  | gone ending => .done ending.result

/-- One step, if the place allows one. -/
def next (n : Network) : Place γ → Option (Place γ × Network)
  | arriving => some (queueing (takeTurn c n).1, (takeTurn c n).2)
  | queueing ticket => if Wait.holds (.turn c ticket) n then some (looking ticket, n) else none
  | looking ticket =>
    if (n.channel c).phase = .notInitialized then some (entering ticket, n)
    else some (leaving ticket (.found (n.channel c).phase), n)
  | entering ticket => some (resume ticket h.first, n.update c (·.setPhase .initializing))
  | shaking ticket stage => (h.next stage n).map fun (stage, n) => (resume ticket stage, n)
  | reverting ticket fault => some (leaving ticket (.shook (.error fault)), n.update c (·.setPhase .notInitialized))
  | leaving _ ending => some (gone ending, n.update c fun ch => { ch with turn := ch.turn + 1 })
  | gone _ => none

variable {c h}

/-- A caller whose handshake has come so far has the rest of its call to do. -/
lemma work_resume (ticket : Nat) (stage : γ ⊕ Except Channel.Fault Unit) :
    (resume ticket stage).work c h = (h.rest stage).andThen fun result => (settlingCall c result).outcome := by
  rcases stage with stage | fault | -
  · rfl
  · rfl
  · rfl

/-- When nobody shook hands the handshake and the rest of the call are left to do. -/
lemma tick_entering (ticket : Nat) (n : Network) :
    ((entering ticket).work c h).tick? Wait.holds n
      = some ((h.rest h.first).andThen fun result => (settlingCall c result).outcome,
          n.update c (·.setPhase .initializing)) := by
  have hrest : ((Attempt.ofTask h.call.outcome : Call (Except Channel.Fault Unit)) >>= settlingCall c).outcome
      = (h.rest h.first).andThen fun result => (settlingCall c result).outcome := by
    exact Task.andThen_assoc _ _ _
  rw [← hrest]
  rfl

/-- A step of the work that is left at a place leads to the work that is left at the next one. -/
theorem tick_work (p : Place γ) (n : Network) :
    (p.work c h).tick? Wait.holds n = (p.next c h n).map fun (p, n) => (p.work c h, n) := by
  cases p with
  | arriving => rfl
  | queueing ticket =>
    show (if Wait.holds (.turn c ticket) n then some ((lookingCall c h).outcome, n) else none) = _
    cases hturn : Wait.holds (.turn c ticket) n <;> simp only [next, hturn] <;> rfl
  | looking ticket =>
    have hlook : ((looking ticket).work c h).tick? Wait.holds n
        = some ((match (n.channel c).phase with
          | .ready => passTurn c
          | .initializing => passTurn c
          | .closed => passTurn c >>= fun _ => throw .closed
          | .notInitialized => enteringCall c h : Call Unit).outcome, n) := rfl
    rw [hlook]
    cases hphase : (n.channel c).phase <;> simp only [next, hphase] <;> rfl
  | entering ticket =>
    rw [tick_entering]
    simp only [next, Option.map_some, work_resume]
  | shaking ticket stage =>
    simp only [next, Option.map_map]
    rw [work, Task.tick?_andThen (h.live stage), h.tick, Option.map_map]
    congr 1
    funext r
    rw [Function.comp_apply, Function.comp_apply, work_resume]
    rfl
  | reverting ticket fault => rfl
  | leaving ticket ending => rfl
  | gone ending => rfl

/-- Only a caller that is gone has nothing left to do. -/
lemma result?_work {p : Place γ} (hp : ∀ ending, p ≠ gone ending) : (p.work c h).result? = none := by
  cases p with
  | gone ending => exact absurd rfl (hp ending)
  | shaking ticket stage => exact Task.result?_andThen (h.live stage) _
  | _ => rfl

/-- A step of the work that is left at a place, and of what comes after it. -/
lemma tick_work_andThen {β : Type} (k : Except Channel.Fault Unit → Task Wait Network β) {p : Place γ}
    (hp : ∀ ending, p ≠ gone ending) (n : Network) :
    ((p.work c h).andThen k).tick? Wait.holds n
      = (p.next c h n).map fun (p, n) => ((p.work c h).andThen k, n) := by
  rw [Task.tick?_andThen (result?_work hp), tick_work, Option.map_map]
  rfl

end Work

end Place

/-! ## Standing at the door -/

/-- Where a caller is, as far as the door is concerned. -/
inductive Stand where
  | away
  | queued (ticket : Nat)
  | looking (ticket : Nat)
  | entering (ticket : Nat)
  | shaking (ticket : Nat)
  | reverting (ticket : Nat)
  | leaving (ticket : Nat)

namespace Stand

/-- The turn that was taken and not passed on. -/
def ticket? : Stand → Option Nat
  | away => none
  | queued k | looking k | entering k | shaking k | reverting k | leaving k => some k

/-- The turn that is on. -/
def turn? : Stand → Option Nat
  | away | queued _ => none
  | looking k | entering k | shaking k | reverting k | leaving k => some k

/-- The channel is marked for the handshake of this caller. -/
def IsMarked : Stand → Prop
  | shaking _ | reverting _ => True
  | _ => False

/-- This caller found that nobody shook hands, and is not through with its own handshake. -/
def IsInside : Stand → Prop
  | entering _ | shaking _ | reverting _ => True
  | _ => False

/-- Where a caller stands whose handshake ended like this, or goes on. -/
def afterwards (ticket : Nat) : Option Bool → Stand
  | none => shaking ticket
  | some true => leaving ticket
  | some false => reverting ticket

/-- One step of somebody who stands at a door. If its handshake ends in this step, `ended` says whether well. -/
inductive Moves : Stand → Door → (ended : Option Bool) → Stand → Door → Prop
  | takes (d : Door) : Moves away d none (queued d.given) { d with given := d.given + 1 }
  | called (d : Door) : Moves (queued d.turn) d none (looking d.turn) d
  | passes (k : Nat) (d : Door) (found : d.phase ≠ .notInitialized) : Moves (looking k) d none (leaving k) d
  | begins (k : Nat) (d : Door) (found : d.phase = .notInitialized) : Moves (looking k) d none (entering k) d
  | enters (k : Nat) (d : Door) (ended : Option Bool) :
    Moves (entering k) d ended (afterwards k ended) (d.set .initializing)
  | works (k : Nat) (d d' : Door) (ended : Option Bool) (nudged : d.Nudged d') :
    Moves (shaking k) d ended (afterwards k ended) d'
  | reverts (k : Nat) (d : Door) : Moves (reverting k) d none (leaving k) (d.set .notInitialized)
  | leaves (k : Nat) (d : Door) : Moves (leaving k) d none away d.pass

/-- What is closed stays closed. -/
lemma Moves.ages {s s' : Stand} {d d' : Door} {ended : Option Bool} (h : s.Moves d ended s' d')
    (hclosed : d.phase = .closed) : d'.phase = .closed := by
  cases h with
  | takes | called | passes | begins | leaves => exact hclosed
  | enters | reverts => rw [Door.set, if_pos hclosed, hclosed]
  | works k _ _ _ nudged => exact nudged.ages hclosed

/-- Ready is taken back only where somebody marks the channel, or takes a mark back. -/
lemma Moves.of_ready {s s' : Stand} {d d' : Door} {ended : Option Bool} (h : s.Moves d ended s' d')
    (hready : d.phase = .ready) :
    d'.phase = .ready ∨ d'.phase = .closed ∨ (∃ k, s = entering k ∧ d'.phase = .initializing) ∨
      ∃ k, s = reverting k ∧ d'.phase = .notInitialized := by
  have hset : ∀ next, (d.set next).phase = next := by
    intro next
    rw [Door.set, if_neg (by simp [hready])]
  cases h with
  | takes | called | passes | begins | leaves => exact .inl hready
  | enters k => exact .inr (.inr (.inl ⟨k, rfl, hset _⟩))
  | works k _ _ _ nudged =>
    exact (nudged.of_ready hready).imp_right .inl
  | reverts k => exact .inr (.inr (.inr ⟨k, rfl, hset _⟩))

/-- Only a handshake makes a channel ready, as far as somebody at its door does. -/
lemma Moves.ready_of_ready {s s' : Stand} {d d' : Door} {ended : Option Bool} (h : s.Moves d ended s' d')
    (hready : d'.phase = .ready) : d.phase = .ready ∨ ∃ k, s = shaking k := by
  have hset : ∀ next, next ≠ .ready → (d.set next).phase ≠ .ready := by
    intro next hnext
    rcases Door.phase_set (d := d) next with ⟨h, -⟩ | h
    · rw [h]
      nofun
    · rwa [h]
  cases h with
  | takes | called | passes | begins | leaves => exact .inl hready
  | enters | reverts => exact absurd hready (hset _ nofun)
  | works k => exact .inr ⟨k, rfl⟩

/-- Without a look at the phase nobody comes to a handshake. -/
lemma Moves.of_outside {s s' : Stand} {d d' : Door} {ended : Option Bool} (h : s.Moves d ended s' d')
    (hlooking : ∀ k, s ≠ looking k) (houtside : ∀ k, s ≠ entering k ∧ s ≠ shaking k) :
    ended = none ∧ ∀ k, s' ≠ entering k ∧ s' ≠ shaking k := by
  cases h with
  | takes | called | reverts | leaves => exact ⟨rfl, fun k => ⟨nofun, nofun⟩⟩
  | passes k | begins k => exact absurd rfl (hlooking k)
  | enters k => exact absurd rfl (houtside k).1
  | works k => exact absurd rfl (houtside k).2

/-- A channel that was tried and is not marked stays so without a handshake, and nobody comes to one. -/
lemma Moves.of_settled {s s' : Stand} {d d' : Door} {ended : Option Bool} (h : s.Moves d ended s' d')
    (hphase : d.phase = .ready ∨ d.phase = .closed) (houtside : ¬ s.IsInside) :
    (d'.phase = .ready ∨ d'.phase = .closed) ∧ ¬ s'.IsInside := by
  cases h with
  | takes | called | passes | leaves => exact ⟨hphase, id⟩
  | begins k _ found =>
    rcases hphase with hphase | hphase
    · cases hphase.symm.trans found
    · cases hphase.symm.trans found
  | enters | works | reverts => exact absurd trivial houtside

lemma ticket?_eq_of_turn? {s : Stand} {k : Nat} (h : s.turn? = some k) : s.ticket? = some k := by
  cases s <;> first | exact h | cases h

lemma IsMarked.inside {s : Stand} (h : s.IsMarked) : s.IsInside := by
  cases s <;> first | exact h.elim | trivial

lemma IsInside.turn? {s : Stand} (h : s.IsInside) : ∃ k, s.turn? = some k := by
  cases s <;> first | exact h.elim | exact ⟨_, rfl⟩

end Stand

/-- The turns of all that stand at a door: each has its own, and who is past the queue has the one that is on. -/
structure Queue (d : Door) (stands : Nat → Stand) : Prop where
  counted : d.turn ≤ d.given
  given : ∀ i k, (stands i).ticket? = some k → d.turn ≤ k ∧ k < d.given
  apart : ∀ i j k, (stands i).ticket? = some k → (stands j).ticket? = some k → i = j
  on : ∀ i k, (stands i).turn? = some k → k = d.turn

namespace Queue

variable {d d' : Door} {stands : Nat → Stand} {i : Nat} {s : Stand}

/-- Nobody else is past the queue. -/
lemma alone (h : Queue d stands) {j k l : Nat} (hi : (stands i).turn? = some k) (hj : (stands j).turn? = some l) :
    i = j := by
  obtain rfl := h.on i k hi
  obtain rfl := h.on j l hj
  exact h.apart i j _ (Stand.ticket?_eq_of_turn? hi) (Stand.ticket?_eq_of_turn? hj)

/-- Turns do not depend on the phase. -/
lemma of_door (h : Queue d stands) (hturn : d'.turn = d.turn) (hgiven : d'.given = d.given) : Queue d' stands where
  counted := by rw [hturn, hgiven]; exact h.counted
  given j k hj := by rw [hturn, hgiven]; exact h.given j k hj
  apart := h.apart
  on j k hj := hturn ▸ h.on j k hj

/-- Somebody moves on and keeps its turn. -/
lemma keep (h : Queue d stands) {k : Nat} (hold : (stands i).ticket? = some k) (hnew : s.ticket? = some k)
    (hon : k = d.turn) : Queue d (Function.update stands i s) where
  counted := h.counted
  given j l hj := by
    by_cases hji : j = i
    · subst hji
      rw [Function.update_self, hnew] at hj
      exact h.given j l (hold.trans hj)
    · rw [Function.update_of_ne hji] at hj
      exact h.given j l hj
  apart j j' l hj hj' := by
    have hticket : ∀ j, (Function.update stands i s j).ticket? = (stands j).ticket? := by
      intro j
      by_cases hji : j = i
      · subst hji
        rw [Function.update_self, hnew, hold]
      · rw [Function.update_of_ne hji]
    rw [hticket] at hj hj'
    exact h.apart j j' l hj hj'
  on j l hj := by
    by_cases hji : j = i
    · subst hji
      rw [Function.update_self] at hj
      have hl := (Stand.ticket?_eq_of_turn? hj).symm.trans hnew
      exact (Option.some.inj hl).trans hon
    · rw [Function.update_of_ne hji] at hj
      exact h.on j l hj

/-- Somebody takes the next turn. -/
lemma take (h : Queue d stands) :
    Queue { d with given := d.given + 1 } (Function.update stands i (.queued d.given)) where
  counted := Nat.le_succ_of_le h.counted
  given j k hj := by
    by_cases hji : j = i
    · subst hji
      rw [Function.update_self] at hj
      obtain rfl := Option.some.inj hj
      exact ⟨h.counted, Nat.lt_succ_self _⟩
    · rw [Function.update_of_ne hji] at hj
      have := h.given j k hj
      exact ⟨this.1, Nat.lt_succ_of_lt this.2⟩
  apart j j' k hj hj' := by
    -- the new turn was not given before
    have hnew : ∀ j, j ≠ i → (stands j).ticket? ≠ some d.given := fun j _ hj =>
      absurd (h.given j _ hj).2 (Nat.lt_irrefl _)
    by_cases hji : j = i <;> by_cases hji' : j' = i
    · rw [hji, hji']
    · rw [hji, Function.update_self] at hj
      rw [Function.update_of_ne hji'] at hj'
      exact absurd (hj'.trans hj.symm) (hnew j' hji')
    · rw [hji', Function.update_self] at hj'
      rw [Function.update_of_ne hji] at hj
      exact absurd (hj.trans hj'.symm) (hnew j hji)
    · rw [Function.update_of_ne hji] at hj
      rw [Function.update_of_ne hji'] at hj'
      exact h.apart j j' k hj hj'
  on j k hj := by
    by_cases hji : j = i
    · subst hji
      rw [Function.update_self] at hj
      cases hj
    · rw [Function.update_of_ne hji] at hj
      exact h.on j k hj

/-- Somebody passes its turn on. -/
lemma pass (h : Queue d stands) {k : Nat} (hi : (stands i).turn? = some k) :
    Queue d.pass (Function.update stands i .away) where
  counted := by
    have := h.given i k (Stand.ticket?_eq_of_turn? hi)
    have := h.on i k hi
    show d.turn + 1 ≤ d.given
    omega
  given j l hj := by
    by_cases hji : j = i
    · subst hji
      rw [Function.update_self] at hj
      cases hj
    · rw [Function.update_of_ne hji] at hj
      have hl := h.given j l hj
      have hne : l ≠ d.turn := by
        rintro rfl
        obtain rfl := h.on i k hi
        exact hji (h.apart j i _ hj (Stand.ticket?_eq_of_turn? hi))
      exact ⟨by show d.turn + 1 ≤ l; omega, hl.2⟩
  apart j j' l hj hj' := by
    have hsame : ∀ j, (Function.update stands i .away j).ticket? = some l → (stands j).ticket? = some l := by
      intro j hj
      by_cases hji : j = i
      · subst hji
        rw [Function.update_self] at hj
        cases hj
      · rwa [Function.update_of_ne hji] at hj
    exact h.apart j j' l (hsame j hj) (hsame j' hj')
  on j l hj := by
    by_cases hji : j = i
    · subst hji
      rw [Function.update_self] at hj
      cases hj
    · rw [Function.update_of_ne hji] at hj
      exact absurd (h.alone hj hi) hji

lemma move (h : Queue d stands) {ended : Option Bool} (hmove : (stands i).Moves d ended s d') :
    Queue d' (Function.update stands i s) := by
  have hgo : ∀ {k : Nat}, (stands i).ticket? = some k → k = d.turn → (s.ticket? = some k) →
      d'.turn = d.turn → d'.given = d.given → Queue d' (Function.update stands i s) := by
    intro k hold hon hnew hturn hgiven
    exact (h.keep hold hnew hon).of_door hturn hgiven
  have hafter : ∀ k ended, (Stand.afterwards k ended).ticket? = some k := by
    intro k ended
    rcases ended with - | - | - <;> rfl
  generalize hs : stands i = s₀ at hmove hgo
  cases hmove with
  | takes => exact h.take
  | called => exact hgo rfl rfl rfl rfl rfl
  | passes k _ _ => exact hgo rfl (h.on i k (by rw [hs]; rfl)) rfl rfl rfl
  | begins k _ _ => exact hgo rfl (h.on i k (by rw [hs]; rfl)) rfl rfl rfl
  | enters k =>
    exact hgo rfl (h.on i k (by rw [hs]; rfl)) (hafter k _) (Door.turn_set _) (Door.given_set _)
  | works k _ _ _ nudged =>
    exact hgo rfl (h.on i k (by rw [hs]; rfl)) (hafter k _) nudged.turn nudged.given
  | reverts k => exact hgo rfl (h.on i k (by rw [hs]; rfl)) rfl (Door.turn_set _) (Door.given_set _)
  | leaves k => exact h.pass (k := k) (by rw [hs]; rfl)

end Queue

/-- What holds of a door and of all that stand at it; `shaken` says that some handshake ended well. -/
structure Orderly (d : Door) (stands : Nat → Stand) (shaken : Prop) : Prop extends Queue d stands where
  /-- While the channel is marked for somebody nobody else finds that no handshake was tried. -/
  marked : ∀ i, (stands i).IsMarked → d.phase ≠ .notInitialized
  once : shaken → d.phase ≠ .notInitialized ∧ ∀ i, ¬ (stands i).IsInside
  /-- A channel that is marked is marked for somebody, or a handshake ended well. -/
  only : d.phase = .initializing → shaken ∨ ∃ i, (stands i).IsMarked

namespace Orderly

variable {d d' : Door} {stands : Nat → Stand} {shaken : Prop} {i : Nat} {s : Stand}

/-- At a door at which nobody was. -/
lemma fresh (hphase : d.phase ≠ .initializing) (hturns : d.turn ≤ d.given) : Orderly d (fun _ => .away) False where
  counted := hturns
  given _ _ := nofun
  apart _ _ _ := nofun
  on _ _ := nofun
  marked _ := nofun
  once := nofun
  only h := absurd h hphase

/-- Something else happens. -/
lemma aside (h : Orderly d stands shaken) (hn : d.Nudged d') : Orderly d' stands shaken where
  toQueue := h.toQueue.of_door hn.turn hn.given
  marked j hj hd := h.marked j hj (hn.phase_eq hd nofun nofun)
  once hs := ⟨fun hd => (h.once hs).1 (hn.phase_eq hd nofun nofun), (h.once hs).2⟩
  only hd := h.only (hn.phase_eq hd nofun nofun)

/-- Nobody else is past the queue, so nobody else is inside. -/
lemma alone (h : Orderly d stands shaken) {j : Nat} (hi : (stands i).IsInside) (hj : (stands j).turn? ≠ none) :
    j = i := by
  obtain ⟨k, hk⟩ := hi.turn?
  obtain ⟨l, hl⟩ := Option.ne_none_iff_exists'.mp hj
  exact h.toQueue.alone hl hk

/-- Who is about to mark the channel finds it unmarked. -/
lemma phase_of_entering (h : Orderly d stands shaken) {k : Nat} (hi : stands i = .entering k) :
    d.phase ≠ .initializing := by
  intro hphase
  have hinside : (stands i).IsInside := by
    rw [hi]
    trivial
  rcases h.only hphase with hsh | ⟨j, hj⟩
  · exact (h.once hsh).2 i hinside
  · obtain ⟨l, hl⟩ := hj.inside.turn?
    obtain rfl := h.alone hinside (by rw [hl]; nofun)
    rw [hi] at hj
    exact hj

/-- Who finds the channel marked in its turn comes after a handshake that ended well. -/
lemma shaken_of_looking (h : Orderly d stands shaken) {k : Nat} (hi : stands i = .looking k)
    (hphase : d.phase = .initializing) : shaken := by
  rcases h.only hphase with hsh | ⟨j, hj⟩
  · exact hsh
  · obtain rfl : i = j := h.alone hj.inside (by rw [hi]; nofun)
    rw [hi] at hj
    exact hj.elim

/-- Who is inside leaves the others as they are: none of them is inside. -/
lemma not_inside_update (h : Orderly d stands shaken) (hi : (stands i).IsInside) {j : Nat} (hji : j ≠ i) :
    ¬ (Function.update stands i s j).IsInside := by
  intro hj
  rw [Function.update_of_ne hji] at hj
  obtain ⟨l, hl⟩ := hj.turn?
  exact hji (h.alone hi (by rw [hl]; nofun))

/-- A step from outside to outside that leaves the phase alone. -/
lemma outside (h : Orderly d stands shaken) (hq : Queue d' (Function.update stands i s))
    (hphase : d'.phase = d.phase) (hi : ¬ (stands i).IsInside) (hs : ¬ s.IsInside) :
    Orderly d' (Function.update stands i s) shaken where
  toQueue := hq
  marked j hj := by
    rw [hphase]
    by_cases hji : j = i
    · subst hji
      rw [Function.update_self] at hj
      exact absurd hj.inside hs
    · rw [Function.update_of_ne hji] at hj
      exact h.marked j hj
  once hsh := by
    refine ⟨hphase ▸ (h.once hsh).1, ?_⟩
    intro j
    by_cases hji : j = i
    · subst hji
      rwa [Function.update_self]
    · rw [Function.update_of_ne hji]
      exact (h.once hsh).2 j
  only hd := by
    refine (h.only (hphase ▸ hd)).imp_right ?_
    rintro ⟨j, hj⟩
    have hji : j ≠ i := by
      rintro rfl
      exact hi hj.inside
    exact ⟨j, by rwa [Function.update_of_ne hji]⟩

/-- A step of a handshake, which ends or goes on. -/
lemma shake (h : Orderly d stands shaken) {k : Nat} {ended : Option Bool}
    (hq : Queue d' (Function.update stands i (.afterwards k ended))) (hi : (stands i).IsInside)
    (hphase : d'.phase ≠ .notInitialized) :
    Orderly d' (Function.update stands i (.afterwards k ended)) (shaken ∨ ended = some true) where
  toQueue := hq
  marked _ _ := hphase
  once hsh := by
    refine ⟨hphase, ?_⟩
    intro j
    by_cases hji : j = i
    · subst hji
      obtain hold | rfl := hsh
      · exact absurd hi ((h.once hold).2 j)
      · rw [Function.update_self]
        exact id
    · exact h.not_inside_update hi hji
  only _ := by
    rcases ended with - | - | -
    · exact .inr ⟨i, by rw [Function.update_self]; trivial⟩
    · exact .inr ⟨i, by rw [Function.update_self]; trivial⟩
    · exact .inl (.inr rfl)

/-- Every move keeps the order. -/
theorem move (h : Orderly d stands shaken) {ended : Option Bool} (hmove : (stands i).Moves d ended s d') :
    Orderly d' (Function.update stands i s) (shaken ∨ ended = some true) := by
  have hq := h.toQueue.move hmove
  have hkept : (shaken ∨ (none : Option Bool) = some true) = shaken := by simp
  have hinside : ∀ s₀, stands i = s₀ → s₀.IsInside → (stands i).IsInside := fun _ heq hi => heq ▸ hi
  generalize hs : stands i = s₀ at hmove
  cases hmove with
  | takes | called | passes | leaves =>
    rw [hkept]
    refine h.outside hq rfl ?_ ?_
    · rw [hs]
      exact id
    · exact id
  | begins k _ found =>
    rw [hkept]
    have hnone : ¬ shaken := fun hsh => (h.once hsh).1 found
    refine ⟨hq, ?_, fun hsh => absurd hsh hnone, fun hd => absurd (hd.symm.trans found) nofun⟩
    intro j hj
    have hji : j ≠ i := by
      rintro rfl
      rw [Function.update_self] at hj
      exact hj
    rw [Function.update_of_ne hji] at hj
    exact h.marked j hj
  | enters k =>
    refine h.shake hq (hinside _ hs trivial) ?_
    rcases Door.phase_set (d := d) .initializing with ⟨hd, -⟩ | hd
    · rw [hd]
      nofun
    · rw [hd]
      nofun
  | works k _ _ _ nudged =>
    refine h.shake hq (hinside _ hs trivial) ?_
    intro hd
    exact h.marked i (by rw [hs]; trivial) (nudged.phase_eq hd nofun nofun)
  | reverts k =>
    have hi := hinside _ hs trivial
    rw [hkept]
    have hnone : ¬ shaken := fun hsh => (h.once hsh).2 i hi
    have hout : ∀ j, ¬ (Function.update stands i (.leaving k) j).IsInside := by
      intro j
      by_cases hji : j = i
      · subst hji
        rw [Function.update_self]
        exact id
      · exact h.not_inside_update hi hji
    refine ⟨hq, fun j hj => absurd hj.inside (hout j), fun hsh => absurd hsh hnone, ?_⟩
    intro hd
    rcases Door.phase_set (d := d) .notInitialized with ⟨hc, -⟩ | hc
    · exact absurd (hd.symm.trans hc) nofun
    · exact absurd (hd.symm.trans hc) nofun

end Orderly

/-! ## Places at the door -/

namespace Place

variable {γ : Type}

/-- Where a caller stands. -/
def stand : Place γ → Stand
  | arriving | gone _ => .away
  | queueing k => .queued k
  | looking k => .looking k
  | entering k => .entering k
  | shaking k _ => .shaking k
  | reverting k _ => .reverting k
  | leaving k _ => .leaving k

/-- How the handshake of a caller returned. -/
def shook? : Place γ → Option (Except Channel.Fault Unit)
  | reverting _ fault => some (.error fault)
  | leaving _ (.shook result) | gone (.shook result) => some result
  | _ => none

/-- The handshake of a caller returned well. -/
def IsShaken (p : Place γ) : Prop := p.shook? = some (.ok ())

lemma isShaken_gone (ending : Ending) : (gone ending : Place γ).IsShaken ↔ ending = .shook (.ok ()) := by
  cases ending with
  | shook result => simp [IsShaken, shook?]
  | found phase => simp [IsShaken, shook?]

/-- What a caller made of its look at the phase once that is behind it: it shakes hands, or it left in this phase. -/
def looked? : Place γ → Option (Option Phase)
  | arriving | queueing _ | looking _ => none
  | entering _ | shaking _ _ | reverting _ _ => some none
  | leaving _ ending | gone ending => some ending.found?

/-- What is left of a handshake does as `R` allows. -/
def Within (h : Handshake γ) (R : Network → Network → Prop) : Place γ → Prop
  | shaking _ stage => (h.left stage).Within R
  | _ => True

lemma stand_eq_entering {p : Place γ} {k : Nat} (hp : p.stand = .entering k) : p = entering k := by
  cases p with
  | entering ticket =>
    cases hp
    rfl
  | _ => cases hp

lemma stand_eq_reverting {p : Place γ} {k : Nat} (hp : p.stand = .reverting k) : ∃ fault, p = reverting k fault := by
  cases p with
  | reverting ticket fault =>
    cases hp
    exact ⟨fault, rfl⟩
  | _ => cases hp

/-- How a handshake ended, if it has: well or not. -/
def endedWell? : γ ⊕ Except Channel.Fault Unit → Option Bool
  | .inl _ => none
  | .inr result => some result.isOk

lemma stand_resume (ticket : Nat) (stage : γ ⊕ Except Channel.Fault Unit) :
    (resume ticket stage).stand = .afterwards ticket (endedWell? stage) := by
  rcases stage with stage | fault | -
  · rfl
  · rfl
  · rfl

lemma looked?_resume (ticket : Nat) (stage : γ ⊕ Except Channel.Fault Unit) :
    (resume ticket stage).looked? = some none := by
  rcases stage with stage | fault | -
  · rfl
  · rfl
  · rfl

lemma isShaken_resume (ticket : Nat) (stage : γ ⊕ Except Channel.Fault Unit) :
    (resume ticket stage).IsShaken ↔ endedWell? stage = some true := by
  rcases stage with stage | fault | - <;> simp [IsShaken, resume, shook?, endedWell?, Except.isOk, Except.toBool]

section Moves

variable {c : ChannelId} {h : Handshake γ} {n n' : Network} {p p' : Place γ} {R S : Network → Network → Prop}

/-- What a step of a caller can be. -/
inductive Goes (c : ChannelId) (h : Handshake γ) (n : Network) : Place γ → Place γ → Network → Prop
  | takes : Goes c h n arriving (queueing (takeTurn c n).1) (takeTurn c n).2
  | called (k : Nat) (on : (n.channel c).turn = k) : Goes c h n (queueing k) (looking k) n
  | begins (k : Nat) (found : (n.channel c).phase = .notInitialized) : Goes c h n (looking k) (entering k) n
  | passes (k : Nat) (phase : Phase) (found : (n.channel c).phase = phase) (tried : phase ≠ .notInitialized) :
    Goes c h n (looking k) (leaving k (.found phase)) n
  | enters (k : Nat) : Goes c h n (entering k) (resume k h.first) (n.update c (·.setPhase .initializing))
  | works (k : Nat) (stage : γ) (stage' : γ ⊕ Except Channel.Fault Unit) (n' : Network)
    (step : h.next stage n = some (stage', n')) : Goes c h n (shaking k stage) (resume k stage') n'
  | reverts (k : Nat) (fault : Channel.Fault) :
    Goes c h n (reverting k fault) (leaving k (.shook (.error fault))) (n.update c (·.setPhase .notInitialized))
  | leaves (k : Nat) (ending : Ending) :
    Goes c h n (leaving k ending) (gone ending) (n.update c fun ch => { ch with turn := ch.turn + 1 })

lemma goes (hp : p.next c h n = some (p', n')) : Goes c h n p p' n' := by
  cases p with
  | arriving =>
    obtain ⟨rfl, rfl⟩ := Prod.mk.inj (Option.some.inj hp)
    exact .takes
  | queueing ticket =>
    simp only [next] at hp
    split at hp
    · next hturn =>
      obtain ⟨rfl, rfl⟩ := Prod.mk.inj (Option.some.inj hp)
      exact .called ticket (of_decide_eq_true hturn)
    · cases hp
  | looking ticket =>
    simp only [next] at hp
    split at hp
    · next hphase =>
      obtain ⟨rfl, rfl⟩ := Prod.mk.inj (Option.some.inj hp)
      exact .begins ticket hphase
    · next hphase =>
      obtain ⟨rfl, rfl⟩ := Prod.mk.inj (Option.some.inj hp)
      exact .passes ticket _ rfl hphase
  | entering ticket =>
    obtain ⟨rfl, rfl⟩ := Prod.mk.inj (Option.some.inj hp)
    exact .enters ticket
  | shaking ticket stage =>
    obtain ⟨r, hstep, hr⟩ := Option.map_eq_some_iff.mp hp
    obtain ⟨rfl, rfl⟩ := Prod.mk.inj hr
    exact .works ticket stage r.1 r.2 hstep
  | reverting ticket fault =>
    obtain ⟨rfl, rfl⟩ := Prod.mk.inj (Option.some.inj hp)
    exact .reverts ticket fault
  | leaving ticket ending =>
    obtain ⟨rfl, rfl⟩ := Prod.mk.inj (Option.some.inj hp)
    exact .leaves ticket ending
  | gone ending => cases hp

/-- What a caller made of its look stays so. -/
lemma looked?_next {x : Option Phase} (hp : p.looked? = some x) (hnext : p.next c h n = some (p', n')) :
    p'.looked? = some x := by
  cases goes hnext with
  | takes | called | begins | passes => cases hp
  | enters | works => exact (looked?_resume _ _).trans hp
  | reverts | leaves => exact hp

/-- A caller is past its look only after it. -/
lemma looking_of_looked {x : Option Phase} (hp : p.looked? ≠ some x) (hnext : p.next c h n = some (p', n'))
    (hp' : p'.looked? = some x) : ∃ k, p = looking k ∧
      (x = none ∧ p' = entering k ∧ (n.channel c).phase = .notInitialized ∨
        ∃ phase, x = some phase ∧ p' = leaving k (.found phase) ∧ (n.channel c).phase = phase ∧
          phase ≠ .notInitialized) := by
  cases goes hnext with
  | takes | called => cases hp'
  | begins k found =>
    cases hp'
    exact ⟨k, rfl, .inl ⟨rfl, rfl, found⟩⟩
  | passes k phase found tried =>
    cases hp'
    exact ⟨k, rfl, .inr ⟨phase, rfl, rfl, found, tried⟩⟩
  | enters | works => exact absurd ((looked?_resume _ _).symm.trans hp') hp
  | reverts | leaves => exact absurd hp' hp

/-- Of the steps of a caller only those of its handshake hand anything over. -/
lemma outgoing_next (hnext : p.next c h n = some (p', n')) :
    (∀ d, (n'.channel d).outgoing = (n.channel d).outgoing) ∨
      ∃ k stage stage', p = shaking k stage ∧ p' = resume k stage' ∧ h.next stage n = some (stage', n') := by
  cases goes hnext with
  | takes =>
    left
    rw [takeTurn, updateWith_eq]
    apply outgoing_update
    intro ch
    rfl
  | called | begins | passes => exact .inl fun _ => rfl
  | enters | reverts => exact .inl (outgoing_update (Channel.outgoing_setPhase _))
  | works k stage stage' _ step => exact .inr ⟨k, stage, stage', rfl, rfl, step⟩
  | leaves => exact .inl (outgoing_update fun _ => rfl)

lemma Within.mono (hRS : ∀ n n', R n n' → S n n') (hp : p.Within h R) : p.Within h S := by
  cases p with
  | shaking k stage => exact Task.Within.mono hRS hp
  | _ => trivial

lemma within_resume (ticket : Nat) {stage : γ ⊕ Except Channel.Fault Unit} (hstage : (h.rest stage).Within R) :
    (resume ticket stage).Within h R := by
  rcases stage with stage | fault | -
  · exact hstage
  · trivial
  · trivial

/-- A step of a handshake does as `R` allows. -/
lemma Within.step {stage : γ} {stage' : γ ⊕ Except Channel.Fault Unit} (hstage : (h.left stage).Within R)
    (step : h.next stage n = some (stage', n')) : (R n n' ∨ n' = n) ∧ (h.rest stage').Within R := by
  have htick : (h.left stage).tick? Wait.holds n = some (h.rest stage', n') := by
    rw [h.tick, step]
    rfl
  exact Task.Within.tick hstage htick

lemma Within.next (hp : p.Within h R) (hh : h.Within R) (hnext : p.next c h n = some (p', n')) : p'.Within h R := by
  cases goes hnext with
  | takes | called | begins | passes | reverts | leaves => trivial
  | enters k => exact within_resume k hh
  | works k stage stage' _ step => exact within_resume k (Within.step hp step).2

/-- A step of a caller is mild to a channel other than its own, if its handshake is. -/
lemma mild_of_ne {d : ChannelId} (hd : d ≠ c) (hp : p.Within h (Mild d)) (hnext : p.next c h n = some (p', n')) :
    Mild d n n' := by
  have hother : ∀ f : Channel → Channel, Mild d n (n.update c f) := by
    intro f
    refine ⟨fun hpresent => by simpa [update] using hpresent, ?_⟩
    rcases channel_update_cases n c f d with hsame | ⟨hdc, -⟩
    · rw [hsame]
      exact .same _
    · exact absurd hdc hd
  cases goes hnext with
  | takes =>
    rw [takeTurn, updateWith_eq]
    exact hother _
  | called | begins | passes => exact .refl d n
  | enters | reverts | leaves => exact hother _
  | works k stage stage' _ step =>
    rcases (Within.step hp step).1 with hmild | heq
    · exact hmild
    · rw [heq]
      exact .refl d n

/-- A step of a caller hands over no request of these names, if its handshake does not. -/
lemma not_hands_next {wanted : List String} (hp : p.Within h (Civil wanted)) (hnext : p.next c h n = some (p', n')) :
    ¬ Hands wanted n n' := by
  rcases outgoing_next hnext with hsame | ⟨k, stage, stage', rfl, -, step⟩
  · exact not_hands_of_eq wanted hsame
  · rcases (Within.step hp step).1 with hcivil | rfl
    · exact hcivil.silent
    · exact not_hands_refl wanted _

/-- A step from place to place is a move at the door of the channel. -/
theorem moves (hc : c < n.channels.length) (hp : p.Within h (Mild c)) (hnext : p.next c h n = some (p', n')) :
    c < n'.channels.length ∧ ∃ ended, p.stand.Moves (n.channel c).door ended p'.stand (n'.channel c).door ∧
        (p'.IsShaken ↔ p.IsShaken ∨ ended = some true) := by
  have hset : ∀ phase, c < (n.update c (·.setPhase phase)).channels.length ∧
      ((n.update c (·.setPhase phase)).channel c).door = (n.channel c).door.set phase := fun phase =>
    ⟨present_update hc _, by rw [channel_update hc, Channel.door_setPhase]⟩
  cases goes hnext with
  | takes =>
    have hdoor : ((takeTurn c n).2.channel c).door
        = { (n.channel c).door with given := (n.channel c).door.given + 1 } :=
      congrArg Channel.door (channel_updateWith hc _)
    refine ⟨present_updateWith hc _, none, ?_, by simp [IsShaken, shook?]⟩
    rw [hdoor]
    exact .takes _
  | called k on =>
    subst on
    exact ⟨hc, none, .called (n.channel c).door, by simp [IsShaken, shook?]⟩
  | begins k found => exact ⟨hc, none, .begins _ _ found, by simp [IsShaken, shook?]⟩
  | passes k phase found tried =>
    exact ⟨hc, none, .passes _ _ fun hphase => tried (found.symm.trans hphase), by simp [IsShaken, shook?]⟩
  | enters k =>
    refine ⟨(hset _).1, endedWell? h.first, ?_, ?_⟩
    · rw [(hset _).2, stand_resume]
      exact .enters _ _ _
    · rw [isShaken_resume]
      simp [IsShaken, shook?]
  | works k stage stage' _ step =>
    have hmild : Mild c n n' := by
      rcases (Within.step hp step).1 with hmild | heq
      · exact hmild
      · rw [heq]
        exact .refl c n
    refine ⟨hmild.present hc, endedWell? stage', ?_, ?_⟩
    · rw [stand_resume]
      exact .works _ _ _ _ hmild.door
    · rw [isShaken_resume]
      simp [IsShaken, shook?]
  | reverts k fault =>
    refine ⟨(hset _).1, none, ?_, by simp [IsShaken, shook?]⟩
    rw [(hset _).2]
    exact .reverts _ _
  | leaves k ending =>
    have hdoor : ((n.update c fun ch => { ch with turn := ch.turn + 1 }).channel c).door = (n.channel c).door.pass :=
      congrArg Channel.door (channel_update hc _)
    refine ⟨present_update hc _, none, ?_, by cases ending <;> simp [IsShaken, shook?]⟩
    rw [hdoor]
    exact .leaves _ _

end Moves

end Place

end Switchboard.Network
