import Switchboard.Proofs.Channel.Stage
import Switchboard.Proofs.Channel.Table

/-!
# Requests and their answers

* `State`, `Action`, `perform`, `run`: one channel with any number of requests, its reader, any number of
  shutdowns, and everything around them, in any order of single accesses;
* `Invariant`: what holds in every state, kept by every action;
* `requests_correlated`: numbers are not given twice, a result is the first response to the request's own
  number, the table holds what was not ended, and nobody waits on a closed channel.
-/

namespace Switchboard.Network.Correlation

open Switchboard.Network.Request (Stage)

/-! ## Runs -/

/-- A request, how far it got and what it took. -/
structure Caller where
  request : Request
  stage : Stage := .starting
  enrolment : Option Enrolment := none

/-- A request that comes in. -/
def Caller.ofRequest (request : Request) : Caller := { request }

/-- The reader takes messages in, then marks the channel as closed, then gives up what is outstanding. -/
inductive Reader where
  | reading
  | closing
  | stopped
deriving DecidableEq

/-- A channel of a network with everybody who works on it. -/
structure State where
  net : Network
  callers : List Caller := []
  reader : Reader := .reading
  closers : List Closing.Stage := []
  /-- What happened to outstanding requests. -/
  log : List Entry := []
  /-- How many numbers were taken. -/
  taken : Nat := 0

/-- Whose turn it is, and what is new. -/
inductive Action where
  | call (request : Request)
  | step (i : Nat)
  /-- The reader takes a message in. -/
  | deliver (inbound : Inbound)
  /-- The reader finds the end of the stream. -/
  | hangUp
  /-- The reader gives up what is outstanding. -/
  | giveUp
  | shutDown
  | stepCloser (i : Nat)
  /-- A handshake moves the channel to another phase. -/
  | setPhase (next : Phase)
  | announce (method : String) (params : Json)
  /-- Time passes, and whatever is neither phase, number nor table of the channel changes. -/
  | outside (now : Nat) (channel : Channel)

/-- What a message means to outstanding requests. -/
def entriesOf : Inbound → List Entry
  | .response id outcome => [.response id outcome]
  | _ => []

/-- How many numbers it takes to take a message in. -/
def numbersOf : Inbound → Nat
  | .request _ _ _ => 1
  | _ => 0

variable (c : ChannelId)

namespace State

/-- A request makes a step. -/
def advance (s : State) (i : Nat) (k : Caller) (stage : Stage) (net : Network) : State :=
  let ch := s.net.channel c
  match k.stage with
  | .enrolling =>
    { s with
      net, taken := s.taken + 1
      callers := s.callers.set i
        { k with stage, enrolment := some ⟨ch.nextId, ch.pending.next, s.taken, s.log.length⟩ } }
  | .withdrawing id _ _ =>
    { s with net, log := s.log ++ [.withdrawn id], callers := s.callers.set i { k with stage } }
  | _ => { s with net, callers := s.callers.set i { k with stage } }

/-- One action; what is not possible changes nothing. -/
def perform (s : State) : Action → State
  | .call request => { s with callers := s.callers ++ [.ofRequest request] }
  | .step i =>
    match s.callers[i]? with
    | none => s
    | some k =>
      match k.stage.next c k.request s.net with
      | none => s
      | some (stage, net) => s.advance c i k stage net
  | .deliver inbound =>
    if s.reader = .reading then
      { s with
        net := s.net.update c (·.accept inbound), log := s.log ++ entriesOf inbound
        taken := s.taken + numbersOf inbound }
    else s
  | .hangUp =>
    if s.reader = .reading then { s with net := s.net.update c (·.markClosed), reader := .closing } else s
  | .giveUp =>
    if s.reader = .closing then
      { s with net := s.net.update c (·.drain), log := s.log ++ [.drained], reader := .stopped }
    else s
  | .shutDown => { s with closers := s.closers ++ [.starting] }
  | .stepCloser i =>
    match s.closers[i]? with
    | none => s
    | some k =>
      match k.next c s.net with
      | none => s
      | some (stage, net) =>
        { s with
          net, closers := s.closers.set i stage
          log := if k = .draining then s.log ++ [.drained] else s.log }
  | .setPhase next => if next = .closed then s else { s with net := s.net.update c (·.setPhase next) }
  | .announce method params =>
    { s with net := (s.net.updateWith c (·.announce method params)).2, taken := s.taken + 1 }
  | .outside now channel =>
    { s with
      net := { s.net.update c fun ch =>
        { channel with pending := ch.pending, nextId := ch.nextId, phase := ch.phase } with now } }

/-- One action after the other. -/
def run (s : State) (actions : List Action) : State := actions.foldl (perform c) s

/-- Somebody marked the channel as closed and is about to give up what is outstanding. -/
def Draining (s : State) : Prop := s.reader = .closing ∨ .draining ∈ s.closers

end State

/-! ## Numbers -/

/-- The number that is taken after `k` others. -/
def numberAfter : Nat → Int
  | 0 => 1
  | k + 1 => Channel.following (numberAfter k)

lemma numberAfter_eq (k : Nat) : numberAfter k = (k + 1 + 2 ^ 63 : Int) % 2 ^ 64 - 2 ^ 63 := by
  induction k with
  | zero => decide
  | succ k ih =>
    rw [numberAfter, ih, Channel.following]
    split <;> omega

/-- Numbers repeat after 64 bits only. -/
lemma le_of_numberAfter_eq {a b : Nat} (h : numberAfter a = numberAfter b) (hlt : a < b) : a + 2 ^ 64 ≤ b := by
  rw [numberAfter_eq, numberAfter_eq] at h
  omega

/-! ## The invariant -/

/-- A call ends with this fault when the peer did not answer. -/
def IsOwnFault : Channel.Fault → Prop
  | .closed | .timedOut _ _ | .transport _ => True
  | _ => False

/-- The number and the ticket that are held at a stage. -/
def heldAt : Stage → Option (Int × Nat)
  | .verifying id ticket | .posting id ticket | .timing id ticket | .waiting id ticket _ _
  | .fetching id ticket _ | .withdrawing id ticket _ => some (id, ticket)
  | _ => none

/-- The stages at which the channel was not yet found open after the number was taken. -/
def IsLeaving : Stage → Prop
  | .verifying _ _ | .withdrawing _ _ _ => True
  | _ => False

/-- What a call made of the log: an answer is the first response to its number, a fault its own. -/
def Concluded (enrolment : Option Enrolment) (log : List Entry) : Except Channel.Fault Json → Prop
  | .ok v => ∃ e, enrolment = some e ∧ firstResponse? e.id (log.drop e.since) = some (.ok v)
  | .error (.refused r) => ∃ e, enrolment = some e ∧ firstResponse? e.id (log.drop e.since) = some (.error r)
  | .error fault => IsOwnFault fault

/-- What table and log say of a caller. -/
structure Caller.Fits (p : Pending) (log : List Entry) (taken : Nat) (k : Caller) : Prop where
  fresh : k.stage = .starting ∨ k.stage = .enrolling → k.enrolment = none
  tracked : ∀ e, k.enrolment = some e → e.Tracked p log
  numbered : ∀ e, k.enrolment = some e → e.number < taken ∧ e.id = numberAfter e.number
  held : ∀ id ticket, heldAt k.stage = some (id, ticket) →
    ∃ e, k.enrolment = some e ∧ e.id = id ∧ e.ticket = ticket ∧ e.Live p
  fault : ∀ id ticket f, k.stage = .withdrawing id ticket f → IsOwnFault f
  concluded : ∀ result, k.stage = .ended result → Concluded k.enrolment log result

/-- What holds of a channel and its callers whatever was done. -/
structure Invariant (ch : Channel) (callers : List Caller) (log : List Entry) (taken : Nat)
    (draining : Prop) : Prop where
  sound : ch.pending.Sound
  counted : ch.nextId = numberAfter taken
  fits : ∀ k ∈ callers, k.Fits ch.pending log taken
  apart : ∀ (i j : Nat) (k l : Caller) (e f : Enrolment), callers[i]? = some k → callers[j]? = some l →
    k.enrolment = some e → l.enrolment = some f → e.ticket = f.ticket ∨ e.number = f.number → i = j
  /-- Who waits on a closed channel is about to find out, unless everything is about to be given up. -/
  owned : ∀ w ∈ ch.pending.waiting, ∃ (i : Nat) (k : Caller) (e : Enrolment), callers[i]? = some k ∧
    k.enrolment = some e ∧ w = (e.id, e.ticket) ∧ (ch.phase = .closed → draining ∨ IsLeaving k.stage)

/-! ## What keeps a caller -/

namespace Caller.Fits

variable {p : Pending} {log : List Entry} {taken : Nat} {k : Caller}

lemma concluded_append (h : k.Fits p log taken) {x : Entry} {result : Except Channel.Fault Json}
    (hover : k.stage = .ended result) : Concluded k.enrolment (log ++ [x]) result := by
  have hgrow : ∀ o, (∃ e, k.enrolment = some e ∧ firstResponse? e.id (log.drop e.since) = some o) →
      ∃ e, k.enrolment = some e ∧ firstResponse? e.id ((log ++ [x]).drop e.since) = some o := by
    rintro o ⟨e, he, hfirst⟩
    refine ⟨e, he, ?_⟩
    rw [List.drop_append_of_le_length (h.tracked e he).since_le]
    exact firstResponse?_append_of_some hfirst
  -- only an answer depends on the log, and its response is in the part that was there
  have hold := h.concluded result hover
  cases result with
  | ok v => exact hgrow _ hold
  | error fault =>
    cases fault with
    | refused r => exact hgrow _ hold
    | _ => exact hold

lemma settle (h : k.Fits p log taken) (hp : p.Sound) {id : Int} {s : Settlement} {x : Entry}
    (hx : ∀ i, x.ends i ↔ i = id) (hs : ∀ o, s = .answered o → x = .response id o) :
    k.Fits (p.settle id s) (log ++ [x]) taken where
  fresh := h.fresh
  tracked e he := (h.tracked e he).settle hx hs
  numbered := h.numbered
  held i t ht :=
    let ⟨e, he, hid, hticket, hlive⟩ := h.held i t ht
    ⟨e, he, hid, hticket, hlive.settle hp id s⟩
  fault := h.fault
  concluded _ hover := h.concluded_append hover

lemma close (h : k.Fits p log taken) : k.Fits p.close (log ++ [.drained]) taken where
  fresh := h.fresh
  tracked e he := (h.tracked e he).close
  numbered := h.numbered
  held i t ht :=
    let ⟨e, he, hid, hticket, hlive⟩ := h.held i t ht
    ⟨e, he, hid, hticket, hlive.close⟩
  fault := h.fault
  concluded _ hover := h.concluded_append hover

lemma forget (h : k.Fits p log taken) {ticket : Nat} (hne : ∀ e, k.enrolment = some e → e.ticket ≠ ticket) :
    k.Fits (p.forget ticket) log taken where
  fresh := h.fresh
  tracked e he := (h.tracked e he).forget ticket
  numbered := h.numbered
  held i t ht :=
    let ⟨e, he, hid, hticket, hlive⟩ := h.held i t ht
    ⟨e, he, hid, hticket, hlive.forget (hne e he)⟩
  fault := h.fault
  concluded := h.concluded

lemma register (h : k.Fits p log taken) (hp : p.Sound) (id : Int) :
    k.Fits (p.register id).2 log (taken + 1) where
  fresh := h.fresh
  tracked e he := (h.tracked e he).register id
  numbered e he := ⟨Nat.lt_succ_of_lt (h.numbered e he).1, (h.numbered e he).2⟩
  held i t ht :=
    let ⟨e, he, hid, hticket, hlive⟩ := h.held i t ht
    ⟨e, he, hid, hticket, hlive.register hp id⟩
  fault := h.fault
  concluded := h.concluded

lemma mono (h : k.Fits p log taken) {more : Nat} (hle : taken ≤ more) : k.Fits p log more where
  fresh := h.fresh
  tracked := h.tracked
  numbered e he := ⟨Nat.lt_of_lt_of_le (h.numbered e he).1 hle, (h.numbered e he).2⟩
  held := h.held
  fault := h.fault
  concluded := h.concluded

/-- A caller that holds its number moves on. -/
lemma hold (h : k.Fits p log taken) {stage : Stage} {id : Int} {ticket : Nat}
    (hk : heldAt k.stage = some (id, ticket)) (hs : heldAt stage = some (id, ticket))
    (hfault : ∀ i t f, stage = .withdrawing i t f → IsOwnFault f) : { k with stage }.Fits p log taken where
  fresh := by rintro (rfl | rfl) <;> cases hs
  tracked := h.tracked
  numbered := h.numbered
  held i t ht := h.held i t (hk.trans (hs.symm.trans ht))
  fault := hfault
  concluded := by
    rintro result rfl
    cases hs

end Caller.Fits

/-! ## What keeps the invariant -/

namespace Invariant

variable {ch ch' : Channel} {callers : List Caller} {log : List Entry} {taken : Nat} {draining : Prop}

/-- Nothing happens to the table. -/
lemma aside (h : Invariant ch callers log taken draining) {taken' : Nat} {draining' : Prop}
    (hpending : ch'.pending = ch.pending) (hnext : ch'.nextId = numberAfter taken') (htaken : taken ≤ taken')
    (hphase : ch'.phase = .closed → draining' ∨ (ch.phase = .closed ∧ (draining → draining'))) :
    Invariant ch' callers log taken' draining' where
  sound := hpending ▸ h.sound
  counted := hnext
  fits k hk := hpending ▸ (h.fits k hk).mono htaken
  apart := h.apart
  owned w hw := by
    rw [hpending] at hw
    obtain ⟨i, k, e, hi, he, heq, hleave⟩ := h.owned w hw
    refine ⟨i, k, e, hi, he, heq, fun hclosed => ?_⟩
    rcases hphase hclosed with hd | ⟨hc, hd⟩
    · exact .inl hd
    · exact (hleave hc).imp_left hd

/-- The wait under a number ends. -/
lemma settle (h : Invariant ch callers log taken draining) {id : Int} {s : Settlement} {x : Entry}
    (hx : ∀ i, x.ends i ↔ i = id) (hs : ∀ o, s = .answered o → x = .response id o) :
    Invariant { ch with pending := ch.pending.settle id s } callers (log ++ [x]) taken draining where
  sound := h.sound.settle id s
  counted := h.counted
  fits k hk := (h.fits k hk).settle h.sound hx hs
  apart := h.apart
  owned w hw := by
    rw [Pending.waiting_settle] at hw
    exact h.owned w (List.mem_of_mem_filter hw)

/-- A response is handed to whoever waits for it. -/
lemma answer (h : Invariant ch callers log taken draining) (id : Int) (o : Outcome) :
    Invariant { ch with pending := ch.pending.answer id o } callers (log ++ [.response id o]) taken draining :=
  h.settle (fun i => by simp [Entry.ends, eq_comm]) (by simp)

/-- A number is given up. -/
lemma cancel (h : Invariant ch callers log taken draining) (id : Int) :
    Invariant { ch with pending := ch.pending.cancel id } callers (log ++ [.withdrawn id]) taken draining :=
  h.settle (fun i => by simp [Entry.ends, eq_comm]) (by simp)

/-- Everything outstanding is given up. -/
lemma drain (h : Invariant ch callers log taken draining) (draining' : Prop) :
    Invariant ch.drain callers (log ++ [.drained]) taken draining' where
  sound := h.sound.close
  counted := h.counted
  fits k hk := (h.fits k hk).close
  apart := h.apart
  owned w hw := by simp [Channel.drain, Pending.close] at hw

/-- A request comes in. -/
lemma begin (h : Invariant ch callers log taken draining) (request : Request) :
    Invariant ch (callers ++ [.ofRequest request]) log taken draining where
  sound := h.sound
  counted := h.counted
  fits k hk := by
    rcases List.mem_append.mp hk with hk | hk
    · exact h.fits k hk
    · obtain rfl := List.mem_singleton.mp hk
      exact ⟨fun _ => rfl, nofun, nofun, nofun, nofun, nofun⟩
  apart i j k l e f hi hj he hf heq := by
    have hold : ∀ (i : Nat) (k : Caller) (e : Enrolment), (callers ++ [.ofRequest request])[i]? = some k →
        k.enrolment = some e → callers[i]? = some k := fun i k e hi he => by
      rw [List.getElem?_append] at hi
      split at hi
      · exact hi
      · obtain rfl := List.mem_singleton.mp (List.mem_of_getElem? hi)
        cases he
    exact h.apart i j k l e f (hold i k e hi he) (hold j l f hj hf) he hf heq
  owned w hw := by
    obtain ⟨i, k, e, hi, he, heq, hleave⟩ := h.owned w hw
    have hlt := (List.getElem?_eq_some_iff.mp hi).1
    exact ⟨i, k, e, (List.getElem?_append_left hlt).trans hi, he, heq, hleave⟩

/-! ### One caller makes a step -/

variable {i : Nat} {k : Caller}

lemma mem_set {k' l : Caller} (hl : l ∈ callers.set i k') : l = k' ∨ ∃ j, j ≠ i ∧ callers[j]? = some l := by
  obtain ⟨j, hj⟩ := List.mem_iff_getElem?.mp hl
  rw [List.getElem?_set] at hj
  split at hj
  · split at hj
    · exact .inl (Option.some.inj hj).symm
    · cases hj
  · next hne => exact .inr ⟨j, Ne.symm hne, hj⟩

/-- Callers keep what they took. -/
lemma apart_set (h : Invariant ch callers log taken draining) (hi : callers[i]? = some k) {k' : Caller}
    (henrolment : k'.enrolment = k.enrolment) (j₁ j₂ : Nat) (l₁ l₂ : Caller) (e₁ e₂ : Enrolment)
    (h₁ : (callers.set i k')[j₁]? = some l₁) (h₂ : (callers.set i k')[j₂]? = some l₂)
    (he₁ : l₁.enrolment = some e₁) (he₂ : l₂.enrolment = some e₂)
    (heq : e₁.ticket = e₂.ticket ∨ e₁.number = e₂.number) : j₁ = j₂ := by
  have hold : ∀ (j : Nat) (l : Caller) (e : Enrolment), (callers.set i k')[j]? = some l →
      l.enrolment = some e → ∃ l', callers[j]? = some l' ∧ l'.enrolment = some e := fun j l e hj he => by
    by_cases hij : i = j
    · subst hij
      rw [List.getElem?_set_self (List.getElem?_eq_some_iff.mp hi).1] at hj
      obtain rfl := Option.some.inj hj
      exact ⟨k, hi, henrolment ▸ he⟩
    · rw [List.getElem?_set_ne hij] at hj
      exact ⟨l, hj, he⟩
  obtain ⟨l₁', h₁', he₁'⟩ := hold j₁ l₁ e₁ h₁ he₁
  obtain ⟨l₂', h₂', he₂'⟩ := hold j₂ l₂ e₂ h₂ he₂
  exact h.apart j₁ j₂ l₁' l₂' e₁ e₂ h₁' h₂' he₁' he₂' heq

/-- A step that leaves the table as it is. -/
lemma turn (h : Invariant ch callers log taken draining) (hi : callers[i]? = some k) {stage : Stage}
    (hfits : { k with stage }.Fits ch.pending log taken)
    (hleave : ch.phase = .closed → IsLeaving k.stage → IsLeaving stage) :
    Invariant ch (callers.set i { k with stage }) log taken draining where
  sound := h.sound
  counted := h.counted
  fits l hl := by
    rcases mem_set hl with rfl | ⟨j, -, hj⟩
    · exact hfits
    · exact h.fits l (List.mem_of_getElem? hj)
  apart := h.apart_set hi rfl
  owned w hw := by
    obtain ⟨j, l, e, hj, he, heq, hstay⟩ := h.owned w hw
    by_cases hij : i = j
    · subst hij
      obtain rfl := Option.some.inj (hi.symm.trans hj)
      refine ⟨i, { k with stage }, e, List.getElem?_set_self (List.getElem?_eq_some_iff.mp hi).1, he, heq, ?_⟩
      exact fun hclosed => (hstay hclosed).imp_right (hleave hclosed)
    · exact ⟨j, l, e, (List.getElem?_set_ne hij).trans hj, he, heq, hstay⟩

/-- A call ends, and its ticket is forgotten. -/
lemma release (h : Invariant ch callers log taken draining) (hi : callers[i]? = some k) {e : Enrolment}
    (he : k.enrolment = some e) {result : Except Channel.Fault Json}
    (hresult : Concluded k.enrolment log result)
    (hgone : IsLeaving k.stage → (e.id, e.ticket) ∉ ch.pending.waiting) :
    Invariant { ch with pending := ch.pending.forget e.ticket }
      (callers.set i { k with stage := .ended result }) log taken draining where
  sound := h.sound.forget e.ticket
  counted := h.counted
  fits l hl := by
    rcases mem_set hl with rfl | ⟨j, hji, hj⟩
    · have hk := h.fits k (List.mem_of_getElem? hi)
      refine ⟨by simp, fun f hf => (hk.tracked f hf).forget e.ticket, hk.numbered, by simp [heldAt], by simp, ?_⟩
      rintro r hr
      obtain rfl := Stage.ended.inj hr
      exact hresult
    · refine (h.fits l (List.mem_of_getElem? hj)).forget fun f hf heq => hji ?_
      exact h.apart j i l k f e hj hi hf he (.inl heq)
  apart := h.apart_set hi rfl
  owned w hw := by
    obtain ⟨j, l, f, hj, hf, heq, hstay⟩ := h.owned w hw
    by_cases hij : i = j
    · subst hij
      obtain rfl := Option.some.inj (hi.symm.trans hj)
      obtain rfl := Option.some.inj (he.symm.trans hf)
      refine ⟨i, { k with stage := .ended result }, e,
        List.getElem?_set_self (List.getElem?_eq_some_iff.mp hi).1, he, heq, fun hclosed => .inl ?_⟩
      exact (hstay hclosed).resolve_right fun hl => hgone hl (heq ▸ hw)
    · exact ⟨j, l, f, (List.getElem?_set_ne hij).trans hj, hf, heq, hstay⟩

/-- A caller takes a number. -/
lemma enroll (h : Invariant ch callers log taken draining) (hi : callers[i]? = some k)
    (hstage : k.stage = .enrolling) :
    Invariant ch.enroll.2
      (callers.set i { k with
        stage := .verifying ch.nextId ch.pending.next
        enrolment := some ⟨ch.nextId, ch.pending.next, taken, log.length⟩ })
      log (taken + 1) draining where
  sound := h.sound.register ch.nextId
  counted := congrArg Channel.following h.counted
  fits l hl := by
    rcases mem_set hl with rfl | ⟨j, -, hj⟩
    · have htracked : Enrolment.Tracked _ log _ := .of_register h.sound ch.nextId taken
      refine ⟨by simp, fun f hf => ?_, fun f hf => ?_, fun id ticket hheld => ?_, by simp, by simp⟩
      · obtain rfl := Option.some.inj hf
        exact htracked
      · obtain rfl := Option.some.inj hf
        exact ⟨Nat.lt_succ_self _, h.counted⟩
      · obtain ⟨rfl, rfl⟩ := Prod.mk.inj (Option.some.inj hheld)
        exact ⟨_, rfl, rfl, rfl, .inl (Pending.mem_waiting_register.mpr (.inr rfl))⟩
    · exact (h.fits l (List.mem_of_getElem? hj)).register h.sound ch.nextId
  apart j₁ j₂ l₁ l₂ e₁ e₂ h₁ h₂ he₁ he₂ heq := by
    -- what others took is below what is taken now
    have hlt : ∀ (j : Nat) (l : Caller) (e : Enrolment), callers[j]? = some l → l.enrolment = some e →
        e.ticket < ch.pending.next ∧ e.number < taken := fun j l e hj he =>
      have hfits := h.fits l (List.mem_of_getElem? hj)
      ⟨(hfits.tracked e he).ticket_lt, (hfits.numbered e he).1⟩
    have hlen := (List.getElem?_eq_some_iff.mp hi).1
    by_cases hij₁ : i = j₁ <;> by_cases hij₂ : i = j₂
    · exact hij₁.symm.trans hij₂
    · subst hij₁
      rw [List.getElem?_set_self hlen] at h₁
      rw [List.getElem?_set_ne hij₂] at h₂
      obtain rfl := Option.some.inj h₁
      obtain rfl := Option.some.inj he₁
      have := hlt j₂ l₂ e₂ h₂ he₂
      simp only at heq
      omega
    · subst hij₂
      rw [List.getElem?_set_ne hij₁] at h₁
      rw [List.getElem?_set_self hlen] at h₂
      obtain rfl := Option.some.inj h₂
      obtain rfl := Option.some.inj he₂
      have := hlt j₁ l₁ e₁ h₁ he₁
      simp only at heq
      omega
    · rw [List.getElem?_set_ne hij₁] at h₁
      rw [List.getElem?_set_ne hij₂] at h₂
      exact h.apart j₁ j₂ l₁ l₂ e₁ e₂ h₁ h₂ he₁ he₂ heq
  owned w hw := by
    rcases Pending.mem_waiting_register.mp hw with ⟨hw, -⟩ | rfl
    · -- whoever waits has a number already, and the caller has none
      obtain ⟨j, l, f, hj, hf, heq, hstay⟩ := h.owned w hw
      have hij : i ≠ j := by
        rintro rfl
        obtain rfl := Option.some.inj (hi.symm.trans hj)
        rw [(h.fits k (List.mem_of_getElem? hi)).fresh (.inr hstage)] at hf
        cases hf
      exact ⟨j, l, f, (List.getElem?_set_ne hij).trans hj, hf, heq, hstay⟩
    · exact ⟨i, _, _, List.getElem?_set_self (List.getElem?_eq_some_iff.mp hi).1, rfl, rfl, fun _ => .inr trivial⟩

end Invariant

/-! ## Steps and runs -/

section Steps

variable {c : ChannelId} {n : Network}

lemma next_enrolling (r : Request) (n : Network) :
    Stage.next c r n .enrolling = some (.verifying (n.channel c).nextId (n.channel c).pending.next,
      (n.updateWith c Channel.enroll).2) := by
  have hticket : (n.updateWith c Channel.enroll).1 = ((n.channel c).nextId, (n.channel c).pending.next) :=
    congrArg (Prod.mk (n.channel c).nextId) (Pending.ticket_register ..)
  simp only [Stage.next, hticket]

/-! ### What single operations leave alone -/

variable (ch : Channel)

lemma post_frame (message : Json) :
    (ch.post message).2.pending = ch.pending ∧ (ch.post message).2.nextId = ch.nextId ∧
      (ch.post message).2.phase = ch.phase := by
  unfold Channel.post Channel.write
  cases ch.outputBroken <;> exact ⟨rfl, rfl, rfl⟩

lemma isOwnFault_of_post {message : Json} {e : Channel.Fault} (h : (ch.post message).1 = .error e) :
    IsOwnFault e := by
  unfold Channel.post Channel.write at h
  cases hb : ch.outputBroken with
  | false =>
    simp only [hb] at h
    cases h
  | true =>
    simp only [hb] at h
    obtain rfl := Except.error.inj h
    trivial

lemma hear_frame (event : Channel.Event) :
    (ch.hear event).pending = ch.pending ∧ (ch.hear event).nextId = ch.nextId ∧
      (ch.hear event).phase = ch.phase := by
  unfold Channel.hear
  split <;> exact ⟨rfl, rfl, rfl⟩

/-- Taking over the process leaves phase, number and table alone. -/
lemma takeChild_frame (hc : c < n.channels.length) :
    c < (takeChild c n).2.channels.length ∧
      ((takeChild c n).2.channel c).pending = (n.channel c).pending ∧
      ((takeChild c n).2.channel c).nextId = (n.channel c).nextId ∧
      ((takeChild c n).2.channel c).phase = (n.channel c).phase := by
  unfold takeChild
  dsimp only
  split
  · refine ⟨present_update hc _, ?_⟩
    simp only [channel_update hc, and_self]
  · exact ⟨hc, rfl, rfl, rfl⟩

end Steps

namespace State

variable {c : ChannelId} {s : State}

/-- The channel exists, and the invariant holds of it. -/
def Holds (c : ChannelId) (s : State) : Prop :=
  c < s.net.channels.length ∧ Invariant (s.net.channel c) s.callers s.log s.taken s.Draining

/-- A caller hands its message over, or finds that it cannot. -/
lemma Holds.advance_posting (h : s.Holds c) {i : Nat} {k : Caller} (hi : s.callers[i]? = some k) {id : Int}
    {ticket : Nat} (hstage : k.stage = .posting id ticket) {stage : Stage} {net : Network}
    (hnext : k.stage.next c k.request s.net = some (stage, net)) : (s.advance c i k stage net).Holds c := by
  obtain ⟨hc, hinv⟩ := h
  have hfits := hinv.fits k (List.mem_of_getElem? hi)
  have hheld : heldAt k.stage = some (id, ticket) := by rw [hstage]; rfl
  have hstay : ¬ IsLeaving k.stage := by rw [hstage]; exact not_false
  obtain ⟨hpending, hnextId, hphase⟩ := post_frame (s.net.channel c)
    ((s.net.channel c).dialect.request id k.request.method k.request.params)
  have hc' := present_updateWith hc fun ch => ch.ask id k.request.method k.request.params
  -- either way the number is held, and the message changes neither table nor phase
  have hmoved : ∀ stage', heldAt stage' = some (id, ticket) →
      (∀ i t f, stage' = .withdrawing i t f → IsOwnFault f) →
      Invariant ((s.net.updateWith c fun ch => ch.ask id k.request.method k.request.params).2.channel c)
        (s.callers.set i { k with stage := stage' }) s.log s.taken s.Draining := by
    intro stage' hheld' hfault
    rw [channel_updateWith hc]
    refine (hinv.turn hi (hfits.hold hheld hheld' hfault) fun _ hl => absurd hl hstay).aside hpending
      (hnextId.trans hinv.counted) (Nat.le_refl _) fun hclosed => .inr ⟨hphase ▸ hclosed, fun hd => hd⟩
  rw [hstage, Stage.next] at hnext
  cases hasked : (s.net.updateWith c fun ch => ch.ask id k.request.method k.request.params).1 with
  | ok u =>
    simp only [hasked] at hnext
    obtain ⟨rfl, rfl⟩ := Prod.mk.inj (Option.some.inj hnext)
    simp only [State.advance, hstage]
    exact ⟨hc', hmoved _ rfl (by rintro _ _ _ ⟨⟩)⟩
  | error e =>
    simp only [hasked] at hnext
    obtain ⟨rfl, rfl⟩ := Prod.mk.inj (Option.some.inj hnext)
    simp only [State.advance, hstage]
    refine ⟨hc', hmoved _ rfl fun i t f hf => ?_⟩
    obtain ⟨rfl, rfl, rfl⟩ := Stage.withdrawing.inj hf
    exact isOwnFault_of_post _ hasked

/-- A caller looks for its answer. -/
lemma Holds.advance_fetching (h : s.Holds c) {i : Nat} {k : Caller} (hi : s.callers[i]? = some k) {id : Int}
    {ticket : Nat} {limit : Option Nat} (hstage : k.stage = .fetching id ticket limit) {stage : Stage} {net : Network}
    (hnext : k.stage.next c k.request s.net = some (stage, net)) : (s.advance c i k stage net).Holds c := by
  obtain ⟨hc, hinv⟩ := h
  have hfits := hinv.fits k (List.mem_of_getElem? hi)
  have hheld : heldAt k.stage = some (id, ticket) := by rw [hstage]; rfl
  rw [hstage, Stage.next, fetch] at hnext
  cases hs : (s.net.channel c).pending.settlement? ticket with
  | none =>
    rw [hs] at hnext
    obtain ⟨rfl, rfl⟩ := Prod.mk.inj (Option.some.inj hnext)
    simp only [State.advance, hstage]
    refine ⟨hc, hinv.turn hi (hfits.hold hheld rfl fun i t f hf => ?_) fun _ _ => trivial⟩
    obtain ⟨rfl, rfl, rfl⟩ := Stage.withdrawing.inj hf
    trivial
  | some r =>
    rw [hs] at hnext
    obtain ⟨rfl, rfl⟩ := Prod.mk.inj (Option.some.inj hnext)
    simp only [State.advance, hstage]
    obtain ⟨e, he, rfl, rfl, -⟩ := hfits.held _ _ hheld
    refine ⟨present_update hc _, ?_⟩
    show Invariant ((s.net.update c _).channel c) _ _ _ _
    rw [channel_update hc]
    refine hinv.release hi he ?_ fun hl => ?_
    · -- what is settled for the ticket is the first response since the number was taken
      have hmem := Pending.mem_of_settlement? hs
      rcases r with ⟨r | v⟩ | -
      · exact ⟨e, he, (hfits.tracked e he).first _ hmem⟩
      · exact ⟨e, he, (hfits.tracked e he).first _ hmem⟩
      · trivial
    · rw [hstage] at hl
      exact hl.elim

/-- A caller gives its number up. -/
lemma Holds.advance_withdrawing (h : s.Holds c) {i : Nat} {k : Caller} (hi : s.callers[i]? = some k) {id : Int}
    {ticket : Nat} {fault : Channel.Fault} (hstage : k.stage = .withdrawing id ticket fault) {stage : Stage}
    {net : Network} (hnext : k.stage.next c k.request s.net = some (stage, net)) :
    (s.advance c i k stage net).Holds c := by
  obtain ⟨hc, hinv⟩ := h
  have hfits := hinv.fits k (List.mem_of_getElem? hi)
  have hheld : heldAt k.stage = some (id, ticket) := by rw [hstage]; rfl
  rw [hstage, Stage.next] at hnext
  obtain ⟨rfl, rfl⟩ := Prod.mk.inj (Option.some.inj hnext)
  simp only [State.advance, hstage]
  obtain ⟨e, he, rfl, rfl, -⟩ := hfits.held _ _ hheld
  refine ⟨present_update hc _, ?_⟩
  show Invariant ((s.net.update c _).channel c) _ _ _ _
  rw [channel_update hc]
  refine (hinv.cancel e.id).release hi he ?_ fun _ => ?_
  · have hown := hfits.fault _ _ _ hstage
    cases fault with
    | refused r => exact hown.elim
    | _ => exact hown
  · simp [Pending.cancel]

/-- A step of a caller. -/
lemma Holds.advance (h : s.Holds c) {i : Nat} {k : Caller} (hi : s.callers[i]? = some k) {stage : Stage}
    {net : Network} (hnext : k.stage.next c k.request s.net = some (stage, net)) :
    (s.advance c i k stage net).Holds c := by
  have hc := h.1
  have hinv := h.2
  have hfits := hinv.fits k (List.mem_of_getElem? hi)
  cases hstage : k.stage with
  | starting =>
    rw [hstage, Stage.next] at hnext
    obtain ⟨rfl, rfl⟩ := Prod.mk.inj (Option.some.inj hnext)
    simp only [State.advance, hstage]
    refine ⟨hc, hinv.turn hi ?_ fun _ hl => ?_⟩
    · have hnone := hfits.fresh (.inl hstage)
      cases (s.net.channel c).isOpen with
      | true =>
        exact ⟨fun _ => hnone, hfits.tracked, hfits.numbered, by rintro _ _ ⟨⟩, by rintro _ _ _ ⟨⟩, by rintro _ ⟨⟩⟩
      | false =>
        refine ⟨fun _ => hnone, hfits.tracked, hfits.numbered, by rintro _ _ ⟨⟩, by rintro _ _ _ ⟨⟩, fun r hr => ?_⟩
        obtain rfl := Stage.ended.inj hr
        trivial
    · rw [hstage] at hl
      exact hl.elim
  | enrolling =>
    rw [hstage, next_enrolling] at hnext
    obtain ⟨rfl, rfl⟩ := Prod.mk.inj (Option.some.inj hnext)
    simp only [State.advance, hstage]
    have hc' := present_updateWith hc Channel.enroll
    have hinv' := hinv.enroll hi hstage
    rw [← channel_updateWith hc] at hinv'
    exact ⟨hc', hinv'⟩
  | verifying id ticket =>
    rw [hstage, Stage.next] at hnext
    obtain ⟨rfl, rfl⟩ := Prod.mk.inj (Option.some.inj hnext)
    simp only [State.advance, hstage]
    have hheld : heldAt k.stage = some (id, ticket) := by rw [hstage]; rfl
    refine ⟨hc, hinv.turn hi ?_ fun hclosed _ => ?_⟩
    · cases (s.net.channel c).isOpen with
      | true => exact hfits.hold hheld rfl (by rintro _ _ _ ⟨⟩)
      | false =>
        refine hfits.hold hheld rfl fun i t f hf => ?_
        obtain ⟨rfl, rfl, rfl⟩ := Stage.withdrawing.inj hf
        trivial
    · -- on a closed channel the second look leads to a withdrawal
      simp [Channel.isOpen, hclosed, IsLeaving]
  | posting id ticket => exact h.advance_posting hi hstage hnext
  | timing id ticket =>
    rw [hstage, Stage.next] at hnext
    obtain ⟨rfl, rfl⟩ := Prod.mk.inj (Option.some.inj hnext)
    simp only [State.advance, hstage]
    refine ⟨hc, hinv.turn hi (hfits.hold (hstage ▸ rfl) rfl (by rintro _ _ _ ⟨⟩)) fun _ hl => ?_⟩
    rw [hstage] at hl
    exact hl.elim
  | waiting id ticket limit deadline =>
    rw [hstage, Stage.next] at hnext
    split at hnext
    · obtain ⟨rfl, rfl⟩ := Prod.mk.inj (Option.some.inj hnext)
      simp only [State.advance, hstage]
      refine ⟨hc, hinv.turn hi (hfits.hold (hstage ▸ rfl) rfl (by rintro _ _ _ ⟨⟩)) fun _ hl => ?_⟩
      rw [hstage] at hl
      exact hl.elim
    · cases hnext
  | fetching id ticket limit => exact h.advance_fetching hi hstage hnext
  | withdrawing id ticket fault => exact h.advance_withdrawing hi hstage hnext
  | ended result =>
    rw [hstage] at hnext
    cases hnext

/-- The reader takes a message in. -/
lemma accept_invariant {ch : Channel} {callers : List Caller} {log : List Entry} {taken : Nat} {draining : Prop}
    (h : Invariant ch callers log taken draining) (inbound : Inbound) :
    Invariant (ch.accept inbound) callers (log ++ entriesOf inbound) (taken + numbersOf inbound) draining := by
  cases inbound with
  | response id o => exact h.answer id o
  | event name body =>
    obtain ⟨hpending, hnext, hphase⟩ := hear_frame ch ⟨name, body⟩
    rw [show entriesOf (.event name body) = [] from rfl, List.append_nil]
    exact h.aside hpending (hnext.trans h.counted) (Nat.le_refl _) fun hc => .inr ⟨hphase ▸ hc, fun hd => hd⟩
  | request id method params =>
    obtain ⟨hpending, hnext, hphase⟩ := post_frame ch.takeId.2 (ch.dialect.refuse ch.nextId id method
      ("unsupported request '" ++ method ++ "'"))
    rw [show entriesOf (.request id method params) = [] from rfl, List.append_nil]
    refine h.aside hpending (hnext.trans ?_) (Nat.le_succ _) fun hc => .inr ⟨hphase ▸ hc, fun hd => hd⟩
    exact congrArg Channel.following h.counted

/-- Who is about to give everything up stays so while another shutdown makes a step. -/
lemma Draining.set (h : s.Draining) {i : Nat} {k : Closing.Stage} (hi : s.closers[i]? = some k)
    (hk : k ≠ .draining) (stage : Closing.Stage) (net : Network) (log : List Entry) :
    State.Draining { s with net, log, closers := s.closers.set i stage } := by
  refine h.imp_right fun hmem => ?_
  obtain ⟨j, hj⟩ := List.mem_iff_getElem?.mp hmem
  have hij : i ≠ j := by
    rintro rfl
    exact hk (Option.some.inj (hi.symm.trans hj))
  exact List.mem_of_getElem? ((List.getElem?_set_ne hij).trans hj)

/-- A shutdown makes a step. -/
lemma Holds.stepCloser (h : s.Holds c) {i : Nat} {k stage : Closing.Stage} {net : Network}
    (hi : s.closers[i]? = some k) (hnext : k.next c s.net = some (stage, net)) :
    State.Holds c { s with
      net, closers := s.closers.set i stage, log := if k = .draining then s.log ++ [.drained] else s.log } := by
  obtain ⟨hc, hinv⟩ := h
  -- up to the mark only the process changes
  have hquiet : c < net.channels.length → (net.channel c).pending = (s.net.channel c).pending →
      (net.channel c).nextId = (s.net.channel c).nextId → (net.channel c).phase = (s.net.channel c).phase →
      k ≠ .draining → State.Holds c { s with
        net, closers := s.closers.set i stage, log := if k = .draining then s.log ++ [.drained] else s.log } := by
    intro hc' hpending hnextId hphase hk
    refine ⟨hc', ?_⟩
    rw [if_neg hk]
    exact hinv.aside hpending (hnextId.trans hinv.counted) (Nat.le_refl _)
      fun hclosed => .inr ⟨hphase ▸ hclosed, fun hd => hd.set hi hk ..⟩
  cases k with
  | starting =>
    obtain ⟨rfl, rfl⟩ := Prod.mk.inj (Option.some.inj hnext)
    obtain ⟨hc', hpending, hnextId, hphase⟩ := takeChild_frame hc
    exact hquiet hc' hpending hnextId hphase (by rintro ⟨⟩)
  | awaiting start =>
    rw [Closing.Stage.next] at hnext
    split at hnext
    · obtain ⟨rfl, rfl⟩ := Prod.mk.inj (Option.some.inj hnext)
      exact hquiet hc rfl rfl rfl (by rintro ⟨⟩)
    · cases hnext
  | burying =>
    obtain ⟨rfl, rfl⟩ := Prod.mk.inj (Option.some.inj hnext)
    refine hquiet (present_update hc _) ?_ ?_ ?_ (by rintro ⟨⟩) <;> rw [channel_update hc]
  | marking =>
    obtain ⟨rfl, rfl⟩ := Prod.mk.inj (Option.some.inj hnext)
    refine ⟨present_update hc _, ?_⟩
    rw [channel_update hc]
    refine hinv.aside rfl hinv.counted (Nat.le_refl _) fun _ => .inl (.inr ?_)
    exact List.mem_of_getElem? (List.getElem?_set_self (List.getElem?_eq_some_iff.mp hi).1)
  | draining =>
    obtain ⟨rfl, rfl⟩ := Prod.mk.inj (Option.some.inj hnext)
    refine ⟨present_update hc _, ?_⟩
    rw [channel_update hc]
    exact hinv.drain _
  | ended => cases hnext

/-- Every action keeps the invariant. -/
theorem Holds.perform (h : s.Holds c) (action : Action) : (s.perform c action).Holds c := by
  obtain ⟨hc, hinv⟩ := h
  cases action with
  | call request => exact ⟨hc, hinv.begin request⟩
  | step i =>
    cases hi : s.callers[i]? with
    | none => simpa only [State.perform, hi] using ⟨hc, hinv⟩
    | some k =>
      cases hnext : k.stage.next c k.request s.net with
      | none => simpa only [State.perform, hi, hnext] using ⟨hc, hinv⟩
      | some r => simpa only [State.perform, hi, hnext] using Holds.advance ⟨hc, hinv⟩ hi hnext
  | deliver inbound =>
    simp only [State.perform]
    split
    · refine ⟨present_update hc _, ?_⟩
      rw [channel_update hc]
      exact accept_invariant hinv inbound
    · exact ⟨hc, hinv⟩
  | hangUp =>
    simp only [State.perform]
    split
    · refine ⟨present_update hc _, ?_⟩
      rw [channel_update hc]
      exact hinv.aside rfl hinv.counted (Nat.le_refl _) fun _ => .inl (.inl rfl)
    · exact ⟨hc, hinv⟩
  | giveUp =>
    simp only [State.perform]
    split
    · refine ⟨present_update hc _, ?_⟩
      rw [channel_update hc]
      exact hinv.drain _
    · exact ⟨hc, hinv⟩
  | shutDown =>
    refine ⟨hc, hinv.aside rfl hinv.counted (Nat.le_refl _) fun hclosed => .inr ⟨hclosed, ?_⟩⟩
    exact fun hd => hd.imp_right (List.mem_append_left _)
  | stepCloser i =>
    cases hi : s.closers[i]? with
    | none => simpa only [State.perform, hi] using ⟨hc, hinv⟩
    | some k =>
      cases hnext : k.next c s.net with
      | none => simpa only [State.perform, hi, hnext] using ⟨hc, hinv⟩
      | some r => simpa only [State.perform, hi, hnext] using Holds.stepCloser ⟨hc, hinv⟩ hi hnext
  | setPhase next =>
    simp only [State.perform]
    split
    · exact ⟨hc, hinv⟩
    · next hne =>
      refine ⟨present_update hc _, ?_⟩
      rw [channel_update hc]
      unfold Channel.setPhase
      split
      · exact hinv
      · exact hinv.aside rfl hinv.counted (Nat.le_refl _) fun hclosed => absurd hclosed hne
  | announce method params =>
    obtain ⟨hpending, hnext, hphase⟩ := post_frame (s.net.channel c).takeId.2
      ((s.net.channel c).dialect.notification (s.net.channel c).nextId method params)
    have hinv' : Invariant ((s.net.channel c).announce method params).2 s.callers s.log (s.taken + 1) s.Draining :=
      hinv.aside hpending (hnext.trans (congrArg Channel.following hinv.counted)) (Nat.le_succ _)
        fun hclosed => .inr ⟨hphase ▸ hclosed, fun hd => hd⟩
    have hch : (s.net.updateWith c fun ch => ch.announce method params).2.channel c
        = ((s.net.channel c).announce method params).2 := channel_updateWith hc _
    rw [← hch] at hinv'
    exact ⟨present_updateWith hc fun ch => ch.announce method params, hinv'⟩
  | outside now channel =>
    refine ⟨present_update hc _, ?_⟩
    have hch : ((s.perform c (.outside now channel)).net.channel c)
        = { channel with
            pending := (s.net.channel c).pending, nextId := (s.net.channel c).nextId
            phase := (s.net.channel c).phase } := channel_update hc _
    rw [hch]
    exact hinv.aside rfl hinv.counted (Nat.le_refl _) fun hclosed => .inr ⟨hclosed, fun hd => hd⟩

/-- Every run keeps the invariant. -/
theorem Holds.run (h : s.Holds c) (actions : List Action) : (s.run c actions).Holds c := by
  induction actions generalizing s with
  | nil => exact h
  | cons action actions ih => exact ih (h.perform action)

/-- A channel that was just connected. -/
def opened (n : Network) (ch : Channel) : State where
  net := (n.connect { ch with pending := {}, nextId := 1 }).2

lemma holds_opened (n : Network) (ch : Channel) : (opened n ch).Holds n.channels.length := by
  have hch : (opened n ch).net.channel n.channels.length = { ch with pending := {}, nextId := 1 } := by
    simp [opened, Network.connect, Network.channel]
  refine ⟨by simp [opened, Network.connect], ?_⟩
  rw [hch]
  exact ⟨Pending.sound_empty, rfl, by simp [opened], by simp [opened], by simp⟩

/-- An action takes one number at most. -/
lemma taken_perform_le (s : State) (action : Action) : (s.perform c action).taken ≤ s.taken + 1 := by
  cases action with
  | step i =>
    simp only [State.perform]
    split
    · exact Nat.le_succ _
    · split
      · exact Nat.le_succ _
      · unfold State.advance
        split <;> simp
  | deliver inbound =>
    simp only [State.perform]
    split
    · cases inbound <;> simp [numbersOf]
    · exact Nat.le_succ _
  | stepCloser i =>
    simp only [State.perform]
    split
    · exact Nat.le_succ _
    · split <;> exact Nat.le_succ _
  | hangUp | giveUp | setPhase next =>
    simp only [State.perform]
    split <;> exact Nat.le_succ _
  | call request | shutDown | outside now channel => exact Nat.le_succ _
  | announce method params => exact Nat.le_refl _

lemma taken_run_le (s : State) (actions : List Action) :
    (s.run c actions).taken ≤ s.taken + actions.length := by
  induction actions generalizing s with
  | nil => exact Nat.le_refl _
  | cons action actions ih =>
    have hstep := taken_perform_le (c := c) s action
    have hrest := ih (s.perform c action)
    simp only [List.length_cons]
    exact Nat.le_trans hrest (by omega)

/-- A call that has returned stays as it is. -/
lemma perform_over {i : Nat} {k : Caller} {result : Except Channel.Fault Json} (hi : s.callers[i]? = some k)
    (hover : k.stage = .ended result) (action : Action) : (s.perform c action).callers[i]? = some k := by
  have hlt := (List.getElem?_eq_some_iff.mp hi).1
  cases action with
  | call request => exact (List.getElem?_append_left hlt).trans hi
  | step j =>
    simp only [State.perform]
    split
    · exact hi
    · next l hj =>
      split
      · exact hi
      · next stage net hnext =>
        have hji : j ≠ i := by
          rintro rfl
          obtain rfl := Option.some.inj (hi.symm.trans hj)
          rw [hover] at hnext
          cases hnext
        unfold State.advance
        split <;> exact (List.getElem?_set_ne hji).trans hi
  | deliver inbound =>
    simp only [State.perform]
    split <;> exact hi
  | stepCloser j =>
    simp only [State.perform]
    split
    · exact hi
    · split <;> exact hi
  | hangUp | giveUp | setPhase next =>
    simp only [State.perform]
    split <;> exact hi
  | shutDown | announce method params | outside now channel => exact hi

lemma run_over {i : Nat} {k : Caller} {result : Except Channel.Fault Json} (hi : s.callers[i]? = some k)
    (hover : k.stage = .ended result) (actions : List Action) : (s.run c actions).callers[i]? = some k := by
  induction actions generalizing s with
  | nil => exact hi
  | cons action actions ih => exact ih (perform_over hi hover action)

/-! ## What the invariant says -/

/-- Two requests under one number are more than 64 bits of numbers apart. -/
lemma Holds.id_ne (h : s.Holds c) {i j : Nat} {k l : Caller} {e f : Enrolment} (hi : s.callers[i]? = some k)
    (hj : s.callers[j]? = some l) (he : k.enrolment = some e) (hf : l.enrolment = some f) (hid : e.id = f.id)
    (hij : i ≠ j) : 2 ^ 64 < s.taken := by
  obtain ⟨hlte, hide⟩ := (h.2.fits k (List.mem_of_getElem? hi)).numbered e he
  obtain ⟨hltf, hidf⟩ := (h.2.fits l (List.mem_of_getElem? hj)).numbered f hf
  have hne : e.number ≠ f.number := fun heq => hij (h.2.apart i j k l e f hi hj he hf (.inr heq))
  rw [hide, hidf] at hid
  rcases Nat.lt_or_gt_of_ne hne with hlt | hlt
  · have := le_of_numberAfter_eq hid hlt
    omega
  · have := le_of_numberAfter_eq hid.symm hlt
    omega

/-- The table holds the numbers of the requests whose wait was not ended. -/
lemma Holds.mem_waiting_iff (h : s.Holds c) (id : Int) :
    id ∈ (s.net.channel c).pending.waiting.map (·.1) ↔
      ∃ k ∈ s.callers, ∃ e, k.enrolment = some e ∧ e.id = id ∧ e.Unended s.log := by
  constructor
  · intro hid
    obtain ⟨w, hw, rfl⟩ := List.mem_map.mp hid
    obtain ⟨i, k, e, hi, he, rfl, -⟩ := h.2.owned w hw
    have hk := List.mem_of_getElem? hi
    exact ⟨k, hk, e, he, rfl, ((h.2.fits k hk).tracked e he).unended hw⟩
  · rintro ⟨k, hk, e, he, rfl, hun⟩
    exact ((h.2.fits k hk).tracked e he).listed hun

/-- Where nobody can go on, the channel is closed and nothing is about to be given up, nothing is outstanding. -/
lemma Holds.waiting_eq_nil (h : s.Holds c) (hclosed : (s.net.channel c).phase = .closed)
    (hdrained : ¬ s.Draining) (hstuck : ∀ k ∈ s.callers, k.stage.next c k.request s.net = none) :
    (s.net.channel c).pending.waiting = [] := by
  refine List.eq_nil_iff_forall_not_mem.mpr fun w hw => ?_
  obtain ⟨i, k, e, hi, -, -, hleave⟩ := h.2.owned w hw
  have hnone := hstuck k (List.mem_of_getElem? hi)
  -- the only owners left are at stages from which a caller can go on
  have hleave := (hleave hclosed).resolve_left hdrained
  cases hstage : k.stage with
  | verifying id ticket =>
    rw [hstage] at hnone
    cases hnone
  | withdrawing id ticket fault =>
    rw [hstage] at hnone
    cases hnone
  | _ =>
    rw [hstage] at hleave
    exact hleave.elim

/-- A caller that cannot go on waits or has returned. -/
lemma stuck_cases {k : Stage} {r : Request} {n : Network} (h : k.next c r n = none) :
    (∃ id ticket limit deadline, k = .waiting id ticket limit deadline ∧
      (n.channel c).pending.settlement? ticket = none) ∨ ∃ result, k = .ended result := by
  cases k with
  | waiting id ticket limit deadline =>
    refine .inl ⟨id, ticket, limit, deadline, rfl, ?_⟩
    cases hs : (n.channel c).pending.settlement? ticket with
    | none => rfl
    | some s => simp [Stage.next, Wait.holds, hs] at h
  | ended result => exact .inr ⟨result, rfl⟩
  | posting id ticket =>
    simp only [Stage.next] at h
    split at h <;> cases h
  | fetching id ticket limit =>
    simp only [Stage.next] at h
    split at h <;> cases h
  | _ => cases h

/-- Nobody is left waiting on a closed channel. -/
lemma Holds.over_of_stuck (h : s.Holds c) (hclosed : (s.net.channel c).phase = .closed)
    (hdrained : ¬ s.Draining) (hstuck : ∀ k ∈ s.callers, k.stage.next c k.request s.net = none) {k : Caller}
    (hk : k ∈ s.callers) : ∃ result, k.stage = .ended result := by
  rcases stuck_cases (hstuck k hk) with ⟨id, ticket, limit, deadline, hstage, hnone⟩ | hover
  · obtain ⟨e, -, rfl, rfl, hlive⟩ := (h.2.fits k hk).held id ticket (by rw [hstage]; rfl)
    rcases hlive with hw | ⟨r, hr⟩
    · rw [h.waiting_eq_nil hclosed hdrained hstuck] at hw
      cases hw
    · exact absurd hr (Pending.not_mem_of_settlement?_eq_none hnone r)
  · exact hover

end State

/-! ## Correlation -/

/-- The steps of callers, shutdowns and the reader are those of the program. -/
structure FollowsProgram (c : ChannelId) : Prop where
  request_start : ∀ r, Stage.work c r .starting = (requestUntil c r.method r.params r.latest).outcome
  request_step : ∀ r k n, (Stage.work c r k).tick? Wait.holds n
    = (k.next c r n).map fun (k, n) => (k.work c r, n)
  shutdown_start : Closing.Stage.work c .starting = shutdown c
  shutdown_step : ∀ k n, (Closing.Stage.work c k).tick? Wait.holds n
    = (k.next c n).map fun (k, n) => (k.work c, n)
  /-- Reading takes one message in or none, or marks the channel as closed and gives everything up. -/
  read : ∀ ch : Channel,
    (∃ rest, ch.readOne.2 = { ch with incoming := rest } ∨
      ∃ inbound, ch.readOne.2 = { ch with incoming := rest }.accept inbound) ∨
    ch.readOne = (false, { ch with readerDone := true }.markClosed.drain)

lemma followsProgram (c : ChannelId) : FollowsProgram c where
  request_start _ := rfl
  request_step _ k n := Request.tick_work k n
  shutdown_start := rfl
  shutdown_step k n := Closing.tick_work k n
  read ch := by
    unfold Channel.readOne
    split
    · next message rest _ =>
      refine .inl ⟨rest, ?_⟩
      unfold Channel.receive
      split
      · next inbound _ => exact .inr ⟨inbound, rfl⟩
      · exact .inl rfl
    · exact .inl ⟨ch.incoming, .inl rfl⟩
    · exact .inl ⟨ch.incoming, .inl rfl⟩
    · exact .inr rfl
    · exact .inr rfl

/-- Whatever the order in which callers, the reader, shutdowns and everything around a channel take their
steps: a call returns once; no number is given to two requests before all of them were used up; a call that
returns an answer returns the first response to its own number since it took it, and any other fault is its own;
the table holds exactly the numbers whose wait was not ended; and when the channel is closed, nothing is about
to be given up and no caller can go on, the table is empty and every call has returned. -/
theorem requests_correlated (n : Network) (ch : Channel) (actions : List Action) :
    let c := n.channels.length
    let s := (State.opened n ch).run c actions
    FollowsProgram c ∧
      (∀ (i : Nat) (k : Caller) (result : Except Channel.Fault Json), s.callers[i]? = some k →
        k.stage = .ended result → ∀ more, (s.run c more).callers[i]? = some k) ∧
      (∀ k ∈ s.callers, ∀ id ticket, heldAt k.stage = some (id, ticket) →
        ∃ e, k.enrolment = some e ∧ e.id = id ∧ e.ticket = ticket) ∧
      (∀ (i j : Nat) (k l : Caller) (e f : Enrolment), s.callers[i]? = some k → s.callers[j]? = some l →
        k.enrolment = some e → l.enrolment = some f → e.id = f.id → i ≠ j → 2 ^ 64 < actions.length) ∧
      (∀ k ∈ s.callers, ∀ result, k.stage = .ended result → Concluded k.enrolment s.log result) ∧
      ((s.net.channel c).pending.waiting.map (·.1)).Nodup ∧
      (∀ id, id ∈ (s.net.channel c).pending.waiting.map (·.1) ↔
        ∃ k ∈ s.callers, ∃ e, k.enrolment = some e ∧ e.id = id ∧ e.Unended s.log) ∧
      ((s.net.channel c).phase = .closed → ¬ s.Draining →
        (∀ k ∈ s.callers, k.stage.next c k.request s.net = none) →
        (s.net.channel c).pending.waiting = [] ∧
          ∀ k ∈ s.callers, ∃ result, k.stage = .ended result ∧ Concluded k.enrolment s.log result) := by
  intro c s
  have hs : s.Holds c := (State.holds_opened n ch).run actions
  have htaken : s.taken ≤ 0 + actions.length := State.taken_run_le _ actions
  refine ⟨followsProgram c, ?_, ?_, ?_, ?_, hs.2.sound.apart, hs.mem_waiting_iff, ?_⟩
  · intro i k result hi hover more
    exact State.run_over hi hover more
  · intro k hk id ticket hheld
    obtain ⟨e, he, hid, hticket, -⟩ := (hs.2.fits k hk).held id ticket hheld
    exact ⟨e, he, hid, hticket⟩
  · intro i j k l e f hi hj he hf hid hij
    have := hs.id_ne hi hj he hf hid hij
    omega
  · intro k hk result hover
    exact (hs.2.fits k hk).concluded result hover
  · intro hclosed hdrained hstuck
    refine ⟨hs.waiting_eq_nil hclosed hdrained hstuck, fun k hk => ?_⟩
    obtain ⟨result, hover⟩ := hs.over_of_stuck hclosed hdrained hstuck hk
    exact ⟨result, hover, (hs.2.fits k hk).concluded result hover⟩

/-- A request that takes its number before the channel is marked as closed sees it at its second look. -/
example : ((State.opened {} {}).run 0 [.call ⟨"threads", .null, none⟩, .step 0, .step 0, .hangUp, .giveUp,
    .step 0, .step 0]).callers.map (·.stage) = [.ended (.error .closed)] := by
  rfl

end Switchboard.Network.Correlation
