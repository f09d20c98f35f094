import Switchboard.Proofs.Channel.Envelopes
import Switchboard.Proofs.Channel.Stage
import Switchboard.Proofs.Concurrency.Accesses

/-!
# What calls do to channels

* `Door`: the phase of a channel and its turns; `Door.Nudged`: what may happen to it besides handshakes;
* `Says`: at most a request of one of some names leaves over a channel, and no door changes;
* `Hands`: a message leaves that the other side reads as a request of one of some names;
* `Ages`: what is closed stays closed; `Mild`, `Civil`: one door, or every door, is left alone, or becomes ready or closed;
* `within_requestUntil`, `atMost_requestUntil`: a request says what it asks for, and hands it over at most once;
* `within_civil_requestUntil`, `within_civil_notify`, `within_civil_shutdown`: what other calls do to doors.
-/

namespace Switchboard

/-! ## Doors -/

/-- The phase of a channel, the turn that is on and the next one to give out. -/
structure Door where
  phase : Phase
  turn : Nat
  given : Nat

/-- The door of a channel. -/
def Channel.door (ch : Channel) : Door := ⟨ch.phase, ch.turn, ch.turnsGiven⟩

namespace Door

/-- Move to another phase, unless the door is closed. -/
def set (d : Door) (next : Phase) : Door := if d.phase = .closed then d else { d with phase := next }

/-- The turn is passed on. -/
def pass (d : Door) : Door := { d with turn := d.turn + 1 }

/-- What may happen to a door besides handshakes: it becomes ready, or it closes. -/
inductive Nudged : Door → Door → Prop
  | same (d : Door) : Nudged d d
  | ready (d : Door) : Nudged d (d.set .ready)
  | closed (d : Door) : Nudged d { d with phase := .closed }

variable {d d' : Door}

@[simp] lemma turn_set (next : Phase) : (d.set next).turn = d.turn := by
  unfold set
  split <;> rfl

@[simp] lemma given_set (next : Phase) : (d.set next).given = d.given := by
  unfold set
  split <;> rfl

lemma phase_set (next : Phase) : (d.set next).phase = .closed ∧ d.phase = .closed ∨ (d.set next).phase = next := by
  unfold set
  split
  · next h => exact .inl ⟨h, h⟩
  · exact .inr rfl

namespace Nudged

lemma turn (h : Nudged d d') : d'.turn = d.turn := by
  cases h with
  | same => rfl
  | ready => exact turn_set _
  | closed => rfl

lemma given (h : Nudged d d') : d'.given = d.given := by
  cases h with
  | same => rfl
  | ready => exact given_set _
  | closed => rfl

lemma phase (h : Nudged d d') : d'.phase = d.phase ∨ d'.phase = .ready ∨ d'.phase = .closed := by
  cases h with
  | same => exact .inl rfl
  | ready =>
    rcases phase_set (d := d) .ready with ⟨hc, -⟩ | hr
    · exact .inr (.inr hc)
    · exact .inr (.inl hr)
  | closed => exact .inr (.inr rfl)

/-- What is closed stays closed. -/
lemma ages (h : Nudged d d') (hclosed : d.phase = .closed) : d'.phase = .closed := by
  cases h with
  | same => exact hclosed
  | ready => rw [set, if_pos hclosed, hclosed]
  | closed => rfl

lemma of_ready (h : Nudged d d') (hready : d.phase = .ready) : d'.phase = .ready ∨ d'.phase = .closed := by
  rcases h.phase with h | h | h
  · exact .inl (h.trans hready)
  · exact .inl h
  · exact .inr h

/-- The phases before and during a handshake are not reached by a nudge. -/
lemma phase_eq (h : Nudged d d') {p : Phase} (hp : d'.phase = p) (hr : p ≠ .ready) (hc : p ≠ .closed) :
    d.phase = p := by
  rcases h.phase with h | h | h
  · exact h.symm.trans hp
  · exact absurd (hp.symm.trans h) hr
  · exact absurd (hp.symm.trans h) hc

end Nudged

end Door

lemma Channel.door_setPhase (ch : Channel) (next : Phase) : (ch.setPhase next).door = ch.door.set next := by
  unfold Channel.setPhase
  split
  · next h => exact (if_pos (show ch.door.phase = .closed from h)).symm
  · next h => exact (if_neg (show ¬ ch.door.phase = .closed from h)).symm

lemma Channel.outgoing_setPhase (next : Phase) (ch : Channel) : (ch.setPhase next).outgoing = ch.outgoing := by
  unfold Channel.setPhase
  split <;> rfl

namespace Network

/-! ## Changes of channels -/

section Changes

variable {n n' : Network} {c d : ChannelId}

/-- Only a channel that is there can be in another phase than the first one. -/
lemma present_of_phase (h : (n.channel c).phase ≠ .notInitialized) : c < n.channels.length := by
  by_contra hge
  have hdefault : n.channel c = default := by simp [channel, List.getD, Nat.not_lt.mp hge]
  rw [hdefault] at h
  exact h rfl

/-- A change of one channel leaves the others alone. -/
lemma channel_update_cases (n : Network) (c : ChannelId) (f : Channel → Channel) (d : ChannelId) :
    (n.update c f).channel d = n.channel d ∨ d = c ∧ (n.update c f).channel d = f (n.channel d) := by
  by_cases hcd : c = d
  · subst hcd
    by_cases hc : c < n.channels.length
    · right
      exact ⟨rfl, by simp [update, channel, hc]⟩
    · left
      simp [update, channel, hc]
  · left
    simp [update, channel, List.getD, hcd]

/-- Nothing leaves over any channel. -/
lemma outgoing_update {f : Channel → Channel} (hf : ∀ ch, (f ch).outgoing = ch.outgoing) (d : ChannelId) :
    ((n.update c f).channel d).outgoing = (n.channel d).outgoing := by
  rcases channel_update_cases n c f d with h | ⟨-, h⟩
  · rw [h]
  · rw [h, hf]

/-- At most a request of one of these names leaves over the channel, and no door changes. -/
structure Says (c : ChannelId) (names : List String) (n n' : Network) : Prop where
  present : n'.channels.length = n.channels.length
  door : ∀ d, (n'.channel d).door = (n.channel d).door
  others : ∀ d, d ≠ c → (n'.channel d).outgoing = (n.channel d).outgoing
  own : (n'.channel c).outgoing = (n.channel c).outgoing ∨
    ∃ name ∈ names, ∃ id params, (n'.channel c).outgoing
      = (n.channel c).outgoing ++ [(n.channel c).dialect.request id name params]

/-- A message leaves over some channel that the other side reads as a request of one of these names. -/
def Hands (wanted : List String) (n n' : Network) : Prop :=
  ∃ name ∈ wanted, ∃ c message seq params, (n'.channel c).outgoing = (n.channel c).outgoing ++ [message] ∧
    (n.channel c).dialect.decode message = .ok (.request seq name params)

/-- Whatever is closed stays closed. -/
def Ages (n n' : Network) : Prop := ∀ d, (n.channel d).phase = .closed → (n'.channel d).phase = .closed

lemma Says.refl (c : ChannelId) (names : List String) (n : Network) : Says c names n n :=
  ⟨rfl, fun _ => rfl, fun _ _ => rfl, .inl rfl⟩

lemma Says.phase {names : List String} (h : Says c names n n') (d : ChannelId) :
    (n'.channel d).phase = (n.channel d).phase := congrArg Door.phase (h.door d)

lemma Says.mono {names more : List String} (h : Says c names n n') (hsub : names ⊆ more) : Says c more n n' where
  present := h.present
  door := h.door
  others := h.others
  own := by
    rcases h.own with hsame | ⟨name, hname, id, params, hout⟩
    · exact .inl hsame
    · exact .inr ⟨name, hsub hname, id, params, hout⟩

lemma Says.update {names : List String} {f : Channel → Channel} (hdoor : ∀ ch : Channel, (f ch).door = ch.door)
    (hout : ∀ ch, (f ch).outgoing = ch.outgoing ∨
      ∃ name ∈ names, ∃ id params, (f ch).outgoing = ch.outgoing ++ [ch.dialect.request id name params]) :
    Says c names n (n.update c f) where
  present := List.length_modify ..
  door d := by
    rcases channel_update_cases n c f d with h | ⟨-, h⟩
    · rw [h]
    · rw [h, hdoor]
  others d hd := by
    rcases channel_update_cases n c f d with h | ⟨hdc, -⟩
    · rw [h]
    · exact absurd hdc hd
  own := by
    rcases channel_update_cases n c f c with h | ⟨-, h⟩
    · exact .inl (by rw [h])
    · rw [h]
      exact hout (n.channel c)

/-- Something that has to do with the table of the channel alone. -/
lemma Says.update_quiet {names : List String} {f : Channel → Channel} (hdoor : ∀ ch : Channel, (f ch).door = ch.door)
    (hout : ∀ ch, (f ch).outgoing = ch.outgoing) : Says c names n (n.update c f) :=
  .update hdoor fun ch => .inl (hout ch)

/-- What is handed over is what is said. -/
lemma Says.mem_of_hands {names wanted : List String} (h : Says c names n n') (hhands : Hands wanted n n') :
    ∃ name ∈ wanted, name ∈ names := by
  obtain ⟨name, hname, d, message, seq, params, hout, hread⟩ := hhands
  have hgrows : (n'.channel d).outgoing ≠ (n.channel d).outgoing := by
    intro heq
    have hlength := congrArg List.length (heq.symm.trans hout)
    simp at hlength
  have hd : d = c := by
    by_contra hd
    exact hgrows (h.others d hd)
  subst hd
  rcases h.own with hsame | ⟨said, hsaid, id, sent, hown⟩
  · exact absurd hsame hgrows
  · have hmessage : message = (n.channel d).dialect.request id said sent := by
      have hlists := hout.symm.trans hown
      exact List.singleton_inj.mp (List.append_cancel_left hlists)
    rw [hmessage, Dialect.decode_request_eq] at hread
    injection hread with hinbound
    injection hinbound with _ hsame _
    exact ⟨name, hname, hsame ▸ hsaid⟩

/-- Where nothing leaves nothing is handed over. -/
lemma not_hands_of_eq (wanted : List String) (hout : ∀ d, (n'.channel d).outgoing = (n.channel d).outgoing) :
    ¬ Hands wanted n n' := by
  rintro ⟨-, -, d, message, seq, params, hmore, -⟩
  have hlength := congrArg List.length ((hout d).symm.trans hmore)
  simp at hlength

lemma not_hands_refl (wanted : List String) (n : Network) : ¬ Hands wanted n n := not_hands_of_eq wanted fun _ => rfl

lemma Ages.refl (n : Network) : Ages n n := fun _ h => h

lemma Ages.update {f : Channel → Channel} (hf : ∀ ch, ch.phase = .closed → (f ch).phase = .closed) :
    Ages n (n.update c f) := by
  intro d hd
  rcases channel_update_cases n c f d with h | ⟨-, h⟩
  · rw [h]
    exact hd
  · rw [h]
    exact hf _ hd

end Changes

/-! ## Mild changes -/

/-- The channel is still there, and its door is as it was, became ready or closed. -/
structure Mild (c : ChannelId) (n n' : Network) : Prop where
  present : c < n.channels.length → c < n'.channels.length
  door : (n.channel c).door.Nudged (n'.channel c).door

namespace Mild

variable {c : ChannelId} {n n' : Network}

lemma refl (c : ChannelId) (n : Network) : Mild c n n := ⟨id, .same _⟩

/-- A change of one channel. -/
lemma update {d : ChannelId} {f : Channel → Channel} (hf : ∀ ch : Channel, ch.door.Nudged (f ch).door) :
    Mild c n (n.update d f) where
  present hc := by simpa [Network.update] using hc
  door := by
    rcases channel_update_cases n d f c with h | ⟨-, h⟩
    · rw [h]
      exact .same _
    · rw [h]
      exact hf _

/-- A change that has nothing to do with phases and turns. -/
lemma update_quiet {d : ChannelId} {f : Channel → Channel} (hf : ∀ ch : Channel, (f ch).door = ch.door) :
    Mild c n (n.update d f) := by
  refine Mild.update ?_
  intro ch
  rw [hf ch]
  exact .same _

end Mild

/-- Every door is left alone, or becomes ready or closed, and no request of one of these names is handed over. -/
structure Civil (wanted : List String) (n n' : Network) : Prop where
  mild : ∀ c, Mild c n n'
  silent : ¬ Hands wanted n n'

namespace Civil

variable {wanted : List String} {n n' : Network}

lemma refl (wanted : List String) (n : Network) : Civil wanted n n := ⟨fun c => .refl c n, not_hands_refl wanted n⟩

lemma ages (h : Civil wanted n n') : Ages n n' := fun c hclosed => (h.mild c).door.ages hclosed

lemma update {d : ChannelId} {f : Channel → Channel} (hf : ∀ ch : Channel, ch.door.Nudged (f ch).door)
    (hout : ∀ ch, (f ch).outgoing = ch.outgoing) : Civil wanted n (n.update d f) :=
  ⟨fun _ => .update hf, not_hands_of_eq wanted (outgoing_update hout)⟩

lemma update_quiet {d : ChannelId} {f : Channel → Channel} (hf : ∀ ch : Channel, (f ch).door = ch.door)
    (hout : ∀ ch, (f ch).outgoing = ch.outgoing) : Civil wanted n (n.update d f) :=
  ⟨fun _ => .update_quiet hf, not_hands_of_eq wanted (outgoing_update hout)⟩

end Civil

namespace Says

variable {c : ChannelId} {names wanted : List String} {n n' : Network}

/-- Words change no door. -/
lemma mild (h : Says c names n n') (d : ChannelId) : Mild d n n' := by
  refine ⟨fun hd => h.present ▸ hd, ?_⟩
  rw [h.door d]
  exact .same _

/-- Other words than these may be said. -/
lemma civil (h : Says c names n n') (hwanted : ∀ name ∈ wanted, name ∉ names) : Civil wanted n n' := by
  refine ⟨h.mild, fun hhands => ?_⟩
  obtain ⟨name, hname, hmem⟩ := h.mem_of_hands hhands
  exact hwanted name hname hmem

lemma ages (h : Says c names n n') : Ages n n' := fun d hd => (h.phase d).trans hd

end Says

/-! ## Requests -/

section Requests

variable {c : ChannelId} {names : List String}

lemma door_post (ch : Channel) (message : Json) : (ch.post message).2.door = ch.door := by
  unfold Channel.post Channel.write
  split
  · next ch' h =>
    split at h
    · cases h
    · obtain rfl := Except.ok.inj h
      rfl
  · rfl

lemma phase_post (ch : Channel) (message : Json) : (ch.post message).2.phase = ch.phase :=
  congrArg Door.phase (door_post ch message)

lemma outgoing_post (ch : Channel) (message : Json) :
    (ch.post message).2.outgoing = ch.outgoing ∨ (ch.post message).2.outgoing = ch.outgoing ++ [message] := by
  unfold Channel.post Channel.write
  split
  · next ch' h =>
    split at h
    · cases h
    · obtain rfl := Except.ok.inj h
      exact .inr rfl
  · exact .inl rfl

lemma says_ask (id : Int) (method : String) (params : Json) (n : Network) :
    Says c [method] n (n.updateWith c fun ch => ch.ask id method params).2 := by
  rw [updateWith_eq]
  refine .update ?_ ?_
  · intro ch
    exact door_post ch _
  · intro ch
    rcases outgoing_post ch (ch.dialect.request id method params) with h | h
    · exact .inl h
    · exact .inr ⟨method, List.mem_singleton_self method, id, params, h⟩

lemma says_enroll (n : Network) : Says c names n (n.updateWith c Channel.enroll).2 := by
  rw [updateWith_eq]
  exact .update_quiet (fun _ => rfl) fun _ => rfl

lemma says_fetch (ticket : Nat) (n : Network) : Says c names n (fetch c ticket n).2 := by
  unfold fetch
  split
  · exact .update_quiet (fun _ => rfl) fun _ => rfl
  · exact .refl c names n

lemma within_checkOpen {R : Network → Network → Prop} (hrefl : ∀ n, R n n) : Attempt.Within R (checkOpen c) := by
  refine .bind (.ofTask (.view hrefl)) ?_
  intro isOpen
  split
  · exact .pure ()
  · exact .throw _

lemma within_withdraw (id : Int) (ticket : Nat) : Attempt.Within (Says c names) (withdraw c id ticket) :=
  .ofTask (.modify fun _ => .update_quiet (fun _ => rfl) fun _ => rfl)

lemma within_orWithdraw (id : Int) (ticket : Nat) {step : Call Unit} (h : Attempt.Within (Says c names) step) :
    Attempt.Within (Says c names) (orWithdraw c id ticket step) := by
  refine .bind (.ofTask h) ?_
  intro e
  cases e with
  | ok x => exact .pure ()
  | error e => exact .bind (within_withdraw id ticket) fun _ => .throw e

lemma nextId_post (ch : Channel) (message : Json) : (ch.post message).2.nextId = ch.nextId := by
  unfold Channel.post Channel.write
  split
  · next ch' h =>
    split at h
    · cases h
    · obtain rfl := Except.ok.inj h
      rfl
  · rfl

/-- What could be handed over was, and what could not was not. -/
lemma post_cases (ch : Channel) (message : Json) :
    (ch.post message).1 = .ok () ∧ (ch.post message).2.outgoing = ch.outgoing ++ [message] ∨
      (∃ fault, (ch.post message).1 = .error fault) ∧ (ch.post message).2.outgoing = ch.outgoing := by
  unfold Channel.post Channel.write
  by_cases hbroken : ch.outputBroken = true
  · rw [if_pos hbroken]
    exact .inr ⟨⟨_, rfl⟩, rfl⟩
  · rw [if_neg hbroken]
    exact .inl ⟨rfl, rfl⟩

/-- A step of a request changes no door, only one of its steps takes a number, and only one hands the message over. -/
lemma Request.next_changes {r : Request} {k k' : Request.Stage} {n n' : Network} (h : k.next c r n = some (k', n')) :
    ∃ f : Channel → Channel, n' = n.update c f ∧ (∀ ch : Channel, (f ch).door = ch.door) ∧
      (k ≠ .enrolling → ∀ ch, (f ch).nextId = ch.nextId) ∧
      ((f (n.channel c)).outgoing = (n.channel c).outgoing ∧ (∀ id ticket, k' ≠ .timing id ticket) ∨
        ∃ id ticket, k' = .timing id ticket ∧ (f (n.channel c)).outgoing
          = (n.channel c).outgoing ++ [(n.channel c).dialect.request id r.method r.params]) := by
  have hsame : n = n.update c id := by rw [update, List.modify_id]
  -- posting writes, enrolling takes a number, the end of a request clears it from the table; all else only looks
  cases k with
  | starting | verifying id ticket =>
    obtain ⟨rfl, rfl⟩ := Prod.mk.inj (Option.some.inj h)
    refine ⟨_, hsame, fun _ => rfl, fun _ _ => rfl, .inl ⟨rfl, ?_⟩⟩
    split <;> simp
  | timing id ticket =>
    obtain ⟨rfl, rfl⟩ := Prod.mk.inj (Option.some.inj h)
    exact ⟨_, hsame, fun _ => rfl, fun _ _ => rfl, .inl ⟨rfl, by simp⟩⟩
  | enrolling =>
    obtain ⟨rfl, rfl⟩ := Prod.mk.inj (Option.some.inj h)
    rw [updateWith_eq]
    exact ⟨_, rfl, fun _ => rfl, fun hk => absurd rfl hk, .inl ⟨rfl, by simp⟩⟩
  | posting id ticket =>
    have hasked : n.updateWith c (fun ch => ch.ask id r.method r.params)
        = (((n.channel c).ask id r.method r.params).1, n.update c fun ch => (ch.ask id r.method r.params).2) :=
      updateWith_eq n c _
    simp only [Stage.next, hasked] at h
    rcases post_cases (n.channel c) ((n.channel c).dialect.request id r.method r.params) with
      ⟨hok, hout⟩ | ⟨⟨fault, hfault⟩, hout⟩
    · rw [Channel.ask, hok] at h
      obtain ⟨rfl, rfl⟩ := Prod.mk.inj (Option.some.inj h)
      exact ⟨_, rfl, fun ch => door_post ch _, fun _ ch => nextId_post ch _, .inr ⟨id, ticket, rfl, hout⟩⟩
    · rw [Channel.ask, hfault] at h
      obtain ⟨rfl, rfl⟩ := Prod.mk.inj (Option.some.inj h)
      exact ⟨_, rfl, fun ch => door_post ch _, fun _ ch => nextId_post ch _, .inl ⟨hout, by simp⟩⟩
  | waiting id ticket limit deadline =>
    simp only [Stage.next] at h
    split at h
    · obtain ⟨rfl, rfl⟩ := Prod.mk.inj (Option.some.inj h)
      exact ⟨_, hsame, fun _ => rfl, fun _ _ => rfl, .inl ⟨rfl, by simp⟩⟩
    · cases h
  | fetching id ticket limit =>
    simp only [Stage.next, fetch] at h
    cases hs : (n.channel c).pending.settlement? ticket with
    | none =>
      simp only [hs] at h
      obtain ⟨rfl, rfl⟩ := Prod.mk.inj (Option.some.inj h)
      exact ⟨_, hsame, fun _ => rfl, fun _ _ => rfl, .inl ⟨rfl, by simp⟩⟩
    | some s =>
      simp only [hs] at h
      obtain ⟨rfl, rfl⟩ := Prod.mk.inj (Option.some.inj h)
      exact ⟨_, rfl, fun _ => rfl, fun _ _ => rfl, .inl ⟨rfl, by simp⟩⟩
  | withdrawing id ticket fault =>
    obtain ⟨rfl, rfl⟩ := Prod.mk.inj (Option.some.inj h)
    exact ⟨_, rfl, fun _ => rfl, fun _ _ => rfl, .inl ⟨rfl, by simp⟩⟩
  | ended result => cases h

/-- A request is handed over where it is posted. -/
lemma Request.posting_of_next_timing {r : Request} {k : Request.Stage} {n n' : Network} {id : Int} {ticket : Nat}
    (h : k.next c r n = some (.timing id ticket, n')) :
    k = .posting id ticket ∧ n.updateWith c (fun ch => ch.ask id r.method r.params) = (.ok (), n') := by
  cases k with
  | posting number place =>
    simp only [Stage.next] at h
    split at h
    · next hok =>
      obtain ⟨hstage, rfl⟩ := Prod.mk.inj (Option.some.inj h)
      obtain ⟨rfl, rfl⟩ := Stage.timing.inj hstage
      exact ⟨rfl, Prod.ext hok rfl⟩
    · cases (Prod.mk.inj (Option.some.inj h)).1
  | starting | verifying number place =>
    simp only [Stage.next] at h
    split at h <;> cases (Prod.mk.inj (Option.some.inj h)).1
  | waiting number place limit deadline =>
    simp only [Stage.next] at h
    split at h
    · cases (Prod.mk.inj (Option.some.inj h)).1
    · cases h
  | fetching number place limit =>
    simp only [Stage.next] at h
    split at h <;> cases (Prod.mk.inj (Option.some.inj h)).1
  | enrolling | timing number place | withdrawing number place fault => cases (Prod.mk.inj (Option.some.inj h)).1
  | ended result => cases h

/-- What follows once a request was handed over. -/
def afterAsking (c : ChannelId) (method : String) (latest : Option Nat) (id : Int) (ticket : Nat) : Call Json := do
  let n ← Attempt.ofTask Task.state
  let limit := (n.channel c).limit
  Attempt.ofTask (Task.await (.answer c ticket (earlier (n.deadlineAfter limit) latest)))
  match ← Attempt.ofTask (Task.act (fetch c ticket)) with
  | some s => Attempt.ofExcept (outcomeOf s)
  | none => do
    withdraw c id ticket
    throw (.timedOut method (limit.getD 0))

lemma requestUntil_eq (c : ChannelId) (method : String) (params : Json) (latest : Option Nat) :
    requestUntil c method params latest = (do
      checkOpen c
      let (id, ticket) ← enroll c
      orWithdraw c id ticket (checkOpen c)
      orWithdraw c id ticket (Attempt.act fun n => n.updateWith c fun ch => ch.ask id method params)
      afterAsking c method latest id ticket) := rfl

/-- Once it was handed over a request says nothing more. -/
lemma within_afterAsking (method : String) (latest : Option Nat) (id : Int) (ticket : Nat) :
    Attempt.Within (Says c names) (afterAsking c method latest id ticket) := by
  refine .bind (.ofTask (.view (.refl c names))) ?_
  intro n
  refine .bind (.ofTask trivial) ?_
  intro _
  refine .bind (.ofTask (.act (says_fetch ticket))) ?_
  intro found
  cases found with
  | some s => exact .ofExcept _
  | none => exact .bind (within_withdraw id ticket) fun _ => .throw _

/-- A request says nothing but what it asks for. -/
theorem within_requestUntil (method : String) (params : Json) (latest : Option Nat) :
    Attempt.Within (Says c [method]) (requestUntil c method params latest) := by
  rw [requestUntil_eq]
  refine .bind (within_checkOpen (.refl c _)) ?_
  intro _
  refine .bind (.ofTask (.act says_enroll)) ?_
  intro ticket
  refine .bind (within_orWithdraw _ _ (within_checkOpen (.refl c _))) ?_
  intro _
  refine .bind (within_orWithdraw _ _ (.act (says_ask _ method params))) ?_
  intro _
  exact within_afterAsking method latest _ _

/-- Work that says nothing hands nothing over. -/
lemma atMost_of_silent {ε α : Type} {work : Attempt Wait Network ε α} (h : Attempt.Within (Says c []) work)
    (wanted : List String) : Attempt.AtMost (Hands wanted) work 0 := by
  refine Task.AtMost.of_within (Task.Within.mono ?_ h) 0
  intro n n' hspoken hhands
  obtain ⟨name, -, hname⟩ := hspoken.mem_of_hands hhands
  exact List.not_mem_nil hname

/-- A request is handed over at most once. -/
theorem atMost_requestUntil (wanted : List String) (method : String) (params : Json) (latest : Option Nat) :
    Attempt.AtMost (Hands wanted) (requestUntil c method params latest) 1 := by
  have hask : ∀ id ticket, Attempt.AtMost (Hands wanted)
      (orWithdraw c id ticket (Attempt.act fun n => n.updateWith c fun ch => ch.ask id method params)) 1 := by
    intro id ticket
    refine .bind (j := 1) (k := 0) ?_ ?_
    · intro n
      exact ⟨fun _ => ⟨Nat.one_pos, trivial⟩, fun _ => trivial⟩
    · intro e
      cases e with
      | ok x => exact trivial
      | error e => exact atMost_of_silent (.bind (within_withdraw id ticket) fun _ => .throw e) wanted
  rw [requestUntil_eq]
  refine .bind (j := 0) (k := 1) (atMost_of_silent (within_checkOpen (.refl c _)) wanted) ?_
  intro _
  refine .bind (j := 0) (k := 1) (atMost_of_silent (.ofTask (.act says_enroll)) wanted) ?_
  intro ticket
  refine .bind (j := 0) (k := 1) (atMost_of_silent (within_orWithdraw _ _ (within_checkOpen (.refl c _))) wanted) ?_
  intro _
  refine .bind (j := 1) (k := 0) (hask _ _) ?_
  intro _
  exact atMost_of_silent (within_afterAsking method latest _ _) wanted

end Requests

/-! ## Calls that change phases -/

section Phases

variable {c : ChannelId}

lemma ages_setPhase (phase : Phase) (n : Network) : Ages n (n.update c (·.setPhase phase)) := by
  refine .update ?_
  intro ch hch
  rw [Channel.setPhase, if_pos hch]
  exact hch

lemma within_civil_requestUntil {wanted : List String} {method : String} (hmethod : method ∉ wanted) (params : Json)
    (latest : Option Nat) : Attempt.Within (Civil wanted) (requestUntil c method params latest) := by
  refine Task.Within.mono (fun _ _ h => h.civil fun name hname hmem => ?_) (within_requestUntil method params latest)
  exact hmethod (List.mem_singleton.mp hmem ▸ hname)

/-- A notification changes no door, and is no request. -/
lemma within_civil_notify (wanted : List String) (method : String) (params : Json) :
    Attempt.Within (Civil wanted) (notify c method params) := by
  refine .bind (within_checkOpen (.refl wanted)) fun _ => .act ?_
  intro n
  rw [updateWith_eq]
  refine ⟨fun d => .update_quiet fun ch => door_post _ _, ?_⟩
  rintro ⟨name, -, d, message, seq, read, hmore, hread⟩
  have hgrows : ((n.update c fun ch => (ch.announce method params).2).channel d).outgoing ≠ (n.channel d).outgoing := by
    rw [hmore]
    simp
  rcases channel_update_cases n c (fun ch => (ch.announce method params).2) d with hsame | ⟨-, hsame⟩
  · exact hgrows (congrArg Channel.outgoing hsame)
  · rcases outgoing_post (n.channel d).takeId.2 ((n.channel d).dialect.notification (n.channel d).nextId method params)
      with hout | hout
    · exact hgrows ((congrArg Channel.outgoing hsame).trans hout)
    · -- what left is the notification
      have hlists := ((congrArg Channel.outgoing hsame).trans hout).symm.trans hmore
      have hmessage := List.singleton_inj.mp (List.append_cancel_left hlists)
      rw [← hmessage, Dialect.decode_notification] at hread
      cases hread

lemma civil_setReady {wanted : List String} (n : Network) : Civil wanted n (n.update c (·.setPhase .ready)) := by
  refine .update ?_ (Channel.outgoing_setPhase _)
  intro ch
  rw [Channel.door_setPhase]
  exact .ready _

lemma within_civil_insertFeature (wanted : List String) (path : String) (value : Json) :
    Attempt.Within (Civil wanted) (insertFeature c path value) :=
  .ofTask (.modify fun _ => .update_quiet (fun _ => rfl) fun _ => rfl)

/-- A shutdown takes the process over and lets it exit, closes its channel and gives up what is outstanding. -/
lemma within_shutdown {R : Network → Network → Prop} (hrefl : ∀ n, R n n)
    (hquiet : ∀ f : Channel → Channel, (∀ ch : Channel, (f ch).door = ch.door ∧ (f ch).outgoing = ch.outgoing) →
      ∀ n, R n (n.update c f))
    (hclose : ∀ n, R n (n.update c (·.markClosed))) : (shutdown c).Within R := by
  refine .andThen (.act ?_) ?_
  · intro n
    unfold takeChild
    dsimp only
    split
    · exact hquiet (fun ch => { ch with reaped := true }) (fun _ => ⟨rfl, rfl⟩) n
    · exact hrefl n
  intro start
  refine .andThen ?_ ?_
  · cases start with
    | none => exact trivial
    | some start => exact .andThen (t := Task.await _) trivial fun _ => .modify (hquiet _ fun _ => ⟨rfl, rfl⟩)
  intro _
  exact .andThen (.modify hclose) fun _ => .modify (hquiet _ fun _ => ⟨rfl, rfl⟩)

/-- It closes its channel, and does nothing else to doors. -/
lemma within_civil_shutdown (wanted : List String) : (shutdown c).Within (Civil wanted) :=
  within_shutdown (.refl wanted) (fun _ hf _ => .update_quiet (fun ch => (hf ch).1) fun ch => (hf ch).2) fun _ =>
    .update (fun ch => .closed ch.door) fun _ => rfl

end Phases

end Network

end Switchboard
