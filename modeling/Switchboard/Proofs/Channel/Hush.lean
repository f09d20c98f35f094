import Switchboard.Proofs.Channel.Reader
import Switchboard.Proofs.Channel.Traffic

/-!
# Who passes no event on and takes none up

* `Channel.Hushed`: on a channel no event is passed on and none is taken up;
* `Network.Hushed`: so it is on all channels;
* `within_hushed_requestUntil`, `within_hushed_notify`, `within_hushed_shutdown`: every access of these calls is like that;
* `Place.hushed_next?`, `Place.heard_next?`: the reader passes on the events of the message that it takes off the
  incoming bytes, and nothing else.
-/

namespace Switchboard

namespace Channel

/-- No event is passed on and none is taken up, nobody listens anew, and what is closed stays closed. All else may
happen: messages leave, answers are awaited, bytes arrive, the stream ends, the channel closes. -/
structure Hushed (ch ch' : Channel) : Prop where
  handlers : ch'.handlers = ch.handlers
  heard : ch'.heard = ch.heard
  closed : ch.phase = .closed → ch'.phase = .closed

namespace Hushed

lemma refl (ch : Channel) : Hushed ch ch := ⟨rfl, rfl, id⟩

lemma post (ch : Channel) (message : Json) : Hushed ch (ch.post message).2 := by
  cases hbroken : ch.outputBroken with
  | true =>
    rw [Reader.post_of_broken hbroken]
    exact refl ch
  | false =>
    rw [Reader.post_of_open hbroken]
    exact ⟨rfl, rfl, id⟩

lemma setPhase (ch : Channel) (next : Phase) : Hushed ch (ch.setPhase next) := by
  unfold Channel.setPhase
  split
  · exact refl ch
  · next hopen => exact ⟨rfl, rfl, fun hclosed => absurd hclosed hopen⟩

end Hushed

namespace Reader.Place

/-- What the reader does besides taking in a message is hushed. -/
lemma hushed_next? {ch ch' : Channel} {p p' : Place} (hnone : p.message? ch = none)
    (hnext : p.next? ch = some (p', ch')) : Hushed ch ch' := by
  cases p with
  | reading =>
    simp only [message?, next?] at hnone hnext
    cases hread : Frame.next ch.room ch.inputEnded ch.incoming with
    | frame message rest =>
      rw [hread] at hnone
      cases hnone
    | starved =>
      rw [hread] at hnext
      cases hnext
    | overwhelmed | finished | failed fault =>
      rw [hread] at hnext
      obtain ⟨rfl, rfl⟩ := Prod.mk.inj (Option.some.inj hnext)
      exact ⟨rfl, rfl, id⟩
  | replying id method seq =>
    obtain ⟨rfl, rfl⟩ := Prod.mk.inj (Option.some.inj hnext)
    exact .post ch _
  | closing =>
    obtain ⟨rfl, rfl⟩ := Prod.mk.inj (Option.some.inj hnext)
    exact ⟨rfl, rfl, fun _ => rfl⟩
  | refusing id method | draining =>
    obtain ⟨rfl, rfl⟩ := Prod.mk.inj (Option.some.inj hnext)
    exact ⟨rfl, rfl, fun hclosed => hclosed⟩
  | stopped | broken => cases hnext

/-- The events of a message are passed on to who listens to everything. -/
lemma heard_next? {ch ch' : Channel} {p p' : Place} {label : String} {message : Json}
    (hhandlers : ch.handlers = .onAny {} label) (hmessage : p.message? ch = some message)
    (hnext : p.next? ch = some (p', ch')) :
    ch'.heard = ch.heard ++ (events ch.dialect [message]).map (fun event => ⟨label, event⟩) ∧
      ch'.handlers = ch.handlers ∧ (ch.phase = .closed → ch'.phase = .closed) := by
  cases p with
  | reading =>
    simp only [message?, next?] at hmessage hnext
    cases hread : Frame.next ch.room ch.inputEnded ch.incoming with
    | frame found rest =>
      rw [hread] at hmessage hnext
      obtain rfl := Option.some.inj hmessage
      have hleft : (leave ch rest).handlers = .of [.any label] := hhandlers
      have htaken := taken_takeIn hleft found
      rw [Option.some.inj hnext] at htaken
      exact ⟨deliveries_any (d := ch.dialect) label [found] ▸ htaken.heard, htaken.aside.handlers, htaken.aside.closed⟩
    | starved | overwhelmed | finished | failed fault =>
      rw [hread] at hmessage
      cases hmessage
  | refusing | replying | closing | draining | stopped | broken => cases hmessage

end Reader.Place

end Channel

namespace Network

/-- On no channel an event is passed on or taken up. -/
def Hushed (n n' : Network) : Prop := ∀ c, (n.channel c).Hushed (n'.channel c)

section Calls

variable {c : ChannelId}

lemma Hushed.refl (n : Network) : Hushed n n := fun d => .refl (n.channel d)

lemma Hushed.update {f : Channel → Channel} (hf : ∀ ch : Channel, ch.Hushed (f ch)) (n : Network) :
    Hushed n (n.update c f) := by
  intro d
  rcases channel_update_cases n c f d with h | ⟨-, h⟩
  · rw [h]
    exact .refl _
  · rw [h]
    exact hf _

lemma Hushed.updateWith {α : Type} {f : Channel → α × Channel} (hf : ∀ ch : Channel, ch.Hushed (f ch).2) (n : Network) :
    Hushed n (n.updateWith c f).2 := by
  rw [updateWith_eq]
  exact .update hf n

lemma hushed_fetch (ticket : Nat) (n : Network) : Hushed n (fetch c ticket n).2 := by
  unfold fetch
  split
  · exact .update (f := fun ch => { ch with pending := ch.pending.forget ticket }) (fun _ => ⟨rfl, rfl, id⟩) n
  · exact .refl n

lemma within_hushed_withdraw (id : Int) (ticket : Nat) : Attempt.Within Hushed (withdraw c id ticket) :=
  .ofTask (.modify (.update fun _ => ⟨rfl, rfl, fun hclosed => hclosed⟩))

lemma within_hushed_orWithdraw (id : Int) (ticket : Nat) {step : Call Unit} (h : Attempt.Within Hushed step) :
    Attempt.Within Hushed (orWithdraw c id ticket step) := by
  refine .bind (.ofTask h) ?_
  intro e
  cases e with
  | ok x => exact .pure ()
  | error e => exact .bind (within_hushed_withdraw id ticket) fun _ => .throw e

/-- A request passes no event on, whatever comes of it. -/
theorem within_hushed_requestUntil (method : String) (params : Json) (latest : Option Nat) :
    Attempt.Within Hushed (requestUntil c method params latest) := by
  have hask : ∀ (id : Int) (n : Network), Hushed n (n.updateWith c fun ch => ch.ask id method params).2 := fun id =>
    .updateWith fun ch => .post ch _
  rw [requestUntil_eq]
  refine .bind (within_checkOpen .refl) ?_
  intro _
  refine .bind (.ofTask (.act (.updateWith fun _ => ⟨rfl, rfl, id⟩))) ?_
  intro ticket
  refine .bind (within_hushed_orWithdraw _ _ (within_checkOpen .refl)) ?_
  intro _
  refine .bind (within_hushed_orWithdraw _ _ (.act (hask _))) ?_
  intro _
  refine .bind (.ofTask (.view .refl)) ?_
  intro n
  refine .bind (.ofTask trivial) ?_
  intro _
  refine .bind (.ofTask (.act (hushed_fetch _))) ?_
  intro found
  cases found with
  | some s => exact .ofExcept _
  | none => exact .bind (within_hushed_withdraw _ _) fun _ => .throw _

lemma within_hushed_notify (method : String) (params : Json) : Attempt.Within Hushed (notify c method params) := by
  refine .bind (within_checkOpen .refl) ?_
  intro _
  refine .act (.updateWith ?_)
  intro ch
  have hpost := Channel.Hushed.post ch.takeId.2 (ch.dialect.notification ch.nextId method params)
  exact ⟨hpost.handlers, hpost.heard, hpost.closed⟩

/-- The end of a channel takes no event away that was passed on before. -/
lemma within_hushed_shutdown : (shutdown c).Within Hushed := by
  refine .andThen (.act ?_) ?_
  · intro n
    unfold takeChild
    dsimp only
    split
    · exact .update (f := fun ch => { ch with reaped := true }) (fun _ => ⟨rfl, rfl, id⟩) n
    · exact .refl n
  intro start
  refine .andThen ?_ ?_
  · cases start with
    | none => exact trivial
    | some start =>
      exact .andThen (t := Task.await _) trivial fun _ =>
        .modify (.update fun _ => ⟨rfl, rfl, id⟩)
  intro _
  refine .andThen (.modify (.update fun ch => ⟨rfl, rfl, fun _ => rfl⟩)) fun _ => ?_
  exact .modify (.update fun _ => ⟨rfl, rfl, id⟩)

end Calls

end Network

end Switchboard
