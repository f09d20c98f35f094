import Switchboard.Analysis.Session
import Switchboard.Proofs.Channel.Speech
import Switchboard.Proofs.Concurrency.Carrying

/-!
# Who closes channels

* `Network.Steady`: what is open stays open and what is closed stays closed;
* `within_steady_requestUntil`, `within_steady_notify`, `within_steady_initializeWith`: so it is with all these calls;
* `Network.Quits`: a step of work that has channels to close: steady, or it closes the first one;
* `carries_quits_shutdown`: a shutdown closes its channel, and nothing else of it opens or closes any.
-/

namespace Switchboard

namespace Network

/-- No channel comes, and all are as open as they were. -/
structure Steady (n n' : Network) : Prop where
  length : n'.channels.length = n.channels.length
  closed : ∀ d, (n'.channel d).phase = .closed ↔ (n.channel d).phase = .closed

namespace Steady

lemma refl (n : Network) : Steady n n := ⟨rfl, fun _ => Iff.rfl⟩

lemma ages {n n' : Network} (h : Steady n n') : Ages n n' := fun d => (h.closed d).mpr

lemma update {c : ChannelId} {f : Channel → Channel} (hf : ∀ ch : Channel, (f ch).phase = .closed ↔ ch.phase = .closed)
    (n : Network) : Steady n (n.update c f) where
  length := List.length_modify ..
  closed d := by
    rcases channel_update_cases n c f d with h | ⟨-, h⟩
    · rw [h]
    · rw [h]
      exact hf _

/-- What is said opens and closes nothing. -/
lemma of_said {c : ChannelId} {names : List String} {n n' : Network} (h : Says c names n n') : Steady n n' where
  length := h.present
  closed d := by
    rw [h.phase d]

end Steady

section Calls

variable {c : ChannelId}

lemma within_steady_requestUntil (method : String) (params : Json) (latest : Option Nat) :
    Attempt.Within Steady (requestUntil c method params latest) :=
  Task.Within.mono (fun _ _ h => .of_said h) (within_requestUntil method params latest)

lemma within_steady_notify (method : String) (params : Json) : Attempt.Within Steady (notify c method params) := by
  refine .bind (within_checkOpen .refl) fun _ => .act ?_
  intro n
  rw [updateWith_eq]
  refine .update (fun ch => ?_) n
  show (ch.takeId.2.post _).2.phase = .closed ↔ _
  rw [phase_post]
  rfl

/-- A channel that is open may be in any phase but the last. -/
lemma closed_setPhase_iff {phase : Phase} (hphase : phase ≠ .closed) (ch : Channel) :
    (ch.setPhase phase).phase = .closed ↔ ch.phase = .closed := by
  unfold Channel.setPhase
  split
  · exact Iff.rfl
  · next hopen => exact iff_of_false hphase hopen

lemma within_steady_setPhase {phase : Phase} (hphase : phase ≠ .closed) : Attempt.Within Steady (setPhase c phase) :=
  .ofTask (.modify (.update (closed_setPhase_iff hphase)))

lemma within_steady_passTurn : Attempt.Within Steady (passTurn c) := .ofTask (.modify (.update fun _ => Iff.rfl))

/-- Handshakes open no channel and close none. -/
lemma within_steady_initializeWith {handshake : Call Unit} (h : Attempt.Within Steady handshake) :
    Attempt.Within Steady (initializeWith c handshake) := by
  refine .bind (.ofTask (.act ?_)) ?_
  · intro n
    rw [takeTurn, updateWith_eq]
    refine .update ?_ n
    intro ch
    exact Iff.rfl
  intro ticket
  refine .bind (.ofTask trivial) ?_
  intro _
  refine .bind (.ofTask (.view .refl)) ?_
  intro n
  split
  · exact within_steady_passTurn
  · exact within_steady_passTurn
  · exact .bind within_steady_passTurn fun _ => .throw _
  · refine .bind (within_steady_setPhase (by decide)) ?_
    intro _
    refine .bind (.ofTask h) ?_
    intro e
    cases e with
    | ok x => exact within_steady_passTurn
    | error e =>
      exact .bind (within_steady_setPhase (by decide)) fun _ => .bind within_steady_passTurn fun _ => .throw e

end Calls

/-! ## Shutdowns -/

/-- A step of work that has to close these channels, in this order. -/
inductive Quits : List ChannelId → Network → List ChannelId → Network → Prop
  | steady {held : List ChannelId} {n n' : Network} (same : Steady n n') : Quits held n held n'
  | closes (c : ChannelId) (rest : List ChannelId) (n : Network) : Quits (c :: rest) n rest (n.update c (·.markClosed))

/-- A shutdown closes its channel. -/
lemma carries_quits_shutdown (c : ChannelId) (rest : List ChannelId) :
    (shutdown c).Carries Quits (fun _ held => held = rest) (c :: rest) := by
  have hsteady : ∀ {α : Type} {t : Task Wait Network α} {held : List ChannelId}, t.Within Steady →
      t.Carries Quits (fun _ held' => held' = held) held := .of_within fun _ _ => .steady
  refine .andThen (hsteady (.act ?_)) ?_
  · intro n
    unfold takeChild
    dsimp only
    split
    · exact .update (f := fun ch => { ch with reaped := true }) (fun _ => Iff.rfl) n
    · exact .refl n
  rintro start _ rfl
  refine .andThen (hsteady ?_) ?_
  · cases start with
    | none => exact trivial
    | some start => exact .andThen (t := Task.await _) trivial fun _ => .modify (.update fun _ => Iff.rfl)
  rintro _ _ rfl
  -- here the channel closes, and it is no longer held
  have hclose : (Task.modify (ω := Wait) fun n : Network => n.update c (·.markClosed)).Carries Quits
      (fun _ held => held = rest) (c :: rest) := fun n => ⟨rest, .closes c rest n, rfl⟩
  refine .andThen hclose ?_
  rintro _ _ rfl
  exact hsteady (.modify (.update fun _ => Iff.rfl))

end Network

namespace Analysis.Session

open Network (Steady Quits)

/-- The handshake of a session opens no channel and closes none. -/
lemma within_steady_introduce (s : Session) : Attempt.Within Steady s.introduce := by
  refine .mapError (Network.within_steady_initializeWith ?_) _
  refine .bind (Network.within_steady_requestUntil _ _ _) fun result => ?_
  refine .bind (.ofTask (.modify (.update fun _ => Iff.rfl))) fun _ => ?_
  exact .bind (Network.within_steady_notify _ _) fun _ => Network.within_steady_setPhase (by decide)

/-- The shutdown of a session closes its channel. -/
lemma carries_quits_sessionShutdown (s : Session) (rest : List ChannelId) :
    s.shutdown.Carries Quits (fun _ held => held = rest) (s.channel :: rest) := by
  have hlook : (Task.state : Task Wait Network Network).Carries Quits (fun _ held => held = s.channel :: rest)
      (s.channel :: rest) := fun n => ⟨_, .steady (.refl n), rfl⟩
  refine .andThen hlook ?_
  rintro n _ rfl
  have hclose := Network.carries_quits_shutdown s.channel rest
  split
  · refine .andThen (.of_within (W := Steady) (fun _ _ => .steady) (Network.within_steady_requestUntil _ _ _)) ?_
    rintro _ _ rfl
    refine .andThen (.of_within (W := Steady) (fun _ _ => .steady) (Network.within_steady_notify _ _)) ?_
    rintro _ _ rfl
    exact hclose
  · exact hclose

end Analysis.Session

end Switchboard
