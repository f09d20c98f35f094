import Switchboard.Proofs.Channel.Exchange
import Switchboard.Proofs.Channel.Speech
import Switchboard.Proofs.Channel.Turns

/-!
# Handshakes that begin with a request

* `Asking`, `Stages.asking`: a request, and what comes after its good answer;
* `Asking.ofStage_cases`: what comes after a stage of the request;
* `Asking.asking_next`: what a step of the request changes and hands over;
* `Asking.Reached`: once the answer is there the request was an exchange that took place.
-/

namespace Switchboard.Network

open Request (Stage)

namespace Request.Stage

/-- The reply, at the end. -/
def reply? : Stage → Option (Except Channel.Fault Json)
  | ended reply => some reply
  | _ => none

/-- A request that has not begun is not over. -/
lemma reply?_starting : reply? .starting = none := rfl

lemma result?_work (c : ChannelId) (r : Request) {stage : Stage} (h : stage.reply? = none) :
    (stage.work c r).result? = none := by
  cases stage with
  | ended reply => cases h
  | _ => rfl

end Request.Stage

/-- A request that is under way, or what comes after its good answer. -/
inductive Asking (γ : Type) where
  | asking (stage : Stage) (live : stage.reply? = none)
  | answered (g : γ)

namespace Asking

variable {γ : Type}

/-- The stage that a request has come to, or what comes after its end. -/
def ofStage (enter : Json → γ) (stage : Stage) : Asking γ ⊕ Except Channel.Fault Unit :=
  match h : stage.reply? with
  | none => .inl (asking stage h)
  | some (.ok body) => .inl (answered (enter body))
  | some (.error fault) => .inr (.error fault)

/-- What comes after a stage of the request is another one, or its good answer, or its fault. -/
lemma ofStage_cases (enter : Json → γ) (stage : Stage) :
    (∃ live, ofStage enter stage = .inl (asking stage live)) ∨
      (∃ body, stage = .ended (.ok body) ∧ ofStage enter stage = .inl (answered (enter body))) ∨
      ∃ fault, stage = .ended (.error fault) ∧ ofStage enter stage = .inr (.error fault) := by
  have hended : ∀ reply, stage.reply? = some reply → stage = .ended reply := by
    intro reply h
    cases stage with
    | ended other =>
      cases h
      rfl
    | _ => cases h
  unfold ofStage
  split
  · next h => exact .inl ⟨h, rfl⟩
  · next body h => exact .inr (.inl ⟨body, hended _ h, rfl⟩)
  · next fault h => exact .inr (.inr ⟨fault, hended _ h, rfl⟩)

section Next

variable (c : ChannelId) (r : Request) (h : Stages γ) (enter : Json → γ)

/-- What is left to do when the request is over. -/
def repliedTask : Except Channel.Fault Json → Shaking
  | .ok body => h.left (enter body)
  | .error fault => .done (.error fault)

/-- What is left to do at a stage. -/
def left : Asking γ → Shaking
  | asking stage _ => (stage.work c r).andThen (repliedTask h enter)
  | answered g => h.left g

/-- One step, if the stage allows one. -/
def next : Asking γ → Network → Option ((Asking γ ⊕ Except Channel.Fault Unit) × Network)
  | asking stage _, n => (stage.next c r n).map fun (stage, n) => (ofStage enter stage, n)
  | answered g, n => (h.next g n).map fun (g, n) => (g.map answered id, n)

variable {c r h enter}

lemma elim_ofStage (stage : Stage) :
    (ofStage enter stage).elim (left c r h enter) Task.done = (stage.work c r).andThen (repliedTask h enter) := by
  rcases ofStage_cases enter stage with ⟨live, heq⟩ | ⟨body, rfl, heq⟩ | ⟨fault, rfl, heq⟩ <;> rw [heq] <;> rfl

lemma live_left (g : Asking γ) : (g.left c r h enter).result? = none := by
  cases g with
  | asking stage live => exact Task.result?_andThen (Stage.result?_work _ _ live) _
  | answered g => exact h.live g

/-- A step of what is left of the handshake leads to what is left at the next stage. -/
lemma tick_left (g : Asking γ) (n : Network) : (g.left c r h enter).tick? Wait.holds n
    = (g.next c r h enter n).map fun x => (x.1.elim (left c r h enter) Task.done, x.2) := by
  cases g with
  | asking stage live =>
    rw [left, Task.tick?_andThen (Stage.result?_work _ _ live), Request.tick_work, next, Option.map_map, Option.map_map]
    congr 1
    funext x
    rw [Function.comp_apply, Function.comp_apply, elim_ofStage]
  | answered g =>
    rw [left, h.tick, next, Option.map_map]
    congr 1
    funext x
    rcases x with ⟨g | result, n⟩ <;> rfl

end Next

end Asking

/-- The handshake that asks a request first, and goes on with these stages after a good answer. -/
def Stages.asking {γ : Type} (h : Stages γ) (c : ChannelId) (r : Request) (enter : Json → γ) : Handshake (Asking γ) where
  first := .inl (.asking .starting Stage.reply?_starting)
  next := Asking.next c r h enter
  left := Asking.left c r h enter
  live := Asking.live_left
  tick := Asking.tick_left

lemma Stages.call_asking {γ : Type} (h : Stages γ) (c : ChannelId) (r : Request) (enter : Json → γ) :
    (h.asking c r enter).call
      = (requestUntil c r.method r.params r.latest >>= fun body => ExceptT.mk (h.left (enter body))) := by
  show (requestUntil c r.method r.params r.latest).outcome.andThen (Asking.repliedTask h enter) = Task.andThen _ _
  congr 1
  funext reply
  cases reply <;> rfl

/-! ## Steps of the request -/

namespace Asking

variable {γ : Type} {c : ChannelId} {r : Request} {h : Stages γ} {enter : Json → γ} {g g' : Asking γ}
  {x : Asking γ ⊕ Except Channel.Fault Unit} {n n' : Network}

/-- A step of the request changes no door, hands over nothing or the message, and does not end the handshake well. -/
lemma asking_next (hc : c < n.channels.length) {stage : Stage} {live : stage.reply? = none}
    (hnext : (asking stage live).next c r h enter n = some (x, n')) :
    (n'.channel c).door = (n.channel c).door ∧ x ≠ .inr (.ok ()) ∧
      ((n'.channel c).outgoing = (n.channel c).outgoing ∨ ∃ message, Leaves c n n' message ∧
        (n.channel c).dialect.Reads message r.method) := by
  obtain ⟨⟨stage', n''⟩, hstage, hx⟩ := Option.map_eq_some_iff.mp hnext
  obtain ⟨rfl, rfl⟩ := Prod.mk.inj hx
  obtain ⟨f, rfl, hdoor, -, hout⟩ := Request.next_changes hstage
  have hchannel : (n.update c f).channel c = f (n.channel c) := channel_update hc f
  refine ⟨(congrArg Channel.door hchannel).trans (hdoor _), ?_, ?_⟩
  · rcases ofStage_cases enter stage' with ⟨live', heq⟩ | ⟨body, -, heq⟩ | ⟨fault, -, heq⟩ <;> rw [heq] <;> nofun
  · rcases hout with ⟨hsame, -⟩ | ⟨id, ticket, -, hout⟩
    · exact .inl ((congrArg Channel.outgoing hchannel).trans hsame)
    · exact .inr ⟨_, (congrArg Channel.outgoing hchannel).trans hout, Dialect.reads_request _ id _ _⟩

/-- What is known of a handshake at a stage: once the answer is there the request was an exchange that took place. -/
def Reached (v : Viewpoint Wait Network) (c : ChannelId) (r : Request) (m : Nat) : Asking γ → Prop
  | asking stage _ => stage.Reached v c r 0 m
  | answered _ => ∃ x : Exchange, x.channel = c ∧ x.request = r ∧ (∃ body, x.Took v body) ∧ x.answered < m

section Reached

variable {v : Viewpoint Wait Network} {m : Nat}

lemma Reached.later (hg : g.Reached v c r m) {m' : Nat} (hm : m ≤ m') : g.Reached v c r m' := by
  cases g with
  | asking stage live => exact Stage.Reached.later hg hm
  | answered g =>
    obtain ⟨x, hc, hr, htook, hlt⟩ := hg
    exact ⟨x, hc, hr, htook, Nat.lt_of_lt_of_le hlt hm⟩

/-- A step leads to what is known at the next stage. -/
lemma Reached.next (hg : g.Reached v c r m) (hturn : v.turn m)
    (hnext : g.next c r h enter (v.state m) = some (.inl g', v.state (m + 1))) : g'.Reached v c r (m + 1) := by
  cases g with
  | asking stage live =>
    obtain ⟨⟨stage', n''⟩, hstage, hx⟩ := Option.map_eq_some_iff.mp hnext
    obtain ⟨hstage', rfl⟩ := Prod.mk.inj hx
    have hreached := Stage.Reached.next hg hturn hstage
    rcases ofStage_cases enter stage' with ⟨live', heq⟩ | ⟨body, rfl, heq⟩ | ⟨fault, -, heq⟩
    · obtain rfl := Sum.inl.inj (hstage'.symm.trans heq)
      exact hreached
    · obtain rfl := Sum.inl.inj (hstage'.symm.trans heq)
      obtain ⟨x, hc, hr, -, htook, hlt⟩ := hreached body rfl
      exact ⟨x, hc, hr, ⟨body, htook⟩, hlt⟩
    · cases hstage'.symm.trans heq
  | answered g =>
    obtain ⟨⟨s, n''⟩, -, hx⟩ := Option.map_eq_some_iff.mp hnext
    obtain ⟨hs, -⟩ := Prod.mk.inj hx
    cases s with
    | inl s =>
      cases hs
      exact Reached.later (g := answered s) hg (Nat.le_succ m)
    | inr result => cases hs

end Reached

end Asking

end Switchboard.Network
