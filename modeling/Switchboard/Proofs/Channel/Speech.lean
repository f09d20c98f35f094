import Switchboard.Proofs.Channel.Traffic

/-!
# What leaves over a channel

* `Network.Leaves`: a message leaves;
* `Utters`: a channel is left as it is or closed, and at most a request or notification of some name leaves;
* `within_utters_requestUntil`, `within_utters_notify`, `within_utters_shutdown`: what calls utter;
* `receive_cases`: whatever is read, nothing but a refusal leaves;
* `Around`: what else happens about a channel; `Around.door_change`, `outgoing_change`: what that does to it.
-/

namespace Switchboard

namespace Network

/-- A message leaves over a channel. -/
def Leaves (c : ChannelId) (n n' : Network) (message : Json) : Prop :=
  (n'.channel c).outgoing = (n.channel c).outgoing ++ [message]

section Leaves

variable {c : ChannelId} {n n' : Network} {message other : Json} {name name' : String}

lemma Leaves.unique (h : Leaves c n n' message) (h' : Leaves c n n' other) : message = other :=
  List.singleton_inj.mp (List.append_cancel_left (h.symm.trans h'))

lemma not_leaves_of_le (h : (n'.channel c).outgoing.length ≤ (n.channel c).outgoing.length) : ¬ Leaves c n n' message := by
  intro hleaves
  rw [hleaves, List.length_append] at h
  exact absurd h (by simp)

lemma not_leaves_of_eq (h : (n'.channel c).outgoing = (n.channel c).outgoing) : ¬ Leaves c n n' message :=
  not_leaves_of_le (Nat.le_of_eq (congrArg List.length h))

/-- A message that leaves is read in one way. -/
lemma Leaves.reads_unique (h : Leaves c n n' message) (hreads : (n.channel c).dialect.Reads message name)
    (h' : Leaves c n n' other) (hreads' : (n.channel c).dialect.Reads other name') : name = name' :=
  hreads.unique (h.unique h' ▸ hreads')

/-- The channel is left as it is or closed, and at most a request or notification of one of these names leaves. -/
structure Utters (c : ChannelId) (names : List String) (n n' : Network) : Prop where
  present : c < n.channels.length → c < n'.channels.length
  door : (n'.channel c).door = (n.channel c).door ∨ (n'.channel c).door = { (n.channel c).door with phase := .closed }
  own : (n'.channel c).outgoing = (n.channel c).outgoing ∨
    ∃ name ∈ names, ∃ message, Leaves c n n' message ∧ (n.channel c).dialect.Reads message name

variable {names more : List String}

namespace Utters

lemma refl (c : ChannelId) (names : List String) (n : Network) : Utters c names n n := ⟨id, .inl rfl, .inl rfl⟩

lemma mono (h : Utters c names n n') (hsub : names ⊆ more) : Utters c more n n' where
  present := h.present
  door := h.door
  own := by
    rcases h.own with hsame | ⟨name, hname, hleaves⟩
    · exact .inl hsame
    · exact .inr ⟨name, hsub hname, hleaves⟩

lemma nudged (h : Utters c names n n') : (n.channel c).door.Nudged (n'.channel c).door := by
  rcases h.door with hsame | hclosed
  · rw [hsame]
    exact .same _
  · rw [hclosed]
    exact .closed _

lemma update {f : Channel → Channel} (hdoor : ∀ ch : Channel, (f ch).door = ch.door ∨
      (f ch).door = { ch.door with phase := .closed }) (hout : ∀ ch, (f ch).outgoing = ch.outgoing) :
    Utters c names n (n.update c f) where
  present hc := present_update hc f
  door := by
    rcases channel_update_cases n c f c with h | ⟨-, h⟩
    · exact .inl (by rw [h])
    · rw [h]
      exact hdoor _
  own := by
    rcases channel_update_cases n c f c with h | ⟨-, h⟩
    · exact .inl (by rw [h])
    · exact .inl (by rw [h, hout])

/-- What is said is uttered. -/
lemma of_said (h : Says c names n n') : Utters c names n n' where
  present hc := h.present ▸ hc
  door := .inl (h.door c)
  own := by
    rcases h.own with hsame | ⟨name, hname, id, params, hout⟩
    · exact .inl hsame
    · exact .inr ⟨name, hname, _, hout, Dialect.reads_request _ id name params⟩

end Utters

lemma within_utters_requestUntil (method : String) (params : Json) (latest : Option Nat) :
    Attempt.Within (Utters c [method]) (requestUntil c method params latest) :=
  Task.Within.mono (fun _ _ h => .of_said h) (within_requestUntil method params latest)

/-- A notification says nothing else. -/
lemma utters_announce (method : String) (params : Json) (n : Network) :
    Utters c [method] n (n.updateWith c fun ch => ch.announce method params).2 := by
  have hdoor : ∀ ch : Channel, (ch.announce method params).2.door = ch.door := fun ch => door_post _ _
  rw [updateWith_eq]
  refine ⟨fun hc => present_update hc _, ?_, ?_⟩
  · rcases channel_update_cases n c (fun ch => (ch.announce method params).2) c with h | ⟨-, h⟩
    · exact .inl (by rw [h])
    · exact .inl (by rw [h, hdoor])
  · rcases channel_update_cases n c (fun ch => (ch.announce method params).2) c with h | ⟨-, h⟩
    · exact .inl (by rw [h])
    · rcases outgoing_post (n.channel c).takeId.2
        ((n.channel c).dialect.notification (n.channel c).nextId method params) with hout | hout
      · exact .inl (h ▸ hout)
      · exact .inr ⟨method, List.mem_singleton_self method, _, congrArg Channel.outgoing h ▸ hout,
          Dialect.reads_notification _ _ method params⟩

lemma within_utters_notify (method : String) (params : Json) :
    Attempt.Within (Utters c [method]) (notify c method params) :=
  .bind (within_checkOpen (.refl c _)) fun _ => .act (utters_announce method params)

lemma within_utters_shutdown : (shutdown c).Within (Utters c names) :=
  within_shutdown (.refl c names) (fun _ hf _ => .update (fun ch => .inl (hf ch).1) fun ch => (hf ch).2)
    fun _ => .update (fun _ => .inr rfl) fun _ => rfl

/-! ## Reading -/

/-- What is read leaves the door alone, and at most a message leaves that is neither a request nor a notification. -/
lemma receive_cases (ch : Channel) (message : Json) :
    (ch.receive message).door = ch.door ∧
      ((ch.receive message).outgoing = ch.outgoing ∨ ∃ reply, (ch.receive message).outgoing = ch.outgoing ++ [reply] ∧
        ∀ name, ¬ ch.dialect.Reads reply name) := by
  unfold Channel.receive
  split
  · next inbound hread =>
    cases inbound with
    | response id outcome => exact ⟨rfl, .inl rfl⟩
    | event name body =>
      have hhear : ch.accept (.event name body) = ch.hear ⟨name, body⟩ := rfl
      rw [hhear, Channel.hear]
      split
      · exact ⟨rfl, .inl rfl⟩
      · exact ⟨rfl, .inl rfl⟩
    | request id method params =>
      have hrefuse : ch.accept (.request id method params) = ch.refuse id method := rfl
      rw [hrefuse, Channel.refuse]
      refine ⟨door_post _ _, ?_⟩
      rcases post_cases ch.takeId.2 (ch.dialect.refuse ch.nextId id method ("unsupported request '" ++ method ++ "'"))
        with ⟨-, hout⟩ | ⟨-, hout⟩
      · exact .inr ⟨_, hout, fun name => Dialect.not_reads_refuse _ _ _ _ _⟩
      · exact .inl hout
  · exact ⟨rfl, .inl rfl⟩

end Leaves

/-! ## What else happens -/

/-- No message leaves, the other side may have taken some, and the door stays as it is. -/
structure Quiet (c : ChannelId) (n n' : Network) : Prop where
  present : c < n.channels.length → c < n'.channels.length
  door : (n'.channel c).door = (n.channel c).door
  taken : ∃ k, (n'.channel c).outgoing = (n.channel c).outgoing.drop k

/-- What else happens about a channel between two accesses of the calls on it. -/
inductive Around (c : ChannelId) where
  /-- The reader takes in a message of the other side. -/
  | receives (message : Json)
  /-- The stream ends, or carries no frame, or another shutdown closes the channel. -/
  | closes
  /-- What is outstanding is given up. -/
  | drops
  /-- Time passes, bytes arrive, messages are taken, nothing can be handed over any more, and whatever happens elsewhere. -/
  | aside (change : Network → Network) (quiet : ∀ n, Quiet c n (change n))

namespace Around

variable {c : ChannelId}

/-- What becomes of the network. -/
def change : Around c → Network → Network
  | receives message, n => n.update c (·.receive message)
  | closes, n => n.update c (·.markClosed)
  | drops, n => n.update c (·.drain)
  | aside change _, n => change n

/-- The door stays as it is, or closes. -/
lemma door_change (e : Around c) (n : Network) : ((e.change n).channel c).door = (n.channel c).door ∨
    ((e.change n).channel c).door = { (n.channel c).door with phase := .closed } := by
  cases e with
  | receives message =>
    rcases channel_update_cases n c (·.receive message) c with h | ⟨-, h⟩
    · exact .inl (congrArg Channel.door h)
    · exact .inl ((congrArg Channel.door h).trans (receive_cases _ _).1)
  | closes =>
    rcases channel_update_cases n c (·.markClosed) c with h | ⟨-, h⟩
    · exact .inl (congrArg Channel.door h)
    · exact .inr (congrArg Channel.door h)
  | drops =>
    rcases channel_update_cases n c (·.drain) c with h | ⟨-, h⟩
    · exact .inl (congrArg Channel.door h)
    · exact .inl ((congrArg Channel.door h).trans rfl)
  | aside change quiet => exact .inl (quiet n).door

lemma mild (e : Around c) (n : Network) : Mild c n (e.change n) where
  present hc := by
    cases e with
    | receives | closes | drops => exact present_update hc _
    | aside change quiet => exact (quiet n).present hc
  door := by
    rcases e.door_change n with h | h
    · rw [h]
      exact .same _
    · rw [h]
      exact .closed _

/-- No request or notification leaves, and at most one message. -/
lemma outgoing_change (e : Around c) (n : Network) :
    (∃ k, ((e.change n).channel c).outgoing = (n.channel c).outgoing.drop k) ∨
      ∃ reply, Leaves c n (e.change n) reply ∧ ∀ name, ¬ (n.channel c).dialect.Reads reply name := by
  cases e with
  | receives message =>
    rcases channel_update_cases n c (·.receive message) c with h | ⟨-, h⟩
    · exact .inl ⟨0, congrArg Channel.outgoing h⟩
    · rcases (receive_cases (n.channel c) message).2 with hout | ⟨reply, hout, hreads⟩
      · exact .inl ⟨0, (congrArg Channel.outgoing h).trans hout⟩
      · exact .inr ⟨reply, (congrArg Channel.outgoing h).trans hout, hreads⟩
  | closes =>
    rcases channel_update_cases n c (·.markClosed) c with h | ⟨-, h⟩
    · exact .inl ⟨0, congrArg Channel.outgoing h⟩
    · exact .inl ⟨0, (congrArg Channel.outgoing h).trans rfl⟩
  | drops =>
    rcases channel_update_cases n c (·.drain) c with h | ⟨-, h⟩
    · exact .inl ⟨0, congrArg Channel.outgoing h⟩
    · exact .inl ⟨0, (congrArg Channel.outgoing h).trans rfl⟩
  | aside change quiet => exact .inl (quiet n).taken

end Around

end Network

end Switchboard
