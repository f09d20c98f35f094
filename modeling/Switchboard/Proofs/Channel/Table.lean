import Switchboard.Channel.Pending
import Mathlib

/-!
# The table of outstanding requests

* `Pending.Sound`: numbers wait once, and tickets are given out once;
* `Entry`, `firstResponse?`: what happened to outstanding requests, in order;
* `Enrolment.Tracked`: what table and log say of one request that took a number, kept by every operation
  on the table: `Tracked.settle`, `Tracked.close`, `Tracked.forget`, `Tracked.register`;
* `Enrolment.Live`: the request waits, or the end of its wait was not fetched.
-/

namespace Switchboard

namespace Pending

variable {p : Pending} {id : Int} {ticket : Nat}

/-! ## Operations -/

lemma mem_of_ticket? (h : p.ticket? id = some ticket) : (id, ticket) ∈ p.waiting := by
  obtain ⟨before, after, heq, -⟩ := List.lookup_eq_some_iff.mp h
  rw [heq]
  exact List.mem_append_right _ (List.mem_cons_self ..)

lemma mem_of_settlement? {s : Settlement} (h : p.settlement? ticket = some s) : (ticket, s) ∈ p.settled := by
  obtain ⟨before, after, heq, -⟩ := List.lookup_eq_some_iff.mp h
  rw [heq]
  exact List.mem_append_right _ (List.mem_cons_self ..)

lemma not_mem_of_settlement?_eq_none (h : p.settlement? ticket = none) (s : Settlement) :
    (ticket, s) ∉ p.settled := fun hmem => by
  have hne := List.lookup_eq_none_iff.mp h (ticket, s) hmem
  simp at hne

@[simp] lemma next_settle (p : Pending) (id : Int) (s : Settlement) : (p.settle id s).next = p.next := by
  unfold settle
  split <;> rfl

@[simp] lemma waiting_settle (p : Pending) (id : Int) (s : Settlement) :
    (p.settle id s).waiting = p.waiting.filter (·.1 ≠ id) := by
  unfold settle
  cases h : p.ticket? id with
  | some t => rfl
  | none =>
    refine (List.filter_eq_self.mpr fun w hw => ?_).symm
    have hne : id ≠ w.1 := by simpa using List.lookup_eq_none_iff.mp h w hw
    exact decide_eq_true hne.symm

lemma mem_settled_settle {s : Settlement} {x : Nat × Settlement} :
    x ∈ (p.settle id s).settled ↔ x ∈ p.settled ∨ ∃ t, p.ticket? id = some t ∧ x = (t, s) := by
  unfold settle
  cases h : p.ticket? id with
  | some t => simp
  | none => simp

@[simp] lemma waiting_register (p : Pending) (id : Int) :
    (p.register id).2.waiting = p.waiting.filter (·.1 ≠ id) ++ [(id, p.next)] := by
  simp [register]

lemma mem_waiting_register {w : Int × Nat} :
    w ∈ (p.register id).2.waiting ↔ (w ∈ p.waiting ∧ w.1 ≠ id) ∨ w = (id, p.next) := by
  simp

@[simp] lemma ticket_register (p : Pending) (id : Int) : (p.register id).1 = p.next := by
  simp [register]

@[simp] lemma next_register (p : Pending) (id : Int) : (p.register id).2.next = p.next + 1 := by
  simp [register]

lemma settled_register (p : Pending) (id : Int) :
    (p.register id).2.settled = (p.settle id .dropped).settled := rfl

/-! ## The table by itself -/

/-- Under one number at most one caller waits, and the tickets in use were given out. -/
structure Sound (p : Pending) : Prop where
  apart : (p.waiting.map (·.1)).Nodup
  waiting_lt : ∀ w ∈ p.waiting, w.2 < p.next
  settled_lt : ∀ x ∈ p.settled, x.1 < p.next

lemma sound_empty : Sound {} where
  apart := .nil
  waiting_lt := by simp
  settled_lt := by simp

namespace Sound

lemma ticket?_eq (h : p.Sound) (hmem : (id, ticket) ∈ p.waiting) : p.ticket? id = some ticket := by
  cases hl : p.ticket? id with
  | none =>
    have hne := List.lookup_eq_none_iff.mp hl (id, ticket) hmem
    simp at hne
  | some t =>
    have hinj := List.inj_on_of_nodup_map h.apart (mem_of_ticket? hl) hmem rfl
    rw [Prod.mk.injEq] at hinj
    rw [hinj.2]

lemma settle (h : p.Sound) (id : Int) (s : Settlement) : (p.settle id s).Sound := by
  refine ⟨?_, fun w hw => ?_, fun x hx => ?_⟩
  · rw [waiting_settle]
    exact h.apart.sublist (List.filter_sublist.map _)
  · rw [waiting_settle] at hw
    rw [next_settle]
    exact h.waiting_lt w (List.mem_of_mem_filter hw)
  · rw [next_settle]
    rcases mem_settled_settle.mp hx with hx | ⟨t, ht, rfl⟩
    · exact h.settled_lt x hx
    · exact h.waiting_lt _ (mem_of_ticket? ht)

lemma forget (h : p.Sound) (ticket : Nat) : (p.forget ticket).Sound :=
  ⟨h.apart, h.waiting_lt, fun x hx => h.settled_lt x (List.mem_of_mem_filter hx)⟩

lemma close (h : p.Sound) : p.close.Sound := by
  refine ⟨.nil, by simp [Pending.close], fun x hx => ?_⟩
  rcases List.mem_append.mp hx with hx | hx
  · exact h.settled_lt x hx
  · obtain ⟨w, hw, rfl⟩ := List.mem_map.mp hx
    exact h.waiting_lt w hw

lemma register (h : p.Sound) (id : Int) : (p.register id).2.Sound := by
  have hs := h.settle id .dropped
  refine ⟨?_, fun w hw => ?_, fun x hx => ?_⟩
  · rw [waiting_register, List.map_append, List.nodup_append]
    refine ⟨waiting_settle p id .dropped ▸ hs.apart, List.nodup_singleton _, fun a ha b hb => ?_⟩
    obtain ⟨w, hw, rfl⟩ := List.mem_map.mp ha
    obtain rfl := List.mem_singleton.mp hb
    simpa using (List.mem_filter.mp hw).2
  · rw [next_register]
    rcases mem_waiting_register.mp hw with ⟨hw, -⟩ | rfl
    · exact Nat.lt_succ_of_lt (h.waiting_lt w hw)
    · exact Nat.lt_succ_self _
  · rw [next_register]
    have hlt := hs.settled_lt x hx
    rw [next_settle] at hlt
    exact Nat.lt_succ_of_lt hlt

end Sound

end Pending

/-! ## What happens to requests -/

/-- What happens to outstanding requests. -/
inductive Entry where
  /-- The peer answered. -/
  | response (id : Int) (outcome : Outcome)
  /-- A caller gave up. -/
  | withdrawn (id : Int)
  /-- Everything was given up. -/
  | drained

/-- Does the wait under a number end? -/
def Entry.ends (id : Int) : Entry → Prop
  | response i _ => i = id
  | withdrawn i => i = id
  | drained => True

/-- The outcome of the first response to a number. -/
def firstResponse? (id : Int) (log : List Entry) : Option Outcome :=
  log.findSome? fun
    | .response i outcome => if i = id then some outcome else none
    | _ => none

lemma firstResponse?_append_of_some {id : Int} {log more : List Entry} {o : Outcome}
    (h : firstResponse? id log = some o) : firstResponse? id (log ++ more) = some o := by
  rw [firstResponse?, List.findSome?_append]
  exact Option.or_of_isSome (by rw [← firstResponse?, h]; rfl) |>.trans h

lemma firstResponse?_eq_none {id : Int} {log : List Entry} (h : ∀ x ∈ log, ¬ x.ends id) :
    firstResponse? id log = none := by
  refine List.findSome?_eq_none_iff.mpr fun x hx => ?_
  have hends := h x hx
  cases x with
  | response i o => simpa [Entry.ends] using hends
  | withdrawn i => rfl
  | drained => rfl

/-- The number and the ticket of a request, with the position of the log at which it took them. -/
structure Enrolment where
  id : Int
  ticket : Nat
  /-- How many numbers were taken before. -/
  number : Nat
  since : Nat

namespace Enrolment

variable {p : Pending} {log : List Entry} {e : Enrolment}

/-- Nothing has ended the wait since the request took its number. -/
def Unended (e : Enrolment) (log : List Entry) : Prop := ∀ x ∈ log.drop e.since, ¬ x.ends e.id

/-- What table and log say of a request that took a number. -/
structure Tracked (p : Pending) (log : List Entry) (e : Enrolment) : Prop where
  ticket_lt : e.ticket < p.next
  since_le : e.since ≤ log.length
  own : ∀ id, (id, e.ticket) ∈ p.waiting → id = e.id
  unended : (e.id, e.ticket) ∈ p.waiting → e.Unended log
  /-- What waits to be fetched is the first response. -/
  first : ∀ o, (e.ticket, .answered o) ∈ p.settled → firstResponse? e.id (log.drop e.since) = some o
  listed : e.Unended log → e.id ∈ p.waiting.map (·.1)

lemma unended_append_singleton (h : e.since ≤ log.length) {x : Entry} :
    e.Unended (log ++ [x]) ↔ e.Unended log ∧ ¬ x.ends e.id := by
  unfold Unended
  rw [List.drop_append_of_le_length h]
  simp [or_imp, forall_and]

/-- The request waits, or the end of its wait was not fetched. -/
def Live (p : Pending) (e : Enrolment) : Prop :=
  (e.id, e.ticket) ∈ p.waiting ∨ ∃ s, (e.ticket, s) ∈ p.settled

namespace Tracked

/-- A wait ends, and the log says so. -/
lemma settle (h : e.Tracked p log) {id : Int} {s : Settlement} {x : Entry} (hx : ∀ i, x.ends i ↔ i = id)
    (hs : ∀ o, s = .answered o → x = .response id o) : e.Tracked (p.settle id s) (log ++ [x]) := by
  have hmem : ∀ w, w ∈ (p.settle id s).waiting ↔ w ∈ p.waiting ∧ w.1 ≠ id := by simp
  refine ⟨by simpa using h.ticket_lt, ?_, fun i hi => h.own i ((hmem _).mp hi).1, fun hw => ?_, fun o ho => ?_,
    fun hun => ?_⟩
  · rw [List.length_append]
    exact Nat.le_add_right_of_le h.since_le
  · obtain ⟨hw, hne⟩ := (hmem _).mp hw
    exact (unended_append_singleton h.since_le).mpr ⟨h.unended hw, fun hends => hne ((hx _).mp hends)⟩
  · rw [List.drop_append_of_le_length h.since_le]
    rcases Pending.mem_settled_settle.mp ho with ho | ⟨t, ht, heq⟩
    · exact firstResponse?_append_of_some (h.first o ho)
    · -- the wait that ends is that of the request, so this is its first response
      rw [Prod.mk.injEq] at heq
      obtain ⟨rfl, heq⟩ := heq
      have hw := Pending.mem_of_ticket? ht
      obtain rfl := h.own id hw
      rw [firstResponse?, List.findSome?_append, ← firstResponse?, firstResponse?_eq_none (h.unended hw),
        hs o heq.symm]
      simp
  · obtain ⟨hun, hne⟩ := (unended_append_singleton h.since_le).mp hun
    obtain ⟨w, hw, hid⟩ := List.mem_map.mp (h.listed hun)
    exact List.mem_map.mpr ⟨w, (hmem w).mpr ⟨hw, fun heq => hne ((hx _).mpr (hid ▸ heq))⟩, hid⟩

lemma close (h : e.Tracked p log) : e.Tracked p.close (log ++ [.drained]) := by
  refine ⟨h.ticket_lt, ?_, by simp [Pending.close], by simp [Pending.close], fun o ho => ?_, fun hun => ?_⟩
  · rw [List.length_append]
    exact Nat.le_add_right_of_le h.since_le
  · rw [List.drop_append_of_le_length h.since_le]
    have ho : (e.ticket, .answered o) ∈ p.settled := by simpa [Pending.close] using ho
    exact firstResponse?_append_of_some (h.first o ho)
  · exact absurd trivial ((unended_append_singleton h.since_le).mp hun).2

lemma forget (h : e.Tracked p log) (ticket : Nat) : e.Tracked (p.forget ticket) log :=
  ⟨h.ticket_lt, h.since_le, h.own, h.unended, fun o ho => h.first o (List.mem_of_mem_filter ho), h.listed⟩

/-- Somebody else takes a number. -/
lemma register (h : e.Tracked p log) (id : Int) : e.Tracked (p.register id).2 log := by
  have hne : ∀ i, (i, e.ticket) ≠ (id, p.next) := fun i heq =>
    Nat.ne_of_lt h.ticket_lt (congrArg Prod.snd heq)
  have hmem : ∀ i, (i, e.ticket) ∈ (p.register id).2.waiting → (i, e.ticket) ∈ p.waiting := fun i hi =>
    (Pending.mem_waiting_register.mp hi).elim And.left fun heq => absurd heq (hne i)
  refine ⟨?_, h.since_le, fun i hi => h.own i (hmem i hi), fun hw => h.unended (hmem _ hw), fun o ho => ?_,
    fun hun => ?_⟩
  · rw [Pending.next_register]
    exact Nat.lt_succ_of_lt h.ticket_lt
  · rw [Pending.settled_register] at ho
    rcases Pending.mem_settled_settle.mp ho with ho | ⟨t, -, heq⟩
    · exact h.first o ho
    · cases heq
  · obtain ⟨w, hw, hid⟩ := List.mem_map.mp (h.listed hun)
    by_cases heq : e.id = id
    · exact List.mem_map.mpr ⟨(id, p.next), Pending.mem_waiting_register.mpr (.inr rfl), heq.symm⟩
    · exact List.mem_map.mpr ⟨w, Pending.mem_waiting_register.mpr (.inl ⟨hw, hid ▸ heq⟩), hid⟩

/-- The request that takes the number. -/
lemma of_register (h : p.Sound) (id : Int) (number : Nat) :
    Tracked (p.register id).2 log ⟨id, p.next, number, log.length⟩ := by
  refine ⟨?_, Nat.le_refl _, fun i hi => ?_, fun _ => by simp [Unended], fun o ho => ?_, fun _ => by simp⟩
  · rw [Pending.next_register]
    exact Nat.lt_succ_self _
  · rcases Pending.mem_waiting_register.mp hi with ⟨hi, -⟩ | heq
    · exact absurd (h.waiting_lt _ hi) (Nat.lt_irrefl _)
    · exact congrArg Prod.fst heq
  · rw [Pending.settled_register] at ho
    rcases Pending.mem_settled_settle.mp ho with ho | ⟨t, -, heq⟩
    · exact absurd (h.settled_lt _ ho) (Nat.lt_irrefl _)
    · cases heq

end Tracked

namespace Live

lemma settle (h : e.Live p) (hp : p.Sound) (id : Int) (s : Settlement) : e.Live (p.settle id s) := by
  rcases h with hw | ⟨s', hs'⟩
  · by_cases heq : e.id = id
    · exact .inr ⟨s, Pending.mem_settled_settle.mpr (.inr ⟨e.ticket, hp.ticket?_eq (heq ▸ hw), rfl⟩)⟩
    · exact .inl (by simpa [heq] using hw)
  · exact .inr ⟨s', Pending.mem_settled_settle.mpr (.inl hs')⟩

lemma close (h : e.Live p) : e.Live p.close := by
  rcases h with hw | ⟨s, hs⟩
  · exact .inr ⟨.dropped, List.mem_append_right _ (List.mem_map.mpr ⟨_, hw, rfl⟩)⟩
  · exact .inr ⟨s, List.mem_append_left _ hs⟩

lemma forget (h : e.Live p) {ticket : Nat} (hne : e.ticket ≠ ticket) : e.Live (p.forget ticket) := by
  rcases h with hw | ⟨s, hs⟩
  · exact .inl hw
  · exact .inr ⟨s, List.mem_filter.mpr ⟨hs, by simpa using hne⟩⟩

lemma register (h : e.Live p) (hp : p.Sound) (id : Int) : e.Live (p.register id).2 := by
  rcases h.settle hp id .dropped with hw | ⟨s, hs⟩
  · rw [Pending.waiting_settle] at hw
    exact .inl (by rw [Pending.waiting_register]; exact List.mem_append_left _ hw)
  · exact .inr ⟨s, hs⟩

end Live

end Enrolment

end Switchboard
