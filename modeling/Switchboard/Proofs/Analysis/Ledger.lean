import Switchboard.Proofs.Analysis.Custody
import Switchboard.Proofs.Concurrency.Ensemble

/-!
# What becomes of analysis sessions

* `Meanwhile`, `play`: any number of operations on the registry, one access at a time in any order, and all that happens
  besides;
* `Ledger`: at all times a session keeps its place, is closed, is to be closed by an operation that has not returned, or
  was replaced while it was open;
* `kept_or_closed_iff`: when all operations have returned a session keeps its place or is closed exactly if no insertion
  replaced it while it was open, or its server died later on.
-/

namespace Switchboard.Analysis.Custody

open Ensemble (Turn Moment)

/-- What happens to sessions besides: servers answer, publish and die, and whoever else has a session uses it. -/
structure Meanwhile where
  change : World → World
  undisturbed : ∀ w : World, w.Undisturbed (change w)

/-- A message of a server is read, or the end of what it sends, at which its channel closes. -/
def Meanwhile.reads (c : ChannelId) : Meanwhile := ⟨fun w => (w.read c).2, fun w => w.undisturbed_read c⟩

/-- Any number of operations, and all that happens besides. -/
def runs : Ensemble World Operation (Task Wait World Unit) Meanwhile :=
  .ofWork World.holds Operation.work Meanwhile.change

/-- A world whose registry is new. -/
def fresh (w : World) : World := { w with analysis := { w.analysis with sessions := [], table := [] } }

/-- The registry and the operations on it after so many turns. -/
def play (w : World) (schedule : Nat → Turn Operation Meanwhile) (n : Nat) : Moment World Operation (Task Wait World Unit) :=
  runs.play (fresh w) schedule n

section Runs

variable (w : World) (schedule : Nat → Turn Operation Meanwhile)

/-- In this turn an insertion takes the place of a session that is not closed. -/
structure Evicts (n k : Nat) : Prop where
  insertion : ∃ i server stream left, schedule n = .step i ∧ (play w schedule n).calls[i]? = some (.insert server stream, left)
  before : (play w schedule n).state.analysis.Keeps k
  alive : ¬ IsClosed (play w schedule n).state k
  after : ¬ (play w schedule (n + 1)).state.analysis.Keeps k

/-- In this turn a session closes, and no operation on the registry does that. -/
structure Dies (n k : Nat) : Prop where
  besides : ∃ e, schedule n = .around e
  placed : k < (play w schedule n).state.analysis.sessions.length
  before : ¬ IsClosed (play w schedule n).state k
  after : IsClosed (play w schedule (n + 1)).state k

/-- All operations have returned. -/
def AllReturned (n : Nat) : Prop := ∀ c ∈ (play w schedule n).calls, c.2 = .done ()

/-- What becomes of each session, with the channels that each call has to close. -/
structure Ledger (n : Nat) (held : Nat → List ChannelId) : Prop where
  orderly : Orderly (play w schedule n).state
  calls : ∀ i call (left : Task Wait World Unit), (play w schedule n).calls[i]? = some (call, left) →
    left.Carries (Move call) (fun _ held => held = []) (held i)
  idle : ∀ i, (play w schedule n).calls[i]? = none → held i = []
  /-- Only those without a place are to be closed. -/
  homeless : ∀ i, ∀ c ∈ held i, ∃ k < (play w schedule n).state.analysis.sessions.length,
    c = channelOf (play w schedule n).state k ∧ ¬ (play w schedule n).state.analysis.Keeps k
  fate : ∀ k < (play w schedule n).state.analysis.sessions.length, (play w schedule n).state.analysis.Keeps k ∨
    IsClosed (play w schedule n).state k ∨ (∃ i, channelOf (play w schedule n).state k ∈ held i) ∨
    ∃ m < n, Evicts w schedule m k
  /-- Nobody closes a session that was evicted. -/
  evicted : ∀ m < n, ∀ k, Evicts w schedule m k → k < (play w schedule n).state.analysis.sessions.length ∧
    ¬ (play w schedule n).state.analysis.Keeps k ∧ (∀ i, channelOf (play w schedule n).state k ∉ held i) ∧
    (IsClosed (play w schedule n).state k → ∃ j, m < j ∧ j < n ∧ Dies w schedule j k)
  dead : ∀ m < n, ∀ k, Dies w schedule m k → k < (play w schedule n).state.analysis.sessions.length ∧
    IsClosed (play w schedule n).state k

/-- What a turn does to sessions and to the channels that calls have to close. The call whose turn it is, if any, had `own`
to close and has `own'` to close from then on. -/
structure Turns (n : Nat) (held held' : Nat → List ChannelId) (own own' : List ChannelId) (evicting : Prop) : Prop extends
    Passes (play w schedule n).state own (play w schedule (n + 1)).state own' evicting where
  calls : ∀ i call (left : Task Wait World Unit), (play w schedule (n + 1)).calls[i]? = some (call, left) →
    left.Carries (Move call) (fun _ held => held = []) (held' i)
  idle : ∀ i, (play w schedule (n + 1)).calls[i]? = none → held' i = []
  mine : ∀ c ∈ own, ∃ i, c ∈ held i
  mine' : ∀ c ∈ own', ∃ i, c ∈ held' i
  stays : ∀ i, ∀ c ∈ held i, c ∈ own ∨ ∃ j, c ∈ held' j
  stayed : ∀ i, ∀ c ∈ held' i, c ∈ own' ∨ ∃ j, c ∈ held j
  evicts : ∀ k, Evicts w schedule n k → evicting
  inserts : evicting → ∃ i server stream left, schedule n = .step i ∧
    (play w schedule n).calls[i]? = some (.insert server stream, left)
  dies : ∀ k < (play w schedule n).state.analysis.sessions.length, ¬ IsClosed (play w schedule n).state k →
    channelOf (play w schedule n).state k ∉ own → IsClosed (play w schedule (n + 1)).state k → Dies w schedule n k

variable {w schedule} {n : Nat} {held held' : Nat → List ChannelId}

lemma ledger_zero : Ledger w schedule 0 fun _ => [] where
  orderly := ⟨⟨List.forall_mem_nil _, List.nodup_nil⟩, List.forall_mem_nil _, List.nodup_nil⟩
  calls := by
    intro i call left hi
    have hnone : (play w schedule 0).calls[i]? = none := List.getElem?_nil
    cases hnone.symm.trans hi
  idle := fun _ _ => rfl
  homeless := fun _ _ hc => absurd hc List.not_mem_nil
  fate := fun _ hk => absurd hk (Nat.not_lt_zero _)
  evicted := fun _ hm => absurd hm (Nat.not_lt_zero _)
  dead := fun _ hm => absurd hm (Nat.not_lt_zero _)

namespace Ledger

/-- The channel of a session that keeps its place is not to be closed. -/
lemma not_held (h : Ledger w schedule n held) {k : Nat} (hk : (play w schedule n).state.analysis.Keeps k) (i : Nat) :
    channelOf (play w schedule n).state k ∉ held i := by
  intro hmem
  obtain ⟨j, hj, heq, hlost⟩ := h.homeless i _ hmem
  have hlt := h.orderly.sound.lt_of_keeps hk
  exact hlost (h.orderly.eq_of_channelOf hlt hj heq ▸ hk)

/-- The ledger is kept in every turn. -/
theorem next (h : Ledger w schedule n held) {own own' : List ChannelId} {evicting : Prop}
    (ht : Turns w schedule n held held' own own' evicting) : Ledger w schedule (n + 1) held' where
  orderly := ht.orderly
  calls := ht.calls
  idle := ht.idle
  homeless := by
    -- what is to be closed was to be closed before, or lost its place just now
    have hstill : ∀ j, ∀ c ∈ held j, ∃ k < (play w schedule (n + 1)).state.analysis.sessions.length,
        c = channelOf (play w schedule (n + 1)).state k ∧ ¬ (play w schedule (n + 1)).state.analysis.Keeps k := by
      intro j c hc
      obtain ⟨k, hk, hck, hlost⟩ := h.homeless j c hc
      exact ⟨k, hk.trans_le ht.longer, hck.trans (ht.channel k hk).symm, fun hkept => hlost (ht.kept k hk hkept)⟩
    intro i c hc
    rcases ht.stayed i c hc with hc | ⟨j, hc⟩
    · rcases ht.taken c hc with hc | ⟨-, k, hkept, hlost, hck⟩
      · obtain ⟨j, hc⟩ := ht.mine c hc
        exact hstill j c hc
      · have hk := h.orderly.sound.lt_of_keeps hkept
        exact ⟨k, hk.trans_le ht.longer, hck.trans (ht.channel k hk).symm, hlost⟩
    · exact hstill j c hc
  fate := by
    intro k hk'
    by_cases hk : k < (play w schedule n).state.analysis.sessions.length
    · have hearlier : (∃ m < n, Evicts w schedule m k) → ∃ m < n + 1, Evicts w schedule m k :=
        fun ⟨m, hm, hevicts⟩ => ⟨m, Nat.lt_succ_of_lt hm, hevicts⟩
      rw [ht.channel k hk]
      rcases h.fate k hk with hkept | hclosed | ⟨i, hheld⟩ | hevicted
      · by_cases hkept' : (play w schedule (n + 1)).state.analysis.Keeps k
        · exact .inl hkept'
        rcases ht.leaves k hkept with hkept' | hclosed | hheld | ⟨hevicting, hopen⟩
        · exact .inl hkept'
        · exact .inr (.inl hclosed)
        · exact .inr (.inr (.inl (ht.mine' _ hheld)))
        · exact .inr (.inr (.inr ⟨n, Nat.lt_succ_self n, ht.inserts hevicting, hkept, hopen, hkept'⟩))
      · exact .inr (.inl (ht.closed k hk hclosed))
      · rcases ht.stays i _ hheld with hown | hheld'
        · rcases ht.owed _ hown with hown' | hclosed
          · exact .inr (.inr (.inl (ht.mine' _ hown')))
          · refine .inr (.inl ?_)
            unfold IsClosed
            rw [ht.channel k hk]
            exact hclosed
        · exact .inr (.inr (.inl hheld'))
      · exact .inr (.inr (.inr (hearlier hevicted)))
    · exact .inl (ht.comes k hk' (Nat.not_lt.mp hk))
  evicted := by
    -- this holds of a session at turn `n` that is not to be closed then, and of which the turn itself is no eviction
    have hfree : ∀ k < (play w schedule n).state.analysis.sessions.length,
        (∀ i, channelOf (play w schedule n).state k ∉ held i) →
        (¬ (play w schedule n).state.analysis.Keeps k ∨ Evicts w schedule n k) →
        ∀ i, channelOf (play w schedule (n + 1)).state k ∉ held' i := by
      intro k hk hnot hlost i hmem
      rw [ht.channel k hk] at hmem
      rcases ht.stayed i _ hmem with hmem | ⟨j, hmem⟩
      · rcases ht.taken _ hmem with hmem | ⟨hno, k', hkept, -, heq⟩
        · obtain ⟨j, hmem⟩ := ht.mine _ hmem
          exact hnot j hmem
        · obtain rfl := h.orderly.eq_of_channelOf hk (h.orderly.sound.lt_of_keeps hkept) heq
          rcases hlost with hlost | hevicts
          · exact hlost hkept
          · exact hno (ht.evicts k hevicts)
      · exact hnot j hmem
    have hown : ∀ k, (∀ i, channelOf (play w schedule n).state k ∉ held i) →
        channelOf (play w schedule n).state k ∉ own := by
      intro k hnot hmem
      obtain ⟨i, hmem⟩ := ht.mine _ hmem
      exact hnot i hmem
    intro m hm k hevicts
    rcases Nat.lt_succ_iff_lt_or_eq.mp hm with hm | rfl
    · obtain ⟨hk, hlost, hnot, hdied⟩ := h.evicted m hm k hevicts
      refine ⟨hk.trans_le ht.longer, fun hkept => hlost (ht.kept k hk hkept), hfree k hk hnot (.inl hlost), ?_⟩
      intro hclosed'
      by_cases hclosed : IsClosed (play w schedule n).state k
      · obtain ⟨j, hmj, hjn, hdies⟩ := hdied hclosed
        exact ⟨j, hmj, Nat.lt_succ_of_lt hjn, hdies⟩
      · exact ⟨n, hm, Nat.lt_succ_self n, ht.dies k hk hclosed (hown k hnot) hclosed'⟩
    · have hk := h.orderly.sound.lt_of_keeps hevicts.before
      have hnot := h.not_held hevicts.before
      refine ⟨hk.trans_le ht.longer, hevicts.after, hfree k hk hnot (.inr hevicts), ?_⟩
      intro hclosed'
      -- an insertion closes nothing
      obtain ⟨⟨e, haround⟩, -⟩ := ht.dies k hk hevicts.alive (hown k hnot) hclosed'
      obtain ⟨i, -, -, -, hstep, -⟩ := hevicts.insertion
      cases haround.symm.trans hstep
  dead := by
    intro m hm k hdies
    rcases Nat.lt_succ_iff_lt_or_eq.mp hm with hm | rfl
    · obtain ⟨hk, hclosed⟩ := h.dead m hm k hdies
      exact ⟨hk.trans_le ht.longer, ht.closed k hk hclosed⟩
    · exact ⟨hdies.placed.trans_le ht.longer, hdies.after⟩

/-- An operation takes its turn. -/
lemma turns_of_moves (h : Ledger w schedule n held) {i : Nat} {call : Operation} {left left' : Task Wait World Unit}
    (mine : schedule n = .step i) (here : (play w schedule n).calls[i]? = some (call, left))
    (steps : left.tick? World.holds (play w schedule n).state = some (left', (play w schedule (n + 1)).state))
    (hcalls : (play w schedule (n + 1)).calls = (play w schedule n).calls.set i (call, left')) :
    ∃ own', Turns w schedule n held (Function.update held i own') (held i) own'
      (∃ server stream, call = .insert server stream) := by
  obtain ⟨own', hmove, hleft⟩ := (h.calls i call left here).tick steps
  have hmove : Move call (held i) (play w schedule n).state own' (play w schedule (n + 1)).state := by
    rcases hmove with hmove | ⟨hheld, hstate⟩
    · exact hmove
    · rw [hheld, hstate]
      exact .rests _ _
  have hpresent : ∀ c ∈ held i, c < (play w schedule n).state.net.channels.length := by
    intro c hc
    obtain ⟨k, hk, rfl, -⟩ := h.homeless i c hc
    exact h.orderly.channelOf_lt hk
  have hi : i < (play w schedule n).calls.length := (List.getElem?_eq_some_iff.mp here).1
  have hself : Function.update held i own' i = own' := Function.update_self ..
  have hother : ∀ {j}, j ≠ i → Function.update held i own' j = held j := fun hj => Function.update_of_ne hj ..
  refine ⟨own', hmove.passes h.orderly hpresent, ?_, ?_, fun c hc => ⟨i, hc⟩, fun c hc => ⟨i, hself.symm ▸ hc⟩, ?_, ?_, ?_,
    ?_, ?_⟩
  · intro j call' left'' hj
    rw [hcalls] at hj
    by_cases hji : j = i
    · subst hji
      rw [List.getElem?_set_self hi] at hj
      obtain ⟨rfl, rfl⟩ := Prod.mk.inj (Option.some.inj hj)
      rw [hself]
      exact hleft
    · rw [List.getElem?_set_ne (Ne.symm hji)] at hj
      rw [hother hji]
      exact h.calls j call' left'' hj
  · intro j hj
    rw [hcalls, List.getElem?_eq_none_iff, List.length_set] at hj
    rw [hother (by omega)]
    exact h.idle j (List.getElem?_eq_none hj)
  · intro j c hc
    by_cases hji : j = i
    · exact .inl (hji ▸ hc)
    · exact .inr ⟨j, (hother hji).symm ▸ hc⟩
  · intro j c hc
    by_cases hji : j = i
    · subst hji
      exact .inl (hself ▸ hc)
    · exact .inr ⟨j, hother hji ▸ hc⟩
  · rintro k ⟨⟨i', server, stream, left'', mine', here'⟩, -, -, -⟩
    obtain rfl := Turn.step.inj (mine.symm.trans mine')
    obtain ⟨rfl, -⟩ := Prod.mk.inj (Option.some.inj (here.symm.trans here'))
    exact ⟨server, stream, rfl⟩
  · rintro ⟨server, stream, rfl⟩
    exact ⟨i, server, stream, left, mine, here⟩
  · intro k hk hopen hheld hclosed
    exact absurd hclosed (hmove.stays_open h.orderly hk hopen hheld)

/-- No operation takes a turn. -/
lemma turns_of_quiet (h : Ledger w schedule n held)
    (hstate : (play w schedule n).state.Undisturbed (play w schedule (n + 1)).state)
    (hcalls : ∀ (i : Nat) (call : Operation) (left : Task Wait World Unit), (play w schedule (n + 1)).calls[i]? = some (call, left) →
      (play w schedule n).calls[i]? = some (call, left) ∨ (play w schedule n).calls[i]? = none ∧ left = call.work)
    (hlonger : (play w schedule n).calls.length ≤ (play w schedule (n + 1)).calls.length)
    (hdies : ∀ k < (play w schedule n).state.analysis.sessions.length, ¬ IsClosed (play w schedule n).state k →
      IsClosed (play w schedule (n + 1)).state k → Dies w schedule n k) :
    Turns w schedule n held held [] [] False where
  toPasses := .of_undisturbed h.orderly hstate (List.Subset.refl _) fun c hc => absurd hc List.not_mem_nil
  calls := by
    intro i call left hi
    rcases hcalls i call left hi with hold | ⟨hnone, rfl⟩
    · exact h.calls i call left hold
    · rw [h.idle i hnone]
      exact carries_work call
  idle := by
    intro i hi
    rw [List.getElem?_eq_none_iff] at hi
    exact h.idle i (List.getElem?_eq_none (by omega))
  mine := fun c hc => absurd hc List.not_mem_nil
  mine' := fun c hc => absurd hc List.not_mem_nil
  stays := fun i c hc => .inr ⟨i, hc⟩
  stayed := fun i c hc => .inr ⟨i, hc⟩
  evicts := fun k hevicts => hevicts.after ((keeps_undisturbed hstate k).mpr hevicts.before)
  inserts := False.elim
  dies := fun k hk hopen _ hclosed => hdies k hk hopen hclosed

/-- What a turn can do. -/
theorem turns (h : Ledger w schedule n held) : ∃ held' own own' evicting, Turns w schedule n held held' own own' evicting := by
  have hsame : ∀ {l l' : World}, l' = l → l.Undisturbed l' := by
    rintro l _ rfl
    exact ⟨rfl, rfl, Nat.le_refl _, .refl _⟩
  have hhappens := runs.happens_play (fresh w) schedule n
  change runs.Happens (play w schedule n) (schedule n) (play w schedule (n + 1)) at hhappens
  generalize hlater : play w schedule (n + 1) = later at hhappens
  cases hhappens with
  | still =>
    have hstate : (play w schedule (n + 1)).state = (play w schedule n).state := congrArg Moment.state hlater
    refine ⟨held, [], [], False, h.turns_of_quiet (hsame hstate) ?_ ?_ ?_⟩
    · intro i call left hi
      exact .inl (hlater ▸ hi)
    · rw [hlater]
    · intro k _ hopen hclosed
      exact absurd (hstate ▸ hclosed) hopen
  | begins call begun =>
    have hstate : (play w schedule (n + 1)).state = (play w schedule n).state := by rw [hlater]
    have hcalls := congrArg Moment.calls hlater
    refine ⟨held, [], [], False, h.turns_of_quiet (hsame hstate) ?_ ?_ ?_⟩
    · intro i call' left hi
      rw [hcalls, List.getElem?_append] at hi
      split at hi
      · exact .inl hi
      · next hge =>
        obtain ⟨rfl, rfl⟩ := Prod.mk.inj (List.mem_singleton.mp (List.mem_of_getElem? hi))
        exact .inr ⟨List.getElem?_eq_none (Nat.not_lt.mp hge), rfl⟩
    · rw [hcalls, List.length_append]
      omega
    · intro k _ hopen hclosed
      exact absurd (hstate ▸ hclosed) hopen
  | moves i call left left' state mine here steps =>
    have hstate := congrArg Moment.state hlater
    obtain ⟨own', hturns⟩ := h.turns_of_moves mine here (hstate.symm ▸ steps) (congrArg Moment.calls hlater)
    exact ⟨_, _, own', _, hturns⟩
  | around e other =>
    have hstate : (play w schedule (n + 1)).state = e.change (play w schedule n).state := congrArg Moment.state hlater
    refine ⟨held, [], [], False, h.turns_of_quiet (hstate.symm ▸ e.undisturbed _) ?_ ?_ ?_⟩
    · intro i call left hi
      rw [hlater] at hi
      exact .inl hi
    · rw [hlater]
    · exact fun k hk hopen hclosed => ⟨⟨e, other⟩, hk, hopen, hclosed⟩

/-- A ledger can be kept of every run. -/
theorem run (w : World) (schedule : Nat → Turn Operation Meanwhile) (n : Nat) : ∃ held, Ledger w schedule n held := by
  induction n with
  | zero => exact ⟨_, ledger_zero⟩
  | succ n ih =>
    obtain ⟨held, h⟩ := ih
    obtain ⟨held', own, own', evicting, ht⟩ := h.turns
    exact ⟨held', h.next ht⟩

end Ledger

/-! ## What is left when all have returned -/

/-- Who has no place never gets it back. -/
lemma not_keeps_of_le {m k : Nat} (hmn : m ≤ n) (hk : k < (play w schedule m).state.analysis.sessions.length)
    (hlost : ¬ (play w schedule m).state.analysis.Keeps k) :
    k < (play w schedule n).state.analysis.sessions.length ∧ ¬ (play w schedule n).state.analysis.Keeps k := by
  induction n, hmn using Nat.le_induction with
  | base => exact ⟨hk, hlost⟩
  | succ n hmn ih =>
    obtain ⟨held, h⟩ := Ledger.run w schedule n
    obtain ⟨_, _, _, _, ht⟩ := h.turns
    exact ⟨ih.1.trans_le ht.longer, fun hkept => ih.2 (ht.kept k ih.1 hkept)⟩

/-- Sessions stay known. -/
lemma placed_of_le {m k : Nat} (hmn : m ≤ n) (hk : k < (play w schedule m).state.analysis.sessions.length) :
    k < (play w schedule n).state.analysis.sessions.length := by
  induction n, hmn using Nat.le_induction with
  | base => exact hk
  | succ n hmn ih =>
    obtain ⟨held, h⟩ := Ledger.run w schedule n
    obtain ⟨_, _, _, _, ht⟩ := h.turns
    exact ih.trans_le ht.longer

/-- When all have returned nothing is left to be closed. -/
lemma Ledger.held_eq_nil (h : Ledger w schedule n held) (returned : AllReturned w schedule n) (i : Nat) : held i = [] := by
  cases hi : (play w schedule n).calls[i]? with
  | none => exact h.idle i hi
  | some c =>
    obtain ⟨call, left⟩ := c
    have hdone : left = .done () := returned _ (List.mem_of_getElem? hi)
    have hcarries := h.calls i call left hi
    rw [hdone] at hcarries
    exact hcarries

/-- An end of all sessions that was begun, and has returned, took every session out that was there when it began. -/
lemma not_keeps_of_stopAll {r k : Nat} (returned : AllReturned w schedule n) (hrn : r < n)
    (begun : schedule r = .begins .stopAll) (hk : k < (play w schedule r).state.analysis.sessions.length) :
    ¬ (play w schedule n).state.analysis.Keeps k := by
  let i := (play w schedule r).calls.length
  have hbegun : (play w schedule (r + 1)).calls[i]? = some (.stopAll, Operation.stopAll.work) := by
    show (runs.after (play w schedule r) (schedule r)).calls[i]? = _
    rw [begun]
    exact List.getElem?_concat_length
  obtain ⟨left, hleft, -⟩ := runs.place_of_le (Q := fun _ _ => True) (fun _ _ _ _ _ _ _ => trivial) hrn hbegun trivial
  have hdone : left = .done () := returned _ (List.mem_of_getElem? hleft)
  have hmoved : left ≠ Operation.stopAll.work := by
    rw [hdone]
    nofun
  obtain ⟨m, hmn, before, after, -, hbefore, hstart, steps, -, -⟩ :=
    runs.exists_step_of_place (Q := fun call left => left ≠ call.work) (fun _ h => h rfl) hleft hmoved
  obtain rfl : before = Operation.stopAll.work := not_not.mp hstart
  have hrm : r < m := by
    by_contra hmr
    obtain ⟨later, hlater, -⟩ := runs.place_of_le (Q := fun _ _ => True) (fun _ _ _ _ _ _ _ => trivial)
      (Nat.not_lt.mp hmr) hbefore trivial
    have hlt : i < (play w schedule r).calls.length := (List.getElem?_eq_some_iff.mp hlater).1
    exact absurd hlt (Nat.lt_irrefl _)
  -- its first access leaves the table empty
  obtain ⟨-, hstate⟩ := Prod.mk.inj (Option.some.inj steps)
  have hempty : ¬ (play w schedule (m + 1)).state.analysis.Keeps k := by
    show ¬ (runs.play (fresh w) schedule (m + 1)).state.analysis.Keeps k
    rw [← hstate]
    exact Registry.not_keeps_clear _ _
  exact (not_keeps_of_le hmn (placed_of_le (Nat.le_succ_of_le hrm.le) hk) hempty).2

/-- When all operations have returned, a session that was ever in the registry is the one of its language and workspace,
or closed, exactly if each insertion that replaced it while it was open was followed by the death of its server. If all
sessions were ended since it came, it is closed exactly then. -/
theorem kept_or_closed_iff (w : World) (schedule : Nat → Turn Operation Meanwhile) (n : Nat)
    (returned : AllReturned w schedule n) (k : Nat) (placed : k < (play w schedule n).state.analysis.sessions.length) :
    (((play w schedule n).state.analysis.Keeps k ∨ IsClosed (play w schedule n).state k) ↔
        ∀ m < n, Evicts w schedule m k → ∃ j, m < j ∧ j < n ∧ Dies w schedule j k) ∧
      ∀ r < n, schedule r = .begins .stopAll → k < (play w schedule r).state.analysis.sessions.length →
        (IsClosed (play w schedule n).state k ↔
          ∀ m < n, Evicts w schedule m k → ∃ j, m < j ∧ j < n ∧ Dies w schedule j k) := by
  obtain ⟨held, h⟩ := Ledger.run w schedule n
  have hiff : ((play w schedule n).state.analysis.Keeps k ∨ IsClosed (play w schedule n).state k) ↔
      ∀ m < n, Evicts w schedule m k → ∃ j, m < j ∧ j < n ∧ Dies w schedule j k := by
    constructor
    · intro hfate m hm hevicts
      obtain ⟨-, hlost, -, hdied⟩ := h.evicted m hm k hevicts
      exact hdied (hfate.resolve_left hlost)
    · intro hdied
      rcases h.fate k placed with hkept | hclosed | ⟨i, hheld⟩ | ⟨m, hm, hevicts⟩
      · exact .inl hkept
      · exact .inr hclosed
      · rw [h.held_eq_nil returned i] at hheld
        exact absurd hheld List.not_mem_nil
      · obtain ⟨j, -, hj, hdies⟩ := hdied m hm hevicts
        exact .inr (h.dead j hj k hdies).2
  refine ⟨hiff, ?_⟩
  intro r hr begun hk
  have hlost := not_keeps_of_stopAll returned hr begun hk
  rw [← hiff]
  exact (or_iff_right hlost).symm

end Runs

/-! ## A session that is replaced -/

section Replaced

/-- A server of one language in one workspace. -/
def javaServer : Server := { language := "java", command := "", workspace := ⟨"/w"⟩ }

/-- Three sessions for the same language and workspace are put in, the server of the second one dies, and all are ended. -/
def replacing : List (Turn Operation Meanwhile) :=
  [.begins (.insert javaServer {}), .step 0, .begins (.insert javaServer { inputEnded := true }), .step 1,
    .begins (.insert javaServer {}), .step 2, .around (.reads 1), .begins .stopAll] ++ .replicate 5 (.step 3)

/-- Those turns, one after the other. -/
def replacingTurns (n : Nat) : Turn Operation Meanwhile := replacing.getD n (.step 0)

/-- All operations have returned, and the last two sessions are closed. The first one has no place any more and is not
closed: an insertion took its place, and its server did not die. -/
theorem replaced_session_stays_open : AllReturned default replacingTurns 13 ∧ Evicts default replacingTurns 3 0 ∧
    ¬ ((play default replacingTurns 13).state.analysis.Keeps 0 ∨ IsClosed (play default replacingTurns 13).state 0) ∧
    IsClosed (play default replacingTurns 13).state 1 ∧ IsClosed (play default replacingTurns 13).state 2 := by
  have hall : ((play default replacingTurns 13).calls.all fun c => c.2.result?.isSome) = true := by decide +kernel
  have hreturned : AllReturned default replacingTurns 13 := by
    rintro ⟨call, left⟩ hc
    have hdone := List.all_eq_true.mp hall _ hc
    cases left with
    | done result => rfl
    | access | wait => cases hdone
  have hevicts : Evicts default replacingTurns 3 0 :=
    ⟨⟨1, javaServer, _, Operation.work (.insert javaServer { inputEnded := true }), rfl, rfl⟩, by decide +kernel,
      by decide +kernel, by decide +kernel⟩
  refine ⟨hreturned, hevicts, ?_, by decide +kernel, by decide +kernel⟩
  have hplaced : 0 < (play default replacingTurns 13).state.analysis.sessions.length := by decide +kernel
  rw [(kept_or_closed_iff default replacingTurns 13 hreturned 0 hplaced).1]
  intro hdied
  -- the only turn that is none of an operation leaves the first session alone
  obtain ⟨j, -, hj, ⟨e, haround⟩, -, -, hclosed⟩ := hdied 3 (by decide) hevicts
  have hsix : ∀ j < 13, j = 6 ∨ (match replacingTurns j with | .around _ => false | _ => true) = true := by decide
  rcases hsix j hj with rfl | hfalse
  · have hopen : ¬ IsClosed (play default replacingTurns 7).state 0 := by decide +kernel
    exact hopen hclosed
  · rw [haround] at hfalse
    cases hfalse

end Replaced

end Switchboard.Analysis.Custody
