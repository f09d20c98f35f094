import Switchboard.Proofs.Debug.Scene

/-!
# One live target per session

* `Debugger.Coherent`: ids are unique, targets and the table are about sessions that there are, and of the targets on one
  session at most one has not ended;
* `World.Claimed`: what a claim comes to;
* `one_target_per_session`: whatever the order of runs, insertions, events and ends of sessions, the debugger is
  coherent, and a run whose claim meets a live target fails and has changed nothing.
-/

namespace Switchboard

namespace Debug

/-! ## Coherent debuggers -/

/-- Ids are unique, targets and the table are about sessions that there are, and of the targets on one session at most
one has not ended. -/
structure Debugger.Coherent (b : Debugger) : Prop extends Debugger.Numbered b where
  placed : ∀ t ∈ b.targets, t.session < b.sessions.length
  single : ∀ t ∈ b.targets, ∀ u ∈ b.targets, t.isTerminated = false → u.isTerminated = false →
    t.session = u.session → t = u
  table : ∀ e ∈ b.current, e.2 < b.sessions.length ∧ (b.session e.2).language = e.1

namespace Debugger

variable {b : Debugger}

/-- There is no live target on a session if none is found. -/
lemma isTerminated_of_liveTarget?_eq_none {x : SessionId} (h : b.liveTarget? x = none) {t : Target} (ht : t ∈ b.targets)
    (hx : t.session = x) : t.isTerminated = true := by
  have hnone := List.find?_eq_none.mp h t ht
  simpa [hx] using hnone

/-- What is found is a live target on the session. -/
lemma of_liveTarget?_eq_some {x : SessionId} {t : Target} (h : b.liveTarget? x = some t) :
    t ∈ b.targets ∧ t.session = x ∧ t.isTerminated = false := by
  have hfound := List.find?_some h
  simp only [Bool.and_eq_true, decide_eq_true_eq, Bool.not_eq_true'] at hfound
  exact ⟨List.mem_of_find?_eq_some h, hfound.1, hfound.2⟩

/-- An entry of the table is the new one, or it was there before. -/
lemma mem_current_setCurrent {language : String} {x : SessionId} {e : String × SessionId}
    (h : e ∈ (b.setCurrent language x).2.current) : e = (language, x) ∨ e ∈ b.current := by
  unfold setCurrent at h
  split at h
  · obtain ⟨old, hold, heq⟩ := List.mem_map.mp h
    split at heq
    · exact .inl heq.symm
    · exact .inr (heq ▸ hold)
  · rcases List.mem_append.mp h with h | h
    · exact .inr h
    · exact .inl (List.mem_singleton.mp h)

lemma setCurrent_targets (b : Debugger) (language : String) (x : SessionId) :
    (b.setCurrent language x).2.targets = b.targets := by
  unfold setCurrent
  split <;> rfl

lemma setCurrent_nextTarget (b : Debugger) (language : String) (x : SessionId) :
    (b.setCurrent language x).2.nextTarget = b.nextTarget := by
  unfold setCurrent
  split <;> rfl

lemma setCurrent_sessions (b : Debugger) (language : String) (x : SessionId) :
    (b.setCurrent language x).2.sessions = b.sessions := by
  unfold setCurrent
  split <;> rfl

/-- Sessions that were there stay the same ones when others come. -/
lemma session_append {l more : List Session} {x : SessionId} (hx : x < l.length) :
    (l ++ more).getD x default = l.getD x default := by
  simp only [List.getD, List.getElem?_append_left hx]

namespace Coherent

/-- A session becomes the one of its language. -/
lemma setCurrent (h : b.Coherent) {x : SessionId} (hx : x < b.sessions.length) :
    (b.setCurrent (b.session x).language x).2.Coherent := by
  have htargets := b.setCurrent_targets (b.session x).language x
  have hsessions := b.setCurrent_sessions (b.session x).language x
  refine ⟨h.toNumbered.of_eq htargets (b.setCurrent_nextTarget _ x), ?_, ?_, ?_⟩
  · rw [htargets, hsessions]
    exact h.placed
  · rw [htargets]
    exact h.single
  · intro e he
    have hsession : (b.setCurrent (b.session x).language x).2.session e.2 = b.session e.2 :=
      congrArg (List.getD · e.2 default) hsessions
    rw [hsessions, hsession]
    rcases mem_current_setCurrent he with rfl | hold
    · exact ⟨hx, rfl⟩
    · exact h.table e hold

/-- Somebody takes up the events of a session. -/
lemma serve (h : b.Coherent) (x : SessionId) : (b.serve x).Coherent := by
  have hlength : (b.serve x).sessions.length = b.sessions.length := List.length_modify ..
  refine ⟨h.toNumbered.of_eq rfl rfl, ?_, h.single, ?_⟩
  · rw [hlength]
    exact h.placed
  · intro e he
    obtain ⟨hlt, hlanguage⟩ := h.table e he
    rw [hlength]
    refine ⟨hlt, ?_⟩
    rw [← hlanguage]
    show ((b.sessions.modify x _).getD e.2 default).language = (b.sessions.getD e.2 default).language
    simp only [List.getD, List.getElem?_modify]
    rw [List.getElem?_eq_getElem hlt]
    split <;> rfl

/-- Sessions come. -/
lemma append (h : b.Coherent) {b' : Debugger} {more : List Session} (htargets : b'.targets = b.targets)
    (hnext : b'.nextTarget = b.nextTarget) (hcurrent : b'.current = b.current)
    (hsessions : b'.sessions = b.sessions ++ more) : b'.Coherent := by
  have hle : b.sessions.length ≤ b'.sessions.length := by
    rw [hsessions, List.length_append]
    exact Nat.le_add_right ..
  refine ⟨h.toNumbered.of_eq htargets hnext, ?_, ?_, ?_⟩
  · rw [htargets]
    intro t ht
    exact Nat.lt_of_lt_of_le (h.placed t ht) hle
  · rw [htargets]
    exact h.single
  · rw [hcurrent]
    intro e he
    obtain ⟨hlt, hlanguage⟩ := h.table e he
    refine ⟨Nat.lt_of_lt_of_le hlt hle, ?_⟩
    rw [session, hsessions, session_append hlt]
    exact hlanguage

/-- A target comes to a session without a live one. -/
lemma addTarget (h : b.Coherent) {x : SessionId} (hx : x < b.sessions.length)
    (hfree : ∀ t ∈ b.targets, t.session = x → t.isTerminated = true) (launch : Launch) :
    (b.addTarget launch x).2.Coherent := by
  have hmem : ∀ t ∈ (b.addTarget launch x).2.targets, t ∈ b.targets ∨ t = (b.addTarget launch x).1 := by
    intro t ht
    rcases List.mem_append.mp ht with ht | ht
    · exact .inl ht
    · exact .inr (List.mem_singleton.mp ht)
  refine ⟨h.toNumbered.addTarget launch x, ?_, ?_, h.table⟩
  · intro t ht
    rcases hmem t ht with ht | rfl
    · exact h.placed t ht
    · exact hx
  · intro t ht u hu htlive hulive hsame
    rcases hmem t ht with ht | rfl
    · rcases hmem u hu with hu | rfl
      · exact h.single t ht u hu htlive hulive hsame
      · have hended := hfree t ht hsame
        rw [htlive] at hended
        cases hended
    · rcases hmem u hu with hu | rfl
      · have hended := hfree u hu hsame.symm
        rw [hulive] at hended
        cases hended
      · rfl

end Coherent

end Debugger

end Debug

/-! ## Claims -/

namespace World

open Debug

/-- The target that a claim reserves on a session. -/
def reserve (w : World) (launch : Launch) (x : SessionId) : Except Fault Target × World :=
  let (t, b) := w.debugger.addTarget launch x
  (pure t, { w with debugger := b }.note [.target .add t])

/-- An adapter of a language was started; its session is the one of the language. -/
structure Started (w : World) (language : String) (w' : World) : Prop where
  ages : Network.Ages w.net w'.net
  /-- Its channel is new, and nobody was at its door. -/
  connects : ∃ ch : Channel, ch.door = ⟨.notInitialized, 0, 0⟩ ∧ ch.outgoing = [] ∧ w'.net = (w.net.connect ch).2
  debugger : ∃ session : Session, session.language = language ∧ session.served = true ∧
    session.channel = w.net.channels.length ∧
    w'.debugger = ((w.debugger.addSession session).2.setCurrent language w.debugger.sessions.length).2
  told : w'.told = w.told

/-- What a claim comes to: nothing, or a target on the open session of the language, or one on a new session. -/
inductive Claimed (w : World) (launch : Launch) : Except Fault Target × World → Prop
  | refused (e : Fault) : Claimed w launch (.error e, w)
  | joins (x : SessionId) (entry : (launch.language, x) ∈ w.debugger.current) (isOpen : w.isSessionOpen x = true)
      (free : w.debugger.liveTarget? x = none) : Claimed w launch (w.reserve launch x)
  | starts (w' : World) (started : Started w launch.language w') :
      Claimed w launch (w'.reserve launch w.debugger.sessions.length)

/-- To connect a channel opens none that is there. -/
lemma ages_connect (n : Network) (ch : Channel) : Network.Ages n (n.connect ch).2 := by
  intro c hc
  have hlt : c < n.channels.length := by
    by_contra hge
    have hdefault : n.channel c = default := by simp [Network.channel, List.getD, Nat.not_lt.mp hge]
    rw [hdefault] at hc
    cases hc
  have hsame : (n.connect ch).2.channel c = n.channel c := by
    simp only [Network.connect, Network.channel, List.getD, List.getElem?_append_left hlt]
  rw [hsame]
  exact hc

/-- An adapter cannot be started, or it is. -/
lemma startAdapter_cases (w : World) (language : String) (directory : Option Path) :
    (∃ e, w.startAdapter language directory = (.error e, w)) ∨
      ∃ w', w.startAdapter language directory = (.ok w.debugger.sessions.length, w') ∧ Started w language w' := by
  unfold startAdapter
  dsimp only
  split
  · exact .inl ⟨_, rfl⟩
  · next adapter _ =>
    unfold spawn
    split
    · next hspawn =>
      split at hspawn
      · obtain ⟨-, rfl⟩ := Prod.mk.inj hspawn
        exact .inl ⟨_, rfl⟩
      · cases hspawn
    · next hspawn =>
      split at hspawn
      · cases hspawn
      · obtain ⟨hchannel, rfl⟩ := Prod.mk.inj hspawn
        obtain rfl := Except.ok.inj hchannel
        exact .inr ⟨_, rfl, ages_connect _ _, ⟨_, rfl, rfl, rfl⟩, ⟨_, rfl, rfl, rfl, rfl⟩, rfl⟩

theorem claimed (w : World) (launch : Launch) (root : Option Path) : Claimed w launch (w.claim launch root) := by
  have hfree : (∃ e, w.freeSession launch.language root = (.error e, w)) ∨
      (∃ x, w.freeSession launch.language root = (.ok x, w) ∧ (launch.language, x) ∈ w.debugger.current ∧
        w.isSessionOpen x = true ∧ w.debugger.liveTarget? x = none) ∨
      ∃ w', w.freeSession launch.language root = (.ok w.debugger.sessions.length, w') ∧
        Started w launch.language w' := by
    unfold freeSession
    split
    · next x hx =>
      obtain ⟨hlookup, hopen⟩ := Option.filter_eq_some_iff.mp hx
      obtain ⟨before, after, hentries, -⟩ := List.lookup_eq_some_iff.mp hlookup
      split
      · exact .inl ⟨_, rfl⟩
      · next hnone => exact .inr (.inl ⟨x, rfl, by simp [hentries], hopen, by simpa using hnone⟩)
    · rcases startAdapter_cases w launch.language root with hrefused | hstarted
      · exact .inl hrefused
      · exact .inr (.inr hstarted)
  unfold claim
  rcases hfree with ⟨e, heq⟩ | ⟨x, heq, hentry, hopen, hnone⟩ | ⟨w', heq, hstarted⟩
  · rw [heq]
    exact .refused e
  · rw [heq]
    exact .joins x hentry hopen hnone
  · rw [heq]
    exact .starts w' hstarted

/-- A claim that meets a live target on the open session of its language is refused, and changes nothing. -/
lemma claim_of_live {w : World} {launch : Launch} {x : SessionId}
    (hcurrent : w.debugger.current.lookup launch.language = some x) (hopen : w.isSessionOpen x = true)
    (hlive : (w.debugger.liveTarget? x).isSome = true) (root : Option Path) :
    w.claim launch root = (.error (.alreadyRunning launch.language), w) := by
  have hfound : (w.debugger.current.lookup launch.language).filter w.isSessionOpen = some x :=
    Option.filter_eq_some_iff.mpr ⟨hcurrent, hopen⟩
  simp only [claim, freeSession, hfound, hlive, if_true]
  rfl

/-- A claim that meets no live target there gets one on that session. -/
lemma claim_of_free {w : World} {launch : Launch} {x : SessionId}
    (hcurrent : w.debugger.current.lookup launch.language = some x) (hopen : w.isSessionOpen x = true)
    (hfree : w.debugger.liveTarget? x = none) (root : Option Path) : w.claim launch root = w.reserve launch x := by
  have hfound : (w.debugger.current.lookup launch.language).filter w.isSessionOpen = some x :=
    Option.filter_eq_some_iff.mpr ⟨hcurrent, hopen⟩
  simp only [claim, freeSession, hfound, hfree]
  rfl

lemma coherent_started {w w' : World} {language : String} (h : w.debugger.Coherent) (hstarted : Started w language w') :
    w'.debugger.Coherent ∧ w'.debugger.targets = w.debugger.targets ∧
      w'.debugger.sessions.length = w.debugger.sessions.length + 1 := by
  obtain ⟨session, rfl, -, -, hdebugger⟩ := hstarted.debugger
  have hsessions : (w.debugger.addSession session).2.sessions = w.debugger.sessions ++ [session] := rfl
  have hadded : (w.debugger.addSession session).2.Coherent := h.append rfl rfl rfl hsessions
  have hlength : (w.debugger.addSession session).2.sessions.length = w.debugger.sessions.length + 1 :=
    List.length_append
  have hnew : ((w.debugger.addSession session).2.session w.debugger.sessions.length) = session := by
    show (w.debugger.sessions ++ [session]).getD _ default = session
    simp [List.getD]
  have hlt : w.debugger.sessions.length < (w.debugger.addSession session).2.sessions.length := by
    rw [hlength]
    exact Nat.lt_succ_self _
  have hcoherent := hadded.setCurrent hlt
  rw [hnew, ← hdebugger] at hcoherent
  refine ⟨hcoherent, ?_, ?_⟩
  · rw [hdebugger, Debugger.setCurrent_targets]
    rfl
  · rw [hdebugger, Debugger.setCurrent_sessions]
    exact hlength

/-- A claim leaves the debugger coherent. -/
lemma coherent_claim {w : World} (h : w.debugger.Coherent) (launch : Launch) (root : Option Path) :
    (w.claim launch root).2.debugger.Coherent := by
  have hclaimed := w.claimed launch root
  generalize w.claim launch root = r at hclaimed
  cases hclaimed with
  | refused e => exact h
  | joins x entry isOpen free =>
    refine h.addTarget (h.table _ entry).1 ?_ launch
    intro t ht hx
    exact Debugger.isTerminated_of_liveTarget?_eq_none free ht hx
  | starts w' started =>
    obtain ⟨hcoherent, htargets, hlength⟩ := coherent_started h started
    have hlt : w.debugger.sessions.length < w'.debugger.sessions.length := by
      rw [hlength]
      exact Nat.lt_succ_self _
    refine hcoherent.addTarget hlt ?_ launch
    -- nobody can be on the new session yet
    intro t ht hx
    rw [htargets] at ht
    have hplaced := h.placed t ht
    rw [hx] at hplaced
    exact absurd hplaced (Nat.lt_irrefl _)

/-- What spares the world leaves the debugger coherent. -/
lemma Keeps.coherent {w w' : World} (hkeeps : Keeps w w') (h : w.debugger.Coherent) : w'.debugger.Coherent := by
  have hnumbered := hkeeps.numbered h.toNumbered
  refine ⟨hnumbered, ?_, ?_, ?_⟩
  · intro u hu
    obtain ⟨t, ht, hsucceeds⟩ := hkeeps.exists_before hu
    rw [hsucceeds.session, hkeeps.sessions]
    exact h.placed t ht
  · intro u hu u' hu' hlive hlive' hsame
    obtain ⟨t, ht, hsucceeds⟩ := hkeeps.exists_before hu
    obtain ⟨t', ht', hsucceeds'⟩ := hkeeps.exists_before hu'
    have hbefore : t.isTerminated = false := by
      cases hended : t.isTerminated with
      | false => rfl
      | true => exact nomatch (hsucceeds.ended hended).symm.trans hlive
    have hbefore' : t'.isTerminated = false := by
      cases hended : t'.isTerminated with
      | false => rfl
      | true => exact nomatch (hsucceeds'.ended hended).symm.trans hlive'
    have heq : t = t' := by
      refine h.single t ht t' ht' hbefore hbefore' ?_
      rw [← hsucceeds.session, ← hsucceeds'.session, hsame]
    refine hnumbered.eq_of_id_eq hu hu' ?_
    rw [hsucceeds.id, hsucceeds'.id, heq]
  · intro e he
    have hentry := h.table e (hkeeps.current e he)
    rw [Debugger.session, hkeeps.sessions]
    exact hentry

end World

namespace Debug.Running

/-! ## Runs -/

/-- A debugger at its beginning, as it is made from a state directory. -/
structure Fresh (w : World) : Prop where
  targets : w.debugger.targets = []
  current : w.debugger.current = []
  sessions : w.debugger.sessions = []
  counts : 0 < w.debugger.nextTarget

namespace Scene

/-- The debugger is coherent, and sessions that are to be inserted are there. -/
structure Assembled (s : Scene) : Prop where
  coherent : s.world.debugger.Coherent
  attached : ∀ (i : Nat) (x : SessionId) (work : Task Wait World (Except Fault Unit)),
    s.calls[i]? = some (.insert x, work) → x < s.world.debugger.sessions.length

/-- One step of a call leaves the debugger coherent, and no session goes. -/
lemma Move.coherent {call : Call} {work work' : Task Wait World (Except Fault Unit)} {w w' : World}
    (hmove : Move call work w work' w') (h : w.debugger.Coherent)
    (hattached : ∀ x, call = .insert x → x < w.debugger.sessions.length) :
    w'.debugger.Coherent ∧ w.debugger.sessions.length ≤ w'.debugger.sessions.length := by
  cases hmove with
  | spares spares =>
    have hkeeps := spares h.toNumbered
    refine ⟨hkeeps.coherent h, ?_⟩
    rw [hkeeps.sessions]
  | claims k launch root run turn world =>
    rw [world]
    refine ⟨World.coherent_claim h launch root, ?_⟩
    have hclaimed := w.claimed launch root
    generalize w.claim launch root = r at hclaimed
    cases hclaimed with
    | refused e => exact Nat.le_refl _
    | joins x entry isOpen free => exact Nat.le_refl _
    | starts w' started =>
      obtain ⟨-, -, hlength⟩ := World.coherent_started h started
      show _ ≤ w'.debugger.sessions.length
      rw [hlength]
      exact Nat.le_succ _
  | enters x insert world owes =>
    rw [world]
    refine ⟨h.setCurrent (hattached x insert), ?_⟩
    show _ ≤ (w.debugger.setCurrent _ x).2.sessions.length
    rw [Debugger.setCurrent_sessions]
  | serves x insert world last =>
    rw [world]
    refine ⟨h.serve x, ?_⟩
    show _ ≤ (w.debugger.sessions.modify x _).length
    rw [List.length_modify]

/-- A world that is spared stays as it was in this respect. -/
lemma Assembled.of_spares {s : Scene} (h : Assembled s) {w' : World} (hspares : s.world.Spares w') :
    Assembled { s with world := w' } := by
  have hkeeps := hspares h.coherent.toNumbered
  refine ⟨hkeeps.coherent h.coherent, ?_⟩
  show ∀ (i : Nat) (x : SessionId) (work : Task Wait World (Except Fault Unit)),
    s.calls[i]? = some (.insert x, work) → x < w'.debugger.sessions.length
  rw [hkeeps.sessions]
  exact h.attached

/-- Whatever happens, the debugger stays coherent. -/
lemma assembled_of_happens {s s' : Scene} (h : Assembled s) (hhappens : Happens s s') : Assembled s' := by
  cases hhappens with
  | still same =>
    rw [same]
    exact h
  | begins call admitted eq =>
    rw [eq]
    refine ⟨h.coherent, ?_⟩
    intro i x work hi
    simp only [List.getElem?_append] at hi
    split at hi
    · exact h.attached i x work hi
    · obtain ⟨rfl, -⟩ := Prod.mk.inj (List.mem_singleton.mp (List.mem_of_getElem? hi))
      simp only [admits, Bool.and_eq_true, decide_eq_true_eq] at admitted
      exact admitted.1.1
  | moves i call work work' w' underway tick stage move eq =>
    rw [eq]
    obtain ⟨hcoherent, hle⟩ := move.coherent h.coherent (by
      rintro x rfl
      exact h.attached i x work underway)
    refine ⟨hcoherent, ?_⟩
    intro j x left hj
    refine Nat.lt_of_lt_of_le ?_ hle
    by_cases hij : i = j
    · subst hij
      rw [List.getElem?_set_self (List.getElem?_eq_some_iff.mp underway).1] at hj
      obtain ⟨rfl, -⟩ := Prod.mk.inj (Option.some.inj hj)
      exact h.attached i x work underway
    · rw [List.getElem?_set_ne hij] at hj
      exact h.attached j x left hj
  | works x work w' served before spares within eq =>
    rw [eq]
    have hspared := h.of_spares spares
    exact ⟨hspared.coherent, hspared.attached⟩
  | rests x served before eq =>
    rw [eq]
    exact ⟨h.coherent, h.attached⟩
  | closes x served before closed eq =>
    rw [eq]
    exact ⟨h.coherent, h.attached⟩
  | leaves x work work' w' served before tick spares within eq =>
    rw [eq]
    have hspared := h.of_spares spares
    exact ⟨hspared.coherent, hspared.attached⟩
  | ends x served r before eq =>
    rw [eq]
    exact ⟨h.coherent, h.attached⟩
  | outside new eq =>
    rw [eq]
    have hcoherent : (around s.world new).debugger.Coherent := h.coherent.append rfl rfl rfl rfl
    refine ⟨hcoherent, ?_⟩
    intro i x work hi
    refine Nat.lt_of_lt_of_le (h.attached i x work hi) ?_
    show _ ≤ (s.world.debugger.sessions ++ _).length
    rw [List.length_append]
    exact Nat.le_add_right ..

lemma coherent_of_fresh {w : World} (h : Fresh w) : w.debugger.Coherent := by
  refine ⟨⟨?_, ?_, h.counts⟩, ?_, ?_, ?_⟩
  · rw [h.targets]
    exact List.nodup_nil
  · rw [h.targets]
    exact List.forall_mem_nil _
  · rw [h.targets]
    exact List.forall_mem_nil _
  · rw [h.targets]
    exact List.forall_mem_nil _
  · rw [h.current]
    exact List.forall_mem_nil _

/-- In a run the debugger stays coherent. -/
theorem assembled {start : World} (hfresh : Fresh start) (schedule : Nat → Turn) (n : Nat) :
    Assembled (play start schedule n) := by
  induction n with
  | zero => exact ⟨coherent_of_fresh hfresh, nofun⟩
  | succ n ih => exact assembled_of_happens ih (happens_play start schedule n)

section Refusal

variable {start : World} {schedule : Nat → Turn}

/-- No call goes. -/
lemma Happens.length_calls_le {s s' : Scene} (h : Happens s s') : s.calls.length ≤ s'.calls.length := by
  cases h with
  | still same => rw [same]
  | begins call admitted eq =>
    rw [eq]
    simp
  | moves i call work work' w' underway tick stage move eq =>
    rw [eq]
    simp
  | works x work w' served before spares within eq => rw [eq]; rfl
  | rests x served before eq => rw [eq]; rfl
  | closes x served before closed eq => rw [eq]; rfl
  | leaves x work work' w' served before tick spares within eq => rw [eq]; rfl
  | ends x served r before eq => rw [eq]; rfl
  | outside new eq => rw [eq]

lemma length_calls_le {m n : Nat} (hmn : m ≤ n) :
    (play start schedule m).calls.length ≤ (play start schedule n).calls.length := by
  induction n, hmn using Nat.le_induction with
  | base => exact Nat.le_refl _
  | succ n _ ih => exact Nat.le_trans ih (happens_play start schedule n).length_calls_le

/-- The turn of a call that has yet to come, or is done, changes nothing. -/
lemma still_of_none {m i : Nat} (hturn : schedule m = .step i)
    (hnone : ∀ call work, (play start schedule m).calls[i]? = some (call, work) → ∃ r, work = .done r) :
    play start schedule (m + 1) = play start schedule m := by
  have hafter : play start schedule (m + 1) = (play start schedule m).after (.step i) := by
    rw [← hturn]
    rfl
  rcases after_step (play start schedule m) i with ⟨call, work, work', w', hi, htick, -⟩ | hsame
  · obtain ⟨r, rfl⟩ := hnone call work hi
    cases htick
  · rw [hafter, hsame]

/-- A run has changed nothing so far, or it has had its turn at the table. -/
lemma silent_or_spares (n : Nat) {i k : Nat} {work : Task Wait World (Except Fault Unit)}
    (hi : (play start schedule n).calls[i]? = some (.run k, work)) :
    (∀ m < n, schedule m = .step i → (play start schedule (m + 1)).world = (play start schedule m).world) ∨
      work.Within World.Spares := by
  induction n generalizing work with
  | zero => cases hi
  | succ n ih =>
    have hlater : (∀ m < n, schedule m = .step i →
          (play start schedule (m + 1)).world = (play start schedule m).world) →
        (schedule n = .step i → (play start schedule (n + 1)).world = (play start schedule n).world) →
        ∀ m < n + 1, schedule m = .step i →
          (play start schedule (m + 1)).world = (play start schedule m).world := by
      intro hbefore hnow m hm hturn
      rcases Nat.lt_succ_iff_lt_or_eq.mp hm with hlt | rfl
      · exact hbefore m hlt hturn
      · exact hnow hturn
    by_cases hturn : schedule n = .step i
    · have hafter : play start schedule (n + 1) = (play start schedule n).after (.step i) := by
        rw [← hturn]
        rfl
      rcases after_step (play start schedule n) i with ⟨call, left, work', w', hleft, htick, heq⟩ | hsame
      · rw [hafter, heq] at hi
        rw [List.getElem?_set_self (List.getElem?_eq_some_iff.mp hleft).1] at hi
        obtain ⟨rfl, rfl⟩ := Prod.mk.inj (Option.some.inj hi)
        rcases run_tick ((staged start schedule n).calls i _ left hleft) htick with hworld | hwithin
        · rcases ih hleft with hsilent | hspares
          · refine .inl (hlater hsilent fun _ => ?_)
            rw [hafter, heq, hworld]
          · exact .inr (Task.Within.tick hspares htick).2
        · exact .inr hwithin
      · rw [hafter, hsame] at hi
        rcases ih hi with hsilent | hspares
        · exact .inl (hlater hsilent fun _ => by rw [hafter, hsame])
        · exact .inr hspares
    · by_cases hborn : i < (play start schedule n).calls.length
      · have hkept := calls_after hturn (List.getElem?_eq_getElem hborn)
        have hbefore : (play start schedule n).calls[i]? = some (.run k, work) := by
          rw [List.getElem?_eq_getElem hborn, ← hi]
          exact hkept.symm
        rcases ih hbefore with hsilent | hspares
        · exact .inl (hlater hsilent fun h => absurd h hturn)
        · exact .inr hspares
      · -- a call that has come just now has had no turn
        left
        intro m hm hturn
        have hle : (play start schedule m).calls.length ≤ (play start schedule n).calls.length :=
          length_calls_le (Nat.le_of_lt_succ hm)
        have hnone : (play start schedule m).calls[i]? = none := by
          rw [List.getElem?_eq_none_iff]
          omega
        rw [still_of_none hturn]
        intro call left hleft
        rw [hnone] at hleft
        cases hleft

/-- The turn of a run at the table can bring a target. -/
lemma not_within_claiming (launch : Launch) (root : Option Path) :
    ¬ Attempt.Within World.Spares (claiming launch root) := by
  intro hwithin
  -- a world with an open session of the language and no target on it
  let w : World := { debugger := { sessions := [default], current := [(launch.language, 0)] } }
  have hspares : w.Spares (w.claim launch root).2 := (hwithin w).1
  have hkeeps := hspares ⟨List.nodup_nil, List.forall_mem_nil _, Nat.one_pos⟩
  have hlength := hkeeps.targets.length_eq
  have hclaim : w.claim launch root = w.reserve launch 0 := by
    refine World.claim_of_free ?_ rfl rfl root
    simp [w]
  rw [hclaim] at hlength
  cases hlength

/-- A call that is done stays done. -/
lemma done_of_done {m n : Nat} (hmn : m ≤ n) {i : Nat} {call : Call} {r : Except Fault Unit}
    (hi : (play start schedule m).calls[i]? = some (call, .done r)) :
    (play start schedule n).calls[i]? = some (call, .done r) := by
  induction n, hmn using Nat.le_induction with
  | base => exact hi
  | succ n _ ih =>
    by_cases hturn : schedule n = .step i
    · rw [still_of_none hturn]
      · exact ih
      · intro other work hother
        rw [ih] at hother
        obtain ⟨-, rfl⟩ := Prod.mk.inj (Option.some.inj hother)
        exact ⟨r, rfl⟩
    · exact calls_after hturn ih

/-- The turn of a run at the table when there is a live target on the open session of its language: it fails, and has
changed nothing at any time. -/
lemma refused_of_live {n i k : Nat} {launch : Launch} {root : Option Path} {x : SessionId} (hturn : schedule n = .step i)
    (hi : (play start schedule n).calls[i]? = some (.run k, (claiming launch root).outcome))
    (hcurrent : (play start schedule n).world.debugger.current.lookup launch.language = some x)
    (hopen : (play start schedule n).world.isSessionOpen x = true)
    (hlive : ((play start schedule n).world.debugger.liveTarget? x).isSome = true) :
    (∀ m, n < m → (play start schedule m).calls[i]? = some (.run k, .done (.error (.alreadyRunning launch.language)))) ∧
      ∀ m, schedule m = .step i → (play start schedule (m + 1)).world = (play start schedule m).world := by
  have hclaim := World.claim_of_live hcurrent hopen hlive root
  have htick : (claiming launch root).outcome.tick? World.holds (play start schedule n).world
      = some (.done (.error (.alreadyRunning launch.language)), (play start schedule n).world) := by
    show some (Task.andThen (Task.andThen (.done ((play start schedule n).world.claim launch root).1) _) _,
      ((play start schedule n).world.claim launch root).2) = _
    rw [hclaim]
    rfl
  have hafter : play start schedule (n + 1) = { (play start schedule n) with
      calls := (play start schedule n).calls.set i (.run k, .done (.error (.alreadyRunning launch.language))) } := by
    show (play start schedule n).after (schedule n) = _
    rw [hturn]
    unfold after
    simp only [hi, htick]
  have hdone : ∀ m, n < m →
      (play start schedule m).calls[i]? = some (.run k, .done (.error (.alreadyRunning launch.language))) := by
    intro m hm
    refine done_of_done hm ?_
    rw [hafter]
    exact List.getElem?_set_self (List.getElem?_eq_some_iff.mp hi).1
  refine ⟨hdone, ?_⟩
  intro m hm
  rcases Nat.lt_trichotomy m n with hlt | rfl | hgt
  · rcases silent_or_spares n hi with hsilent | hspares
    · exact hsilent m hlt hm
    · exact absurd hspares (not_within_claiming launch root)
  · rw [hafter]
  · rw [still_of_none hm]
    intro call work hwork
    rw [hdone m hgt] at hwork
    obtain ⟨-, rfl⟩ := Prod.mk.inj (Option.some.inj hwork)
    exact ⟨_, rfl⟩

end Refusal

/-- Whatever the order in which runs, insertions, events, ends of sessions and everything around them take their steps,
on every session there is at most one target that has not ended. A run whose turn at the table comes when there is one on
the open session of its language fails because the session is occupied, and at no time has it changed anything. -/
theorem one_target_per_session {start : World} (hfresh : Fresh start) (schedule : Nat → Turn) :
    (∀ n x, ((play start schedule n).world.debugger.targets.filter
        fun t => t.session = x && !t.isTerminated).length ≤ 1) ∧
      ∀ n i k launch root x, schedule n = .step i →
        (play start schedule n).calls[i]? = some (.run k, (claiming launch root).outcome) →
        (play start schedule n).world.debugger.current.lookup launch.language = some x →
        (play start schedule n).world.isSessionOpen x = true →
        ((play start schedule n).world.debugger.liveTarget? x).isSome = true →
        ∃ e : Fault, e.kind = "SessionStateError" ∧
          (∀ m, n < m → (play start schedule m).calls[i]? = some (.run k, .done (.error e))) ∧
          ∀ m, schedule m = .step i → (play start schedule (m + 1)).world = (play start schedule m).world := by
  refine ⟨?_, ?_⟩
  · intro n x
    have hcoherent := (assembled hfresh schedule n).coherent
    have hnodup : (play start schedule n).world.debugger.targets.Nodup := hcoherent.nodup.of_map
    have hsame : ∀ t ∈ (play start schedule n).world.debugger.targets.filter fun t => t.session = x && !t.isTerminated,
        ∀ u ∈ (play start schedule n).world.debugger.targets.filter fun t => t.session = x && !t.isTerminated, t = u := by
      intro t ht u hu
      simp only [List.mem_filter, Bool.and_eq_true, decide_eq_true_eq, Bool.not_eq_true'] at ht hu
      exact hcoherent.single t ht.1 u hu.1 ht.2.2 hu.2.2 (ht.2.1.trans hu.2.1.symm)
    have hfiltered := hnodup.filter fun t : Target => decide (t.session = x) && !t.isTerminated
    generalize (play start schedule n).world.debugger.targets.filter _ = l at hsame hfiltered
    match l with
    | [] => exact Nat.zero_le 1
    | [t] => exact Nat.le_refl 1
    | t :: u :: rest =>
      have heq := hsame t (List.mem_cons_self ..) u (List.mem_cons_of_mem _ (List.mem_cons_self ..))
      exact absurd (heq ▸ List.mem_cons_self ..) (List.nodup_cons.mp hfiltered).1
  · intro n i k launch root x hturn hi hcurrent hopen hlive
    obtain ⟨hdone, hsilent⟩ := refused_of_live hturn hi hcurrent hopen hlive
    exact ⟨_, rfl, hdone, hsilent⟩

/-! ### Two runs of one configuration -/

/-- A debugger with one launch configuration. -/
def oneLaunch : World where
  debugger := { launches := { entries := [{ (default : Launch) with id := 1, language := "java" }] } }

/-- An adapter is attached and its session inserted; then two runs begin and come to the table one after the other. -/
def runsTwice : List Turn :=
  [.outside { oneLaunch with
      net := { channels := [{ dialect := .sequenced }] }
      debugger := { oneLaunch.debugger with sessions := [{ (default : Session) with language := "java" }] } },
    .begins (.insert 0), .step 0, .step 0, .step 0, .begins (.run 1), .begins (.run 1), .step 1, .step 1, .step 1,
    .step 2, .step 2, .step 2]

/-- Those turns, one after the other. -/
def runsTwiceSchedule (n : Nat) : Turn := runsTwice.getD n (.loop 0)

/-- The second run fails, and has changed nothing. -/
theorem one_target_per_session_runsTwice :
    Fresh oneLaunch ∧ ((play oneLaunch runsTwiceSchedule 13).world.debugger.targets.map (·.session)) = [0] ∧
      ∃ e : Fault, e.kind = "SessionStateError" ∧
        (∀ m, 12 < m → (play oneLaunch runsTwiceSchedule m).calls[2]? = some (.run 1, .done (.error e))) ∧
        ∀ m, runsTwiceSchedule m = .step 2 →
          (play oneLaunch runsTwiceSchedule (m + 1)).world = (play oneLaunch runsTwiceSchedule m).world := by
  have hfresh : Fresh oneLaunch := ⟨rfl, rfl, rfl, by decide⟩
  obtain ⟨-, hrefused⟩ := one_target_per_session hfresh runsTwiceSchedule
  refine ⟨hfresh, by decide +kernel, ?_⟩
  exact hrefused 12 2 1 { (default : Launch) with id := 1, language := "java" } none 0 rfl rfl rfl rfl rfl

end Scene

end Debug.Running

end Switchboard
