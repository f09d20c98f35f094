import Switchboard.Proofs.Debug.Occupancy

/-!
# Sessions that are gone leave nothing behind

* `Scene.WillEnd`, `Scene.WillForget`: what the event loop of a session will do when the channel is closed;
* `Scene.Duty`: it will do so, or somebody has yet to serve the session;
* `Scene.Attended`: this holds of every live target and of every entry of the table;
* `Scene.Quiet`: no call is running, and every event loop waits for an event or has come to its end;
* `nothing_left_behind`: whatever happened before, when it is quiet the targets of closed sessions have ended and no
  closed session is in the table.

The duty goes with the session: an insertion owes it to the session to serve it, and then its event loop looks for a
live target when the channel is closed, ends it, and takes the session out of the table.
-/

namespace Switchboard.Debug.Running.Scene

open World (Spares Keeps)

/-! ## Duties -/

/-- Does somebody take up the events of the session? -/
def served (w : World) (x : SessionId) : Bool := (w.debugger.session x).served

/-- The channel of the session is closed. -/
def Gone (w : World) (x : SessionId) : Prop := (w.channel (w.debugger.session x).channel).phase = .closed

/-- The session has become the one of its language, and the call that inserts it has yet to serve it. -/
def Awaited (s : Scene) (x : SessionId) : Prop :=
  ∃ (i : Nat) (t : Task Wait World Unit), t.Within Spares ∧ s.calls[i]? = some (.insert x, t.andThen fun _ => serving x)

/-- The event loop will look for a live target when the channel is closed, or has found this one and will end it. -/
def WillEnd (x : SessionId) (id : Nat) : Activity.Loop → Prop
  | .idle => True
  | .busy _ => True
  | .ending work => work = sessionClosed x ∨ work = marking x id
  | .ended => False

/-- The event loop will take the session out of the table when the channel is closed. -/
def WillForget (x : SessionId) : Activity.Loop → Prop
  | .idle => True
  | .busy _ => True
  | .ending work => work = sessionClosed x ∨ (∃ id, work = marking x id) ∨ work = .wait .table (forgetting x) ∨
      work = forgetting x
  | .ended => False

/-- The session has yet to be served, or it is and its event loop will do something. -/
def Duty (s : Scene) (x : SessionId) (will : Activity.Loop → Prop) : Prop :=
  Awaited s x ∨ served s.world x = true ∧ will (s.loops x)

/-- Every live target and every entry of the table is somebody's duty. -/
structure Attended (s : Scene) : Prop where
  targets : ∀ t ∈ s.world.debugger.targets, t.isTerminated = false →
    Duty s t.session (WillEnd t.session t.id)
  table : ∀ e ∈ s.world.debugger.current, Duty s e.2 (WillForget e.2)
  /-- Only the event loop of a session that is gone comes to its end. -/
  gone : ∀ x, s.loops x ≠ .idle → (∀ work, s.loops x ≠ .busy work) → Gone s.world x
  /-- Only the event loop of a session that is served has begun. -/
  begun : ∀ x, served s.world x = false → s.loops x = .idle
  /-- An insertion that is not done has yet to serve its session. -/
  owed : ∀ (i : Nat) (x : SessionId) (work : Task Wait World (Except Fault Unit)),
    s.calls[i]? = some (.insert x, work) → (∀ r, work ≠ .done r) → served s.world x = false
  once : ∀ (i j : Nat) (x : SessionId) (work work' : Task Wait World (Except Fault Unit)),
    s.calls[i]? = some (.insert x, work) → s.calls[j]? = some (.insert x, work') → i = j

namespace Attended

variable {s : Scene} (h : Attended s)
include h

/-- The event loop of an open session will look for a live target when the channel is closed. -/
lemma willEnd_of_open {x : SessionId} {id : Nat} (hopen : s.world.isSessionOpen x = true) :
    WillEnd x id (s.loops x) := by
  have hgone : ¬ Gone s.world x := by simpa [World.isSessionOpen, Channel.isOpen, Gone] using hopen
  cases hloop : s.loops x with
  | idle => exact trivial
  | busy work => exact trivial
  | ending work => exact absurd (h.gone x (by simp [hloop]) (by simp [hloop])) hgone
  | ended => exact absurd (h.gone x (by simp [hloop]) (by simp [hloop])) hgone

end Attended

/-! ## Worlds that go on -/

/-- Sessions that were there keep their channels and go on to be served, and closed channels stay closed. -/
structure Follows (w w' : World) : Prop where
  ages : Network.Ages w.net w'.net
  channel : ∀ x < w.debugger.sessions.length, (w'.debugger.session x).channel = (w.debugger.session x).channel
  served : ∀ x, served w x = true → served w' x = true

/-- Sessions that are served are there. -/
lemma lt_length_of_served {w : World} {x : SessionId} (h : served w x = true) : x < w.debugger.sessions.length := by
  by_contra hge
  have hdefault : w.debugger.session x = default := by
    simp [Debugger.session, List.getD, Nat.not_lt.mp hge]
  rw [served, hdefault] at h
  cases h

namespace Follows

variable {w w' : World}

lemma of_keeps (h : Keeps w w') : Follows w w' where
  ages := h.ages
  channel x _ := by rw [Debugger.session, h.sessions]; rfl
  served x hx := by
    rw [Scene.served, Debugger.session, h.sessions]
    exact hx

/-- Sessions come. -/
lemma of_append {more : List Session} (hages : Network.Ages w.net w'.net)
    (hsessions : w'.debugger.sessions = w.debugger.sessions ++ more) : Follows w w' := by
  have hsame : ∀ x < w.debugger.sessions.length, w'.debugger.session x = w.debugger.session x := by
    intro x hx
    rw [Debugger.session, hsessions, Debugger.session_append hx]
    rfl
  refine ⟨hages, fun x hx => by rw [hsame x hx], ?_⟩
  intro x hx
  rw [Scene.served, hsame x (lt_length_of_served hx)]
  exact hx

lemma gone (h : Follows w w') {x : SessionId} (hx : x < w.debugger.sessions.length) (hgone : Gone w x) : Gone w' x := by
  rw [Gone, h.channel x hx]
  exact h.ages _ hgone

/-- Who is not served was not served before. -/
lemma served_eq_false (h : Follows w w') {x : SessionId} (hx : Scene.served w' x = false) : Scene.served w x = false := by
  cases hserved : Scene.served w x with
  | false => rfl
  | true => exact nomatch (h.served x hserved).symm.trans hx

end Follows

/-! ## Calls -/

lemma andThen_serving_ne_done (t : Task Wait World Unit) (x : SessionId) (r : Except Fault Unit) :
    (t.andThen fun _ => serving x) ≠ .done r := by
  cases t with
  | done a => exact nofun
  | access f next => exact nofun
  | wait on next => exact nofun

/-- A session that is waited for is not served yet. -/
lemma Awaited.served_eq_false {s : Scene} (h : Attended s) {x : SessionId} (hawaited : Awaited s x) :
    served s.world x = false := by
  obtain ⟨i, t, -, hi⟩ := hawaited
  exact h.owed i x _ hi (andThen_serving_ne_done t x)

lemma served_serveIn {w : World} {x : SessionId} (hx : x < w.debugger.sessions.length) (y : SessionId) :
    served (serveIn x w) y = if y = x then true else served w y := by
  show ((w.debugger.sessions.modify x _).getD y default).served = _
  by_cases hyx : y = x
  · subst hyx
    rw [if_pos rfl]
    simp [List.getD, hx]
  · have hxy : ¬ x = y := fun h => hyx h.symm
    rw [if_neg hyx]
    simp [List.getD, hxy, served, Debugger.session]

/-- A call that makes a step still owes it to its session to serve it, or has served it just now. -/
lemma awaited_of_step {s : Scene} {i : Nat} {call : Call} {work work' : Task Wait World (Except Fault Unit)} {w' : World}
    (hi : s.calls[i]? = some (call, work)) (htick : work.tick? World.holds s.world = some (work', w')) {x : SessionId}
    (hawaited : Awaited s x) :
    Awaited { s with world := w', calls := s.calls.set i (call, work') } x ∨ w' = serveIn x s.world := by
  obtain ⟨j, t, ht, hj⟩ := hawaited
  by_cases hij : i = j
  · subst hij
    rw [hi] at hj
    obtain ⟨rfl, rfl⟩ := Prod.mk.inj (Option.some.inj hj)
    rcases tick?_andThen_cases ht htick with ⟨a, -, hserving⟩ | ⟨t', rfl, hwithin, -⟩
    · obtain ⟨-, rfl⟩ := Prod.mk.inj (Option.some.inj hserving)
      exact .inr rfl
    · exact .inl ⟨i, t', hwithin, List.getElem?_set_self (List.getElem?_eq_some_iff.mp hi).1⟩
  · refine .inl ⟨j, t, ht, ?_⟩
    rw [← hj]
    exact List.getElem?_set_ne hij

/-- A duty stays when a call makes a step. -/
lemma Duty.of_step {s : Scene} (h : Attended s) {i : Nat} {call : Call}
    {work work' : Task Wait World (Except Fault Unit)} {w' : World} (hi : s.calls[i]? = some (call, work))
    (htick : work.tick? World.holds s.world = some (work', w')) (hfollows : Follows s.world w') {x : SessionId}
    (hx : x < s.world.debugger.sessions.length) {will : Activity.Loop → Prop} (hidle : will .idle)
    (hduty : Duty s x will) : Duty { s with world := w', calls := s.calls.set i (call, work') } x will := by
  rcases hduty with hawaited | ⟨hserved, hwill⟩
  · rcases awaited_of_step hi htick hawaited with hstill | hserves
    · exact .inl hstill
    · -- the event loop of a session that is served from now on is idle
      refine .inr ⟨?_, ?_⟩
      · show served w' x = true
        rw [hserves, served_serveIn hx, if_pos rfl]
      · show will (s.loops x)
        rw [h.begun x (hawaited.served_eq_false h)]
        exact hidle
  · exact .inr ⟨hfollows.served x hserved, hwill⟩

/-- Every call is the same one after one of them has made a step. -/
lemma exists_before_set {s : Scene} {i : Nat} {call : Call} {work work' : Task Wait World (Except Fault Unit)}
    (hi : s.calls[i]? = some (call, work)) {j : Nat} {other : Call} {left : Task Wait World (Except Fault Unit)}
    (hj : (s.calls.set i (call, work'))[j]? = some (other, left)) :
    (j = i ∧ other = call ∧ left = work') ∨ j ≠ i ∧ s.calls[j]? = some (other, left) := by
  by_cases hji : j = i
  · subst hji
    rw [List.getElem?_set_self (List.getElem?_eq_some_iff.mp hi).1] at hj
    obtain ⟨rfl, rfl⟩ := Prod.mk.inj (Option.some.inj hj)
    exact .inl ⟨rfl, rfl, rfl⟩
  · rw [List.getElem?_set_ne fun h => hji h.symm] at hj
    exact .inr ⟨hji, hj⟩

/-! ## Steps of calls -/

/-- The events of an adapter that was started are taken up from the beginning. -/
lemma served_of_started {w w' : World} {language : String} (h : World.Started w language w') :
    served w' w.debugger.sessions.length = true := by
  obtain ⟨session, -, hserved, -, hdebugger⟩ := h.debugger
  have hsessions : w'.debugger.sessions = w.debugger.sessions ++ [session] := by
    rw [hdebugger, Debugger.setCurrent_sessions]
    rfl
  have hnew : w'.debugger.session w.debugger.sessions.length = session := by
    simp [Debugger.session, hsessions, List.getD]
  rw [served, hnew]
  exact hserved

/-- Who is not there is not served. -/
lemma served_length (w : World) : served w w.debugger.sessions.length = false := by
  by_contra hnot
  have hlt := lt_length_of_served (w := w) (x := w.debugger.sessions.length) (by simpa using hnot)
  exact Nat.lt_irrefl _ hlt

section Moves

variable {call : Call} {work work' : Task Wait World (Except Fault Unit)} {w w' : World}

/-- Sessions go on when a call makes a step, and at most the one that it inserts is served from then on. -/
lemma Move.follows (hmove : Move call work w work' w') (h : w.debugger.Coherent)
    (hattached : ∀ x, call = .insert x → x < w.debugger.sessions.length) :
    Follows w w' ∧ ∀ y < w.debugger.sessions.length,
      served w' y = served w y ∨ call = .insert y ∧ ∃ r, work' = .done r := by
  have happend : ∀ more, Network.Ages w.net w'.net → w'.debugger.sessions = w.debugger.sessions ++ more →
      Follows w w' ∧ ∀ y < w.debugger.sessions.length,
        served w' y = served w y ∨ call = .insert y ∧ ∃ r, work' = .done r := by
    intro more hages hsessions
    refine ⟨.of_append hages hsessions, ?_⟩
    intro y hy
    left
    rw [served, Debugger.session, hsessions, Debugger.session_append hy]
    rfl
  cases hmove with
  | spares spares =>
    have hkeeps := spares h.toNumbered
    exact happend [] hkeeps.ages (by rw [hkeeps.sessions, List.append_nil])
  | claims k launch root run turn world =>
    have hclaimed := w.claimed launch root
    rw [world] at happend ⊢
    generalize w.claim launch root = r at hclaimed happend
    cases hclaimed with
    | refused e => exact happend [] (.refl _) (List.append_nil _).symm
    | joins x entry isOpen free => exact happend [] (.refl _) (List.append_nil _).symm
    | starts w' started =>
      obtain ⟨session, -, -, -, hdebugger⟩ := started.debugger
      refine happend [session] started.ages ?_
      show w'.debugger.sessions = _
      rw [hdebugger, Debugger.setCurrent_sessions]
      rfl
  | enters x insert world owes =>
    refine happend [] ?_ ?_
    · rw [world]
      exact .refl _
    · rw [world, List.append_nil]
      exact Debugger.setCurrent_sessions ..
  | serves x insert world last =>
    have hserved := served_serveIn (hattached x insert)
    rw [world]
    refine ⟨⟨.refl _, ?_, ?_⟩, ?_⟩
    · intro y hy
      show ((w.debugger.sessions.modify x _).getD y default).channel = (w.debugger.sessions.getD y default).channel
      simp only [List.getD, List.getElem?_modify]
      rw [List.getElem?_eq_getElem hy]
      split <;> rfl
    · intro y hy
      rw [hserved]
      split
      · rfl
      · exact hy
    · intro y _
      by_cases hyx : y = x
      · subst hyx
        exact .inr ⟨insert, last⟩
      · exact .inl (by rw [hserved, if_neg hyx])

/-- Where a live target comes from when a call makes a step: it was there before, or it is claimed on a session that is
open and in the table, or on a new one that is served. -/
lemma Move.target_origin (hmove : Move call work w work' w') (h : w.debugger.Coherent) {t : Target}
    (ht : t ∈ w'.debugger.targets) (hlive : t.isTerminated = false) :
    (∃ old ∈ w.debugger.targets, old.isTerminated = false ∧ old.id = t.id ∧ old.session = t.session) ∨
      (∃ e ∈ w.debugger.current, e.2 = t.session ∧ w.isSessionOpen t.session = true) ∨
      t.session = w.debugger.sessions.length ∧ served w' t.session = true := by
  cases hmove with
  | spares spares =>
    obtain ⟨old, hold, hsucceeds⟩ := (spares h.toNumbered).exists_before ht
    refine .inl ⟨old, hold, ?_, hsucceeds.id.symm, hsucceeds.session.symm⟩
    cases hended : old.isTerminated with
    | false => rfl
    | true => exact nomatch (hsucceeds.ended hended).symm.trans hlive
  | claims k launch root run turn world =>
    have hclaimed := w.claimed launch root
    rw [world] at ht ⊢
    generalize w.claim launch root = r at hclaimed ht
    cases hclaimed with
    | refused e => exact .inl ⟨t, ht, hlive, rfl, rfl⟩
    | joins x entry isOpen free =>
      rcases List.mem_append.mp ht with ht | ht
      · exact .inl ⟨t, ht, hlive, rfl, rfl⟩
      · obtain rfl := List.mem_singleton.mp ht
        exact .inr (.inl ⟨_, entry, rfl, isOpen⟩)
    | starts w' started =>
      obtain ⟨-, htargets, -⟩ := World.coherent_started h started
      rcases List.mem_append.mp ht with ht | ht
      · rw [htargets] at ht
        exact .inl ⟨t, ht, hlive, rfl, rfl⟩
      · obtain rfl := List.mem_singleton.mp ht
        have hserved : served w' w.debugger.sessions.length = true := served_of_started started
        exact .inr (.inr ⟨rfl, hserved⟩)
  | enters x insert world owes =>
    rw [world] at ht
    have htargets := w.debugger.setCurrent_targets (w.debugger.session x).language x
    exact .inl ⟨t, htargets ▸ ht, hlive, rfl, rfl⟩
  | serves x insert world last =>
    rw [world] at ht
    exact .inl ⟨t, ht, hlive, rfl, rfl⟩

/-- Where an entry of the table comes from when a call makes a step: it was there before, or its session is new and
served, or the call inserts it and has yet to serve it. -/
lemma Move.entry_origin (hmove : Move call work w work' w') (h : w.debugger.Numbered) {e : String × SessionId}
    (he : e ∈ w'.debugger.current) :
    e ∈ w.debugger.current ∨ (e.2 = w.debugger.sessions.length ∧ served w' e.2 = true) ∨
      call = .insert e.2 ∧ ∃ t : Task Wait World Unit, t.Within Spares ∧ work' = t.andThen fun _ => serving e.2 := by
  cases hmove with
  | spares spares => exact .inl ((spares h).current e he)
  | claims k launch root run turn world =>
    have hclaimed := w.claimed launch root
    rw [world] at he ⊢
    generalize w.claim launch root = r at hclaimed he
    cases hclaimed with
    | refused _ => exact .inl he
    | joins x entry isOpen free => exact .inl he
    | starts w' started =>
      obtain ⟨session, -, -, -, hdebugger⟩ := started.debugger
      have hentry : e ∈ w'.debugger.current := he
      rw [hdebugger] at hentry
      rcases Debugger.mem_current_setCurrent hentry with rfl | hold
      · have hserved : served w' w.debugger.sessions.length = true := served_of_started started
        exact .inr (.inl ⟨rfl, hserved⟩)
      · exact .inl hold
  | enters x insert world owes =>
    rw [world] at he
    rcases Debugger.mem_current_setCurrent he with rfl | hold
    · exact .inr (.inr ⟨insert, owes⟩)
    · exact .inl hold
  | serves x insert world last =>
    rw [world] at he
    exact .inl he

end Moves

/-- Every duty is somebody's after a step of a call. -/
lemma attended_of_move {s : Scene} (h : Attended s) (hassembled : Assembled s) {i : Nat} {call : Call}
    {work work' : Task Wait World (Except Fault Unit)} {w' : World} (hi : s.calls[i]? = some (call, work))
    (htick : work.tick? World.holds s.world = some (work', w')) (hmove : Move call work s.world work' w') :
    Attended { s with world := w', calls := s.calls.set i (call, work') } := by
  have hcoherent := hassembled.coherent
  have hattached : ∀ x, call = .insert x → x < s.world.debugger.sessions.length := by
    intro x hx
    rw [hx] at hi
    exact hassembled.attached i x work hi
  obtain ⟨hfollows, hsame⟩ := hmove.follows hcoherent hattached
  have hwork : ∀ r, work ≠ .done r := by
    intro r hr
    rw [hr] at htick
    cases htick
  have hidle : s.loops s.world.debugger.sessions.length = .idle := h.begun _ (served_length s.world)
  refine ⟨?_, ?_, ?_, ?_, ?_, ?_⟩
  · intro t ht hlive
    rcases hmove.target_origin hcoherent ht hlive with
      ⟨old, hold, holdlive, hid, hsession⟩ | ⟨e, he, hsession, hopen⟩ | ⟨hsession, hserved⟩
    · rw [← hid, ← hsession]
      exact (h.targets old hold holdlive).of_step h hi htick hfollows (hcoherent.placed old hold) trivial
    · -- the event loop of an open session has not begun to end it
      have hduty : Duty s t.session (WillEnd t.session t.id) := by
        refine (hsession ▸ h.table e he : Duty s t.session (WillForget t.session)).imp_right ?_
        exact fun hserves => ⟨hserves.1, h.willEnd_of_open hopen⟩
      exact hduty.of_step h hi htick hfollows (hsession ▸ (hcoherent.table e he).1) trivial
    · refine .inr ⟨hserved, ?_⟩
      show WillEnd _ _ (s.loops t.session)
      rw [hsession, hidle]
      exact trivial
  · intro e he
    rcases hmove.entry_origin hcoherent.toNumbered he with hold | ⟨hsession, hserved⟩ | ⟨hinsert, t, ht, howes⟩
    · exact (h.table e hold).of_step h hi htick hfollows (hcoherent.table e hold).1 trivial
    · refine .inr ⟨hserved, ?_⟩
      show WillForget _ (s.loops e.2)
      rw [hsession, hidle]
      exact trivial
    · refine .inl ⟨i, t, ht, ?_⟩
      show (s.calls.set i (call, work'))[i]? = _
      rw [List.getElem?_set_self (List.getElem?_eq_some_iff.mp hi).1, hinsert, howes]
  · intro x hidle hbusy
    have hserved : served s.world x = true := by
      by_contra hnot
      exact hidle (h.begun x (by simpa using hnot))
    exact hfollows.gone (lt_length_of_served hserved) (h.gone x hidle hbusy)
  · intro x hx
    exact h.begun x (hfollows.served_eq_false hx)
  · intro j y left hj hleft
    have hbefore : y < s.world.debugger.sessions.length ∧ served s.world y = false := by
      rcases exists_before_set hi hj with ⟨rfl, rfl, rfl⟩ | ⟨hji, hj⟩
      · exact ⟨hattached y rfl, h.owed j y work hi hwork⟩
      · exact ⟨hassembled.attached j y left hj, h.owed j y left hj hleft⟩
    rcases hsame y hbefore.1 with heq | ⟨hinsert, r, hdone⟩
    · show served w' y = false
      rw [heq]
      exact hbefore.2
    · -- it is the only call that inserts this session, and it is done
      rcases exists_before_set hi hj with ⟨-, -, rfl⟩ | ⟨hji, hj⟩
      · exact absurd hdone (hleft r)
      · rw [hinsert] at hi
        exact absurd (h.once j i y left work hj hi) hji
  · intro j j' x left left' hj hj'
    have hcall : ∀ (j : Nat) (left : Task Wait World (Except Fault Unit)), (s.calls.set i (call, work'))[j]? = some (Call.insert x, left) →
        ∃ left : Task Wait World (Except Fault Unit), s.calls[j]? = some (Call.insert x, left) := by
      intro j left hj
      rcases exists_before_set hi hj with ⟨rfl, rfl, -⟩ | ⟨-, hj⟩
      · exact ⟨work, hi⟩
      · exact ⟨left, hj⟩
    obtain ⟨a, ha⟩ := hcall j left hj
    obtain ⟨b, hb⟩ := hcall j' left' hj'
    exact h.once j j' x a b ha hb

/-! ## Turns of event loops -/

section Loops

variable {s : Scene} {x : SessionId} {l : Activity.Loop} {w' : World}

/-- What everybody owes when an event loop has come to something else. -/
lemma attended_putLoop (h : Attended s) (hkeeps : Keeps s.world w') (hserved : served s.world x = true)
    (htargets : ∀ t ∈ s.world.debugger.targets, ∀ u ∈ w'.debugger.targets, t.Succeeds u → u.isTerminated = false →
      t.session = x → WillEnd x t.id (s.loops x) → WillEnd x t.id l)
    (htable : ∀ e ∈ w'.debugger.current, e.2 = x → WillForget x (s.loops x) → WillForget x l)
    (hgone : l ≠ .idle → (∀ work, l ≠ .busy work) → Gone s.world x) :
    Attended ({ s with world := w' }.putLoop x l) := by
  have hfollows : Follows s.world w' := .of_keeps hkeeps
  have hsame : ∀ y, served w' y = served s.world y := by
    intro y
    rw [served, Debugger.session, hkeeps.sessions]
    rfl
  have hduty : ∀ (y : SessionId) (will : Activity.Loop → Prop), Duty s y will → (y = x → will (s.loops x) → will l) →
      Duty ({ s with world := w' }.putLoop x l) y will := by
    intro y will hduty hl
    rcases hduty with hawaited | ⟨hy, hwill⟩
    · exact .inl hawaited
    · refine .inr ⟨hfollows.served y hy, ?_⟩
      rw [loops_putLoop]
      split
      · next hyx => exact hl hyx (hyx ▸ hwill)
      · exact hwill
  refine ⟨?_, ?_, ?_, ?_, ?_, h.once⟩
  · intro u hu hlive
    obtain ⟨t, ht, hsucceeds⟩ := hkeeps.exists_before hu
    have hbefore : t.isTerminated = false := by
      cases hended : t.isTerminated with
      | false => rfl
      | true =>
        rw [hsucceeds.ended hended] at hlive
        cases hlive
    rw [hsucceeds.id, hsucceeds.session]
    refine hduty _ _ (h.targets t ht hbefore) ?_
    rintro rfl
    exact htargets t ht u hu hsucceeds hlive rfl
  · intro e he
    refine hduty _ _ (h.table e (hkeeps.current e he)) ?_
    rintro rfl
    exact htable e he rfl
  · intro y hidle hbusy
    have hgoneBefore : served s.world y = true ∧ Gone s.world y := by
      simp only [loops_putLoop] at hidle hbusy
      split at hidle
      · next hyx =>
        subst hyx
        simp only [if_true] at hbusy
        exact ⟨hserved, hgone hidle hbusy⟩
      · next hyx =>
        simp only [hyx, if_false] at hbusy
        refine ⟨?_, h.gone y hidle hbusy⟩
        by_contra hnot
        exact hidle (h.begun y (by simpa using hnot))
    exact hfollows.gone (lt_length_of_served hgoneBefore.1) hgoneBefore.2
  · intro y hy
    have hbefore : served s.world y = false := (hsame y).symm.trans hy
    have hyx : y ≠ x := by
      rintro rfl
      rw [hserved] at hbefore
      cases hbefore
    rw [loops_putLoop, if_neg hyx]
    exact h.begun y hbefore
  · intro i y work hi hwork
    exact (hsame y).trans (h.owed i y work hi hwork)

/-- A target that is ended has ended. -/
lemma isTerminated_of_terminate {w : World} (hnum : w.debugger.Numbered) {t u : Target} (ht : t ∈ w.debugger.targets)
    (hu : u ∈ (w.changeTarget t.id Target.terminate).debugger.targets) (hid : u.id = t.id) : u.isTerminated = true := by
  have htarget : w.target t.id = t := hnum.target_eq ht
  have hnew : (t.terminate).1.isTerminated = true := by
    unfold Target.terminate
    split
    · next hended => exact hended
    · rfl
  replace hu : u ∈ w.debugger.targets.map fun x =>
    if x.id = ((w.target t.id).terminate).1.id then ((w.target t.id).terminate).1 else x := hu
  rw [htarget] at hu
  obtain ⟨old, -, heq⟩ := List.mem_map.mp hu
  split at heq
  · rw [← heq]
    exact hnew
  · next hother =>
    rw [heq, hid, (Target.onward_terminate t).id] at hother
    exact absurd rfl hother

/-- The duties stay when a session that is gone is ended by one more step. -/
lemma attended_of_leaves (h : Attended s) (hassembled : Assembled s) {work work' : Task Wait World Unit}
    (hserved : served s.world x = true) (hbefore : s.loops x = .ending work)
    (htick : work.tick? World.holds s.world = some (work', w')) (hkeeps : Keeps s.world w') :
    Attended ({ s with world := w' }.putLoop x (.ending work')) := by
  have hcoherent := hassembled.coherent
  have hgone : Gone s.world x := h.gone x (by simp [hbefore]) (by simp [hbefore])
  refine attended_putLoop h hkeeps hserved ?_ ?_ fun _ _ => hgone
  · intro t ht u hu hsucceeds hlive hx hwill
    rw [hbefore] at hwill
    have htlive : t.isTerminated = false := by
      cases hended : t.isTerminated with
      | false => rfl
      | true => exact nomatch (hsucceeds.ended hended).symm.trans hlive
    rcases hwill with rfl | rfl
    · -- the live target on the session is looked for, and there is only one
      rw [sessionClosed_eq] at htick
      obtain ⟨rfl, rfl⟩ := Prod.mk.inj (Option.some.inj htick)
      right
      cases hfound : s.world.debugger.liveTarget? x with
      | none =>
        have hended := Debugger.isTerminated_of_liveTarget?_eq_none hfound ht hx
        exact nomatch hended.symm.trans htlive
      | some found =>
        obtain ⟨hmem, hsession, hfoundLive⟩ := Debugger.of_liveTarget?_eq_some hfound
        rw [hcoherent.single t ht found hmem htlive hfoundLive (hx.trans hsession.symm)]
        show leaving x (s.world.debugger.liveTarget? x) = _
        rw [hfound]
        rfl
    · -- it has ended now
      obtain ⟨rfl, rfl⟩ := Prod.mk.inj (Option.some.inj htick)
      have hended := isTerminated_of_terminate hcoherent.toNumbered ht hu hsucceeds.id
      exact nomatch hended.symm.trans hlive
  · intro e he hx hwill
    rw [hbefore] at hwill
    rcases hwill with rfl | ⟨id, rfl⟩ | rfl | rfl
    · rw [sessionClosed_eq] at htick
      obtain ⟨rfl, rfl⟩ := Prod.mk.inj (Option.some.inj htick)
      show WillForget x (.ending (leaving x (s.world.debugger.liveTarget? x)))
      cases s.world.debugger.liveTarget? x with
      | none => exact .inr (.inr (.inl rfl))
      | some found => exact .inr (.inl ⟨found.id, rfl⟩)
    · obtain ⟨rfl, rfl⟩ := Prod.mk.inj (Option.some.inj htick)
      exact .inr (.inr (.inl rfl))
    · obtain ⟨rfl, rfl⟩ := Prod.mk.inj (Option.some.inj htick)
      exact .inr (.inr (.inr rfl))
    · -- the session is out of the table now
      obtain ⟨rfl, rfl⟩ := Prod.mk.inj (Option.some.inj htick)
      obtain ⟨hold, hother⟩ := List.mem_filter.mp he
      have hentry : e = ((s.world.debugger.session x).language, x) := by
        rw [← hx, (hcoherent.table e hold).2]
      simp [hentry] at hother

end Loops

/-! ## Runs -/

/-- A call comes. -/
lemma attended_of_begins {s : Scene} (h : Attended s) {call : Call} (hadmitted : s.admits call = true) :
    Attended { s with calls := s.calls ++ [(call, call.work.outcome)] } := by
  have hduty : ∀ (y : SessionId) (will : Activity.Loop → Prop), Duty s y will →
      Duty { s with calls := s.calls ++ [(call, call.work.outcome)] } y will := by
    intro y will hduty
    refine hduty.imp_left ?_
    intro ⟨i, t, ht, hi⟩
    refine ⟨i, t, ht, ?_⟩
    rw [List.getElem?_append_left (List.getElem?_eq_some_iff.mp hi).1]
    exact hi
  have hcalls : ∀ {i : Nat} {c : Call × Task Wait World (Except Fault Unit)},
      (s.calls ++ [(call, call.work.outcome)])[i]? = some c →
      s.calls[i]? = some c ∨ i = s.calls.length ∧ c.1 = call := by
    intro i c hi
    by_cases hlt : i < s.calls.length
    · rw [List.getElem?_append_left hlt] at hi
      exact .inl hi
    · right
      have hle := (List.getElem?_eq_some_iff.mp hi).1
      rw [List.length_append, List.length_singleton] at hle
      have hlast : i = s.calls.length := by omega
      rw [hlast, List.getElem?_concat_length] at hi
      exact ⟨hlast, congrArg Prod.fst (Option.some.inj hi).symm⟩
  refine ⟨fun t ht hlive => hduty _ _ (h.targets t ht hlive), fun e he => hduty _ _ (h.table e he), h.gone, h.begun,
    ?_, ?_⟩
  · intro i x work hi hwork
    rcases hcalls hi with hold | ⟨-, hnew⟩
    · exact h.owed i x work hold hwork
    · obtain rfl : call = .insert x := hnew.symm
      simp only [admits, Bool.and_eq_true, Bool.not_eq_true'] at hadmitted
      exact hadmitted.1.2
  · -- whoever is inserted already is not admitted again
    have hfirst : ∀ (i : Nat) (x : SessionId) (work : Task Wait World (Except Fault Unit)),
        s.calls[i]? = some (.insert x, work) → call ≠ .insert x := by
      intro i x work hi hcall
      rw [hcall] at hadmitted
      simp only [admits, Bool.and_eq_true, List.all_eq_true] at hadmitted
      have hother := hadmitted.2 _ (List.mem_of_getElem? hi)
      simp [Call.inserts?] at hother
    intro i j x work work' hi hj
    rcases hcalls hi with hi | ⟨rfl, hnew⟩
    · rcases hcalls hj with hj | ⟨-, hnew⟩
      · exact h.once i j x work work' hi hj
      · exact absurd hnew.symm (hfirst i x work hi)
    · rcases hcalls hj with hj | ⟨rfl, -⟩
      · exact absurd hnew.symm (hfirst j x work' hj)
      · rfl

/-- Anything else changes. -/
lemma attended_of_outside {s : Scene} (h : Attended s) (hassembled : Assembled s) (new : World) :
    Attended { s with world := around s.world new } := by
  have hfollows : Follows s.world (around s.world new) := .of_append (Network.ages_sealed s.world.net new.net) rfl
  have hduty : ∀ (y : SessionId) (will : Activity.Loop → Prop), Duty s y will →
      Duty { s with world := around s.world new } y will := by
    intro y will hduty
    exact hduty.imp_right fun hserves => ⟨hfollows.served y hserves.1, hserves.2⟩
  refine ⟨fun t ht hlive => hduty _ _ (h.targets t ht hlive), fun e he => hduty _ _ (h.table e he), ?_, ?_, ?_, h.once⟩
  · intro x hidle hbusy
    have hserved : served s.world x = true := by
      by_contra hnot
      exact hidle (h.begun x (by simpa using hnot))
    exact hfollows.gone (lt_length_of_served hserved) (h.gone x hidle hbusy)
  · intro x hx
    exact h.begun x (hfollows.served_eq_false hx)
  · intro i x work hi hwork
    have hsame : (around s.world new).debugger.session x = s.world.debugger.session x :=
      Debugger.session_append (hassembled.attached i x work hi)
    show served (around s.world new) x = false
    rw [served, hsame]
    exact h.owed i x work hi hwork

/-- Whatever happens, every duty is somebody's. -/
lemma attended_of_happens {s s' : Scene} (h : Attended s) (hassembled : Assembled s) (hhappens : Happens s s') :
    Attended s' := by
  have hnum := hassembled.coherent.toNumbered
  cases hhappens with
  | still same =>
    rw [same]
    exact h
  | begins call admitted eq =>
    rw [eq]
    exact attended_of_begins h admitted
  | moves i call work work' w' underway tick stage move eq =>
    rw [eq]
    exact attended_of_move h hassembled underway tick move
  | works x work w' served before spares within eq =>
    rw [eq]
    refine attended_putLoop h (spares hnum) served ?_ ?_ ?_
    · exact fun _ _ _ _ _ _ _ _ => trivial
    · exact fun _ _ _ _ => trivial
    · exact fun _ hbusy => absurd rfl (hbusy work)
  | rests x served before eq =>
    rw [eq]
    refine attended_putLoop h (.refl s.world) served ?_ ?_ ?_
    · exact fun _ _ _ _ _ _ _ _ => trivial
    · exact fun _ _ _ _ => trivial
    · exact fun hidle => absurd rfl hidle
  | closes x served before closed eq =>
    rw [eq]
    refine attended_putLoop h (.refl s.world) served ?_ ?_ fun _ _ => closed
    · exact fun _ _ _ _ _ _ _ _ => .inl rfl
    · exact fun _ _ _ _ => .inl rfl
  | leaves x work work' w' served before tick spares within eq =>
    rw [eq]
    exact attended_of_leaves h hassembled served before tick (spares hnum)
  | ends x served r before eq =>
    rw [eq]
    refine attended_putLoop h (.refl s.world) served ?_ ?_ ?_
    · intro _ _ _ _ _ _ _ hwill
      rw [before] at hwill
      rcases hwill with hdone | hdone
      · cases hdone
      · cases hdone
    · intro _ _ _ hwill
      rw [before] at hwill
      rcases hwill with hdone | ⟨_, hdone⟩ | hdone | hdone
      · cases hdone
      · cases hdone
      · cases hdone
      · cases hdone
    · exact fun _ _ => h.gone x (by simp [before]) (by simp [before])
  | outside new eq =>
    rw [eq]
    exact attended_of_outside h hassembled new

/-- In a run every duty is somebody's. -/
theorem attended {start : World} (hfresh : Fresh start) (schedule : Nat → Turn) (n : Nat) :
    Attended (play start schedule n) := by
  induction n with
  | zero =>
    refine ⟨?_, ?_, fun x hidle => absurd rfl hidle, fun _ _ => rfl, nofun, nofun⟩
    · intro t ht
      exact absurd (hfresh.targets ▸ ht : t ∈ []) List.not_mem_nil
    · intro e he
      exact absurd (hfresh.current ▸ he : e ∈ []) List.not_mem_nil
  | succ n ih => exact attended_of_happens ih (assembled hfresh schedule n) (happens_play start schedule n)

/-- No call is running, and every event loop waits for an event on an open channel or has come to its end. -/
structure Quiet (s : Scene) : Prop where
  calls : ∀ c ∈ s.calls, ∃ r, c.2 = .done r
  loops : ∀ x, served s.world x = true →
    s.loops x = .ended ∨ s.loops x = .idle ∧ s.world.isSessionOpen x = true ∧
      (s.world.channel (s.world.debugger.session x).channel).takeHeard? = none

/-- When it is quiet nobody has a duty towards a session that is gone. -/
lemma Quiet.not_duty {s : Scene} (h : Quiet s) {x : SessionId} (hgone : Gone s.world x) {will : Activity.Loop → Prop}
    (hended : ¬ will .ended) : ¬ Duty s x will := by
  intro hduty
  rcases hduty with ⟨i, t, -, hi⟩ | ⟨hserved, hwill⟩
  · obtain ⟨r, hr⟩ := h.calls _ (List.mem_of_getElem? hi)
    exact andThen_serving_ne_done t x r hr
  · rcases h.loops x hserved with hloop | ⟨-, hopen, -⟩
    · rw [hloop] at hwill
      exact hended hwill
    · simp only [World.isSessionOpen, Channel.isOpen, decide_eq_true_eq] at hopen
      exact hopen hgone

/-- Whatever the order in which runs, insertions, events, ends of sessions and everything around them take their steps,
when no call is running and every event loop waits or has come to its end, the targets of closed sessions have ended and
no closed session is in the table. -/
theorem nothing_left_behind {start : World} (hfresh : Fresh start) (schedule : Nat → Turn) (n : Nat)
    (hquiet : Quiet (play start schedule n)) :
    (∀ t ∈ (play start schedule n).world.debugger.targets, Gone (play start schedule n).world t.session →
        t.state = .terminated) ∧
      ∀ e ∈ (play start schedule n).world.debugger.current, ¬ Gone (play start schedule n).world e.2 := by
  have hattended := attended hfresh schedule n
  refine ⟨?_, ?_⟩
  · intro t ht hgone
    cases hlive : t.isTerminated with
    | true => exact of_decide_eq_true hlive
    | false => exact absurd (hattended.targets t ht hlive) (hquiet.not_duty hgone id)
  · intro e he hgone
    exact hquiet.not_duty hgone id (hattended.table e he)

/-! ### An adapter that is gone too early -/

/-- An adapter is attached, its session inserted, and a run claims a target on it and asks the adapter to introduce
itself. Then the channel is closed, and the event loop of the session and the run come to their ends. -/
def diesEarly : List Turn :=
  [.outside { oneLaunch with
      net := { channels := [{ dialect := .sequenced }] }
      debugger := { oneLaunch.debugger with sessions := [{ (default : Session) with language := "java" }] } },
    .begins (.insert 0), .step 0, .step 0, .step 0, .begins (.run 1), .step 1, .step 1, .step 1, .step 1, .step 1,
    .outside { oneLaunch with net := { channels := [({ dialect := .sequenced } : Channel).markClosed] } },
    .loop 0, .loop 0, .loop 0, .loop 0, .loop 0, .loop 0, .step 1, .step 1, .step 1, .step 1]

/-- Those turns, one after the other. -/
def diesEarlySchedule (n : Nat) : Turn := diesEarly.getD n (.loop 0)

/-- In the end the session is gone, its target has ended and the table is empty. -/
theorem nothing_left_behind_diesEarly :
    Fresh oneLaunch ∧ Quiet (play oneLaunch diesEarlySchedule 22) ∧
      Gone (play oneLaunch diesEarlySchedule 22).world 0 ∧
      (play oneLaunch diesEarlySchedule 22).world.debugger.targets.map (·.session) = [0] ∧
      (∀ t ∈ (play oneLaunch diesEarlySchedule 22).world.debugger.targets,
        Gone (play oneLaunch diesEarlySchedule 22).world t.session → t.state = .terminated) ∧
      ∀ e ∈ (play oneLaunch diesEarlySchedule 22).world.debugger.current,
        ¬ Gone (play oneLaunch diesEarlySchedule 22).world e.2 := by
  have hfresh : Fresh oneLaunch := ⟨rfl, rfl, rfl, by decide⟩
  have hquiet : Quiet (play oneLaunch diesEarlySchedule 22) := by
    refine ⟨?_, ?_⟩
    · have hcalls : (play oneLaunch diesEarlySchedule 22).calls.length = 2 := by decide +kernel
      intro c hc
      obtain ⟨i, hi, rfl⟩ := List.mem_iff_getElem.mp hc
      match i, hcalls ▸ hi with
      | 0, _ => exact ⟨_, rfl⟩
      | 1, _ => exact ⟨_, rfl⟩
    · intro x hserved
      have hx := lt_length_of_served hserved
      have hlength : (play oneLaunch diesEarlySchedule 22).world.debugger.sessions.length = 1 := by decide +kernel
      obtain rfl : x = 0 := Nat.lt_one_iff.mp (hlength ▸ hx)
      exact .inl rfl
  refine ⟨hfresh, hquiet, rfl, by decide +kernel, ?_⟩
  exact nothing_left_behind hfresh diesEarlySchedule 22 hquiet

end Switchboard.Debug.Running.Scene
