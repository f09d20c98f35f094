import Switchboard.Proofs.Editor.Discretion

/-!
# The end of every session

* `Debug.Session.carries_quits_shutdown`: the shutdown of a debug session closes its channel;
* `Table`, `tabled`: the two tables of sessions, and the channels of the sessions in them;
* `Due`, `Owes`: what has yet to be closed, and the channels that are closed when nothing is due;
* `Pays`, `Sweeps`: an access closes what is due, or empties a table and takes over what was in it;
* `carries_endSessions`: to end every session is to empty both tables, in turn, and to close all that was in them;
* `Watched`, `Watched.sweeps`: where the session of a channel is to be found meanwhile, and that it stays so.

A debug session is due by its number, since its channel is looked up only when it is its turn. Sessions keep their channels.
-/

namespace Switchboard

open World (Discreet Onward)
open Network (Steady Quits)

lemma Network.Quits.endures {held held' : List ChannelId} {n n' : Network} (h : Quits held n held' n') :
    n.Endures n' := by
  cases h with
  | steady same => exact .of_steady same
  | closes c rest n => exact .update (fun _ _ => rfl) n

/-- The shutdown of a debug session closes its channel. -/
lemma Debug.Session.carries_quits_shutdown (s : Debug.Session) (rest : List ChannelId) :
    s.shutdown.Carries Quits (fun _ held => held = rest) (s.channel :: rest) := by
  have hlook : (Task.state : Task Wait Network Network).Carries Quits (fun _ held => held = s.channel :: rest)
      (s.channel :: rest) := fun n => ⟨_, .steady (.refl n), rfl⟩
  refine .andThen hlook ?_
  rintro n _ rfl
  have hclose := Network.carries_quits_shutdown s.channel rest
  split
  · refine .andThen (.of_within (W := Steady) (fun _ _ => .steady) (Network.within_steady_requestUntil _ _ _)) ?_
    rintro _ _ rfl
    exact hclose
  · exact hclose

namespace Task.Carries

variable {ω σ α γ δ : Type} {R : γ → σ → γ → σ → Prop} {Q : α → γ → Prop} {g : γ}

/-- What the work holds may be told in another way. -/
lemma image {e : γ → δ} {S : δ → σ → δ → σ → Prop} {t : Task ω σ α} (h : t.Carries R Q g)
    (hS : ∀ g s g' s', R g s g' s' → S (e g) s (e g') s') : t.Carries S (fun a d => ∃ g, d = e g ∧ Q a g) (e g) := by
  induction t generalizing g with
  | done a => exact ⟨g, rfl, h⟩
  | access f next ih =>
    intro s
    obtain ⟨g', hR, hnext⟩ := h s
    exact ⟨e g', hS _ _ _ _ hR, ih s hnext⟩
  | wait w next ih => exact ih h

end Task.Carries

/-! ## What is due -/

/-- A channel is there and closed. -/
def World.Shut (w : World) (c : ChannelId) : Prop := (w.net.channel c).phase = .closed

namespace Editor

/-- The tables of sessions: that of analysis, and that of the debugger. -/
inductive Table where
  | analysis
  | debugger

/-- How many tables are emptied before this one. -/
def Table.rank : Table → Nat
  | analysis => 0
  | debugger => 1

/-- The channels of the sessions in a table. -/
def tabled (w : World) : Table → List ChannelId
  | .analysis => (w.analysis.table.map fun x => (w.analysis.session x.2).channel).filter (· < w.net.channels.length)
  | .debugger =>
    (((w.debugger.current.map (·.2)).filter (· < w.debugger.sessions.length)).map fun s => (w.debugger.session s).channel)
      |>.filter (· < w.net.channels.length)

/-- What has yet to be closed. -/
inductive Due where
  | channel (c : ChannelId)
  | session (s : Debug.SessionId)

/-- The channel that is closed when this is done, if it is there. -/
def Due.IsOf (w : World) : Due → ChannelId → Prop
  | channel d, c => d = c ∧ c < w.net.channels.length
  | session s, c => s < w.debugger.sessions.length ∧ (w.debugger.session s).channel = c ∧ c < w.net.channels.length

/-- A channel is closed, or due. -/
def Owes (held : List Due) (w : World) (c : ChannelId) : Prop := (∃ d ∈ held, d.IsOf w c) ∨ w.Shut c

section Due

variable {w w' : World} {held : List Due} {c : ChannelId}

lemma Due.IsOf.onward {d : Due} (h : d.IsOf w c) (hw : Onward w w') : d.IsOf w' c := by
  cases d with
  | channel d => exact ⟨h.1, Nat.lt_of_lt_of_le h.2 hw.endures.length⟩
  | session s =>
    obtain ⟨hs, hchannel, hc⟩ := h
    obtain ⟨hs', hsame⟩ := hw.stays.session hs
    exact ⟨hs', (congrArg Debug.Session.channel hsame).trans hchannel, Nat.lt_of_lt_of_le hc hw.endures.length⟩

/-- What is due stays so. -/
lemma Owes.onward (h : Owes held w c) (hw : Onward w w') : Owes held w' c := by
  rcases h with ⟨d, hd, hof⟩ | hshut
  · exact .inl ⟨d, hd, hof.onward hw⟩
  · exact .inr (hw.endures.ages c hshut)

lemma owes_nil : Owes [] w c ↔ w.Shut c :=
  ⟨fun h => h.resolve_left (fun ⟨_, hd, _⟩ => nomatch hd), .inr⟩

end Due

/-- An access closes what is no longer due, and leaves alone the tables that have yet to be emptied. -/
structure Pays (k : Nat) (held : List Due) (w : World) (held' : List Due) (w' : World) : Prop where
  onward : Onward w w'
  owes : ∀ c, Owes held w c → Owes held' w' c
  tabled : ∀ t : Table, k ≤ t.rank → tabled w t ⊆ tabled w' t

/-- A channel that is there stays so, and with it the channels in a table that is left alone. -/
lemma tabled_subset {w : World} {n : Network} (h : w.net.channels.length ≤ n.channels.length) (t : Table) :
    tabled w t ⊆ tabled { w with net := n } t := by
  intro c hc
  cases t with
  | analysis | debugger =>
    obtain ⟨hmem, hlt⟩ := List.mem_filter.mp hc
    exact List.mem_filter.mpr ⟨hmem, decide_eq_true (Nat.lt_of_lt_of_le (of_decide_eq_true hlt) h)⟩

/-- Work on channels that closes some of them. -/
lemma Pays.of_quits {held held' : List ChannelId} {w : World} {n : Network} (h : Quits held w.net held' n) (k : Nat)
    (rest : List Due) :
    Pays k (held.map .channel ++ rest) w (held'.map .channel ++ rest) { w with net := n } := by
  have hw : Onward w { w with net := n } := ⟨h.endures, World.stays_of_eq rfl⟩
  refine ⟨hw, ?_, fun t _ => tabled_subset hw.endures.length t⟩
  cases h with
  | steady same => exact fun c hc => hc.onward hw
  | closes d others n =>
    rintro c (⟨due, hdue, hof⟩ | hshut)
    · rcases List.mem_cons.mp hdue with rfl | hdue
      · obtain ⟨rfl, hd⟩ := hof
        right
        show ((w.net.update d _).channel d).phase = .closed
        rw [Network.update, Network.channel, List.getD_eq_getElem _ _ (by rwa [List.length_modify]),
          List.getElem_modify_eq]
        rfl
      · exact .inl ⟨due, hdue, hof.onward hw⟩
    · exact .inr (hw.endures.ages c hshut)

/-- How many tables were emptied so far, and what is due. -/
abbrev Stage := Nat × List Due

/-- An access closes what is due, or it empties the next table and takes over what was in it. -/
inductive Sweeps : Stage → World → Stage → World → Prop
  | pays {k : Nat} {held held' : List Due} {w w' : World} (pays : Pays k held w held' w') : Sweeps (k, held) w (k, held') w'
  | empties (t : Table) {held : List Due} {w w' : World} (onward : Onward w w')
      (all : ∀ c ∈ tabled w t, ∃ d ∈ held, d.IsOf w c) (later : ∀ u : Table, t.rank < u.rank → tabled w u ⊆ tabled w' u) :
    Sweeps (t.rank, []) w (t.rank + 1, held) w'

section Carries

variable {α : Type}

/-- Work that closes what is due, at some stage. -/
lemma carries_of_pays {t : Task Wait World α} {k : Nat} {held rest : List Due}
    (h : t.Carries (Pays k) (fun _ held => held = rest) held) :
    t.Carries Sweeps (fun _ stage => stage = (k, rest)) (k, held) := by
  refine .imp (h.image (e := fun held => (k, held)) fun _ _ _ _ => .pays) ?_
  rintro a _ ⟨_, rfl, rfl⟩
  rfl

/-- Work on channels that closes the first one that is due. -/
lemma carries_onNet {t : Task Wait Network α} {c : ChannelId}
    (h : t.Carries Quits (fun _ held => held = []) [c]) (k : Nat) (rest : List Due) :
    (World.onNet t).Carries (Pays k) (fun _ held => held = rest) (.channel c :: rest) := by
  have hzoom : (World.onNet t).Carries
      (fun (held : List ChannelId) w (held' : List ChannelId) w' =>
        Pays k (held.map Due.channel ++ rest) w (held'.map Due.channel ++ rest) w')
      (fun _ held => held = []) [c] := .zoom (fun _ _ _ _ hquits => .of_quits hquits k rest) h
  have hdue : (World.onNet t).Carries (Pays k)
      (fun _ due => ∃ held : List ChannelId, due = held.map Due.channel ++ rest ∧ held = []) (.channel c :: rest) :=
    hzoom.image (g := [c]) (e := fun held => held.map Due.channel ++ rest) (fun _ _ _ _ hpays => hpays)
  refine hdue.imp ?_
  rintro a _ ⟨_, rfl, rfl⟩
  rfl

/-- To end analysis is to empty its table and to close what was in it. -/
lemma carries_stopAll : Analysis.Running.stopAll.Carries Sweeps (fun _ stage => stage = (1, [])) (0, []) := by
  have hempties : (Task.act (ω := Wait) fun w : World => (w.analysis.table.map fun x => w.analysis.session x.2,
      { w with analysis := { w.analysis with table := [] } })).Carries Sweeps
      (fun sessions stage => stage = (1, sessions.map fun s => Due.channel s.channel)) (0, []) := by
    refine fun w => ⟨_, .empties .analysis ⟨.refl w.net, World.stays_of_eq rfl⟩ ?_ ?_, rfl⟩
    · intro c hc
      obtain ⟨hmem, hlt⟩ := List.mem_filter.mp hc
      obtain ⟨x, hx, rfl⟩ := List.mem_map.mp hmem
      exact ⟨.channel _, List.mem_map_of_mem (List.mem_map_of_mem hx), rfl, of_decide_eq_true hlt⟩
    · intro u hu
      cases u with
      | analysis => cases hu
      | debugger => exact List.Subset.refl _
  refine .andThen hempties ?_
  rintro sessions _ rfl
  exact carries_of_pays (.forEach (fun s rest => carries_onNet (s.carries_quits_sessionShutdown []) 1 rest) sessions)

/-- To close a debug session is to look it up and to close its channel. -/
lemma carries_close (s : Debug.SessionId) (rest : List Due) :
    (Debug.Running.close s).Carries (Pays 2) (fun _ held => held = rest) (.session s :: rest) := by
  have hlook : (Task.view (ω := Wait) fun w : World => w.debugger.session s).Carries (Pays 2)
      (fun session held => held = .channel session.channel :: rest) (.session s :: rest) := by
    refine fun w => ⟨_, ⟨.refl w, ?_, fun _ _ => List.Subset.refl _⟩, rfl⟩
    rintro c (⟨d, hd, hof⟩ | hshut)
    · rcases List.mem_cons.mp hd with rfl | hd
      · exact .inl ⟨.channel _, List.mem_cons_self, hof.2⟩
      · exact .inl ⟨d, List.mem_cons_of_mem _ hd, hof⟩
    · exact .inr hshut
  refine .andThen hlook ?_
  rintro session _ rfl
  exact carries_onNet (session.carries_quits_shutdown []) 2 rest

/-- To end the debugger is to empty its table and to close what was in it. -/
lemma carries_shutdown : Debug.Running.shutdown.Carries Sweeps (fun _ stage => stage = (2, [])) (1, []) := by
  refine .andThen (Q := fun _ stage => stage = (1, [])) (t := Task.await _) rfl ?_
  rintro _ _ rfl
  have hempties : (Task.act (ω := Wait) fun w : World => (w.debugger.current.map (·.2),
      { w with debugger := { w.debugger with current := [] } })).Carries Sweeps
      (fun sessions stage => stage = (2, sessions.map Due.session)) (1, []) := by
    refine fun w => ⟨_, .empties .debugger ⟨.refl w.net, World.stays_of_eq rfl⟩ ?_ ?_, rfl⟩
    · intro c hc
      obtain ⟨hmem, hlt⟩ := List.mem_filter.mp hc
      obtain ⟨s, hs, rfl⟩ := List.mem_map.mp hmem
      obtain ⟨hs, hthere⟩ := List.mem_filter.mp hs
      exact ⟨.session s, List.mem_map_of_mem hs, of_decide_eq_true hthere, rfl, of_decide_eq_true hlt⟩
    · intro u hu
      cases u with
      | analysis | debugger => exact absurd hu (by decide)
  refine .andThen hempties ?_
  rintro sessions _ rfl
  refine .andThen (carries_of_pays (.forEach carries_close sessions)) ?_
  rintro _ _ rfl
  -- both tables are empty, so what else is done may be anything discreet
  have hdiscreet : ∀ {t : Task Wait World Unit}, t.Within Discreet →
      t.Carries Sweeps (fun _ stage => stage = (2, [])) (2, []) := by
    refine .of_within fun w w' h => .pays ⟨h.toOnward, fun c hc => hc.onward h.toOnward, ?_⟩
    intro t ht
    cases t with
    | analysis | debugger => exact absurd ht (by decide)
  exact hdiscreet (.andThen (.view .refl) fun targets =>
    .forEach (fun id => Debug.Bustle.allowed_discreet.toAllowedCommands.toAllowedCalls.markTerminated id) targets)

/-- To end every session is to empty both tables, in turn, and to close all that was in them. -/
theorem carries_endSessions : Service.endSessions.Carries Sweeps (fun _ stage => stage = (2, [])) (0, []) := by
  refine .andThen carries_stopAll ?_
  rintro _ _ rfl
  exact carries_shutdown

end Carries

/-! ## One session -/

/-- The session of a channel is in its table until this is emptied; from then on it is due, or closed. -/
structure Watched (t : Table) (c : ChannelId) (stage : Stage) (w : World) : Prop where
  before : stage.1 ≤ t.rank → c ∈ tabled w t
  after : t.rank < stage.1 → Owes stage.2 w c

namespace Watched

variable {t : Table} {c : ChannelId} {stage stage' : Stage} {w w' : World}

/-- No table was emptied yet. -/
lemma start (h : c ∈ tabled w t) : Watched t c (0, []) w := ⟨fun _ => h, nofun⟩

/-- Both tables were emptied, and nothing is due. -/
lemma shut (h : Watched t c (2, []) w) : w.Shut c :=
  owes_nil.mp (h.after (by cases t <;> decide))

/-- Nobody else takes the session out of its table. -/
lemma onward (h : Watched t c stage w) (hw : Onward w w') (htable : c ∈ tabled w t → c ∈ tabled w' t) :
    Watched t c stage w' := ⟨fun hk => htable (h.before hk), fun hk => (h.after hk).onward hw⟩

/-- An access that sweeps keeps a session watched. -/
lemma sweeps (h : Watched t c stage w) (hstep : Sweeps stage w stage' w') : Watched t c stage' w' := by
  cases hstep with
  | pays pays => exact ⟨fun hk => pays.tabled t hk (h.before hk), fun hk => pays.owes c (h.after hk)⟩
  | @empties u held _ _ onward all later =>
    refine ⟨fun hk => later t hk (h.before (Nat.le_of_lt hk)), fun hk => ?_⟩
    rcases Nat.lt_or_ge t.rank u.rank with hlt | hge
    · exact .inr (owes_nil.mp ((h.after hlt).onward onward))
    · obtain rfl : t = u := by
        have hrank : t.rank = u.rank := Nat.le_antisymm (Nat.le_of_lt_succ hk) hge
        cases t <;> cases u <;> first | rfl | cases hrank
      obtain ⟨d, hd, hof⟩ := all c (h.before (Nat.le_refl _))
      exact .inl ⟨d, hd, hof.onward onward⟩

end Watched

end Editor

end Switchboard
