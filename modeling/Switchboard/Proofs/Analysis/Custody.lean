import Switchboard.Analysis.Running
import Switchboard.Proofs.Analysis.Places
import Switchboard.Proofs.Channel.Steady

/-!
# Who has to close an analysis session

* `World.Undisturbed`: the registry of sessions is left alone; `undisturbed_read`: so it is by what servers send;
* `Operation`: what is done to the registry, each operation with its work;
* `Move`, `carries_work`: what an operation does in one access, and the channels that it has taken over and not closed yet;
* `Passes`, `Move.passes`: what that means for each session: who keeps its place, who loses it and is to be closed then.
-/

namespace Switchboard

open Analysis

namespace World

/-- A session connected elsewhere is put into the registry. -/
def attach (w : World) (server : Server) (stream : Channel) : World :=
  let (channel, w) := w.connect stream
  { w with analysis := (w.analysis.insert (.attach server channel w.analysis.current w.analysis.processId)).2 }

/-- The registry is left alone, no channel goes away, and what is closed stays closed. -/
structure Undisturbed (w w' : World) : Prop where
  table : w'.analysis.table = w.analysis.table
  sessions : w'.analysis.sessions.map (fun s => (s.server, s.channel)) = w.analysis.sessions.map fun s => (s.server, s.channel)
  length : w.net.channels.length ≤ w'.net.channels.length
  ages : Network.Ages w.net w'.net

lemma undisturbed_of_net {w : World} {n : Network} (hlength : w.net.channels.length ≤ n.channels.length)
    (hages : Network.Ages w.net n) : w.Undisturbed { w with net := n } := ⟨rfl, rfl, hlength, hages⟩

lemma Undisturbed.trans {w w' w'' : World} (h : w.Undisturbed w') (h' : w'.Undisturbed w'') : w.Undisturbed w'' :=
  ⟨h'.table.trans h.table, h'.sessions.trans h.sessions, h.length.trans h'.length, fun d hd => h'.ages d (h.ages d hd)⟩

/-- Reading never opens a channel. -/
lemma closed_readOne {ch : Channel} (h : ch.phase = .closed) : ch.readOne.2.phase = .closed := by
  unfold Channel.readOne
  split
  · exact (congrArg Door.phase (Network.receive_cases _ _).1).trans h
  · exact h
  · exact h
  · rfl
  · rfl

/-- What a server publishes is stored with its session. -/
lemma undisturbed_applyAnalysisEvent (k : Nat) (w : World) (e : Channel.Event) :
    w.Undisturbed (applyAnalysisEvent k w e) := by
  have hrefl : w.Undisturbed w := ⟨rfl, rfl, Nat.le_refl _, .refl _⟩
  unfold applyAnalysisEvent
  split
  · split
    · next d note _ =>
      refine ⟨rfl, ?_, Nat.le_refl _, .refl _⟩
      show ((w.analysis.sessions.modify k fun s => { s with diagnostics := d }).map _) = _
      refine List.ext_getElem? fun i => ?_
      rw [List.getElem?_map, List.getElem?_modify, List.getElem?_map]
      cases w.analysis.sessions[i]? with
      | none => split <;> rfl
      | some s => split <;> rfl
    · exact hrefl
  · exact hrefl

lemma undisturbed_applyAnalysis (w : World) (c : ChannelId) : w.Undisturbed (w.applyAnalysis c) := by
  unfold applyAnalysis
  split
  · next k _ =>
    have htaken : w.Undisturbed (w.updateChannel c fun ch => { ch with heard := [] }) :=
      undisturbed_of_net (List.length_modify ..).ge (.update fun _ => id)
    exact List.foldlRecOn (motive := w.Undisturbed) _ _ htaken fun u hu e _ => hu.trans (undisturbed_applyAnalysisEvent k u e)
  · exact ⟨rfl, rfl, Nat.le_refl _, .refl _⟩

/-- What comes in over a channel leaves the registry alone, and at the end of the stream the channel closes. -/
theorem undisturbed_read (w : World) (c : ChannelId) : w.Undisturbed (w.read c).2 := by
  have hread : w.Undisturbed { w with net := (w.net.updateWith c Channel.readOne).2 } := by
    rw [Network.updateWith_eq]
    exact undisturbed_of_net (List.length_modify ..).ge (.update fun _ => closed_readOne)
  exact hread.trans (undisturbed_applyAnalysis _ c)

end World

namespace Analysis.Custody

open Network (Steady Quits)

/-- What is done to the registry. -/
inductive Operation where
  /-- A session that was connected elsewhere is put in. -/
  | insert (server : Server) (stream : Channel)
  | start (server : Server) (features : Json)
  | require (language : String) (workspace : Path)
  | active
  | stop (language : String) (workspace : Path)
  | stopAll

/-- The work of an operation. -/
def Operation.work : Operation → Task Wait World Unit
  | insert server stream => Task.modify fun w => w.attach server stream
  | start server features => do
    let _ ← (Running.start server features).outcome
  | require language workspace => do
    let _ ← (Running.require language workspace).outcome
  | active => do
    let _ ← Task.view fun w => w.analysis.active w.net
  | stop language workspace => do
    let _ ← (Running.stop language workspace).outcome
  | stopAll => Running.stopAll

/-! ## Sessions -/

/-- The channel of a session. -/
def channelOf (w : World) (k : Nat) : ChannelId := (w.analysis.session k).channel

/-- A session is closed. -/
def IsClosed (w : World) (k : Nat) : Prop := (w.net.channel (channelOf w k)).phase = .closed

instance (w : World) (k : Nat) : Decidable (IsClosed w k) := inferInstanceAs (Decidable (_ = _))

/-- The registry is sound, and each session has a channel of its own. -/
structure Orderly (w : World) : Prop where
  sound : w.analysis.Sound
  present : ∀ s ∈ w.analysis.sessions, s.channel < w.net.channels.length
  own : (w.analysis.sessions.map (·.channel)).Nodup

section Orderly

variable {w : World} {j k : Nat}

lemma session_mem (hk : k < w.analysis.sessions.length) : w.analysis.session k ∈ w.analysis.sessions := by
  unfold Registry.session
  rw [List.getD_eq_getElem _ _ hk]
  exact List.getElem_mem hk

lemma Orderly.channelOf_lt (h : Orderly w) (hk : k < w.analysis.sessions.length) : channelOf w k < w.net.channels.length :=
  h.present _ (session_mem hk)

lemma Orderly.eq_of_channelOf (h : Orderly w) (hj : j < w.analysis.sessions.length) (hk : k < w.analysis.sessions.length)
    (heq : channelOf w j = channelOf w k) : j = k := by
  have hget : ∀ i, (hi : i < w.analysis.sessions.length) →
      channelOf w i = (w.analysis.sessions.map (·.channel)).get ⟨i, by rw [List.length_map]; exact hi⟩ := by
    intro i hi
    unfold channelOf Registry.session
    rw [List.getD_eq_getElem _ _ hi, List.get_eq_getElem, List.getElem_map]
  rw [hget j hj, hget k hk] at heq
  exact (List.Nodup.getElem_inj_iff h.own).mp heq

end Orderly

/-! ## What operations do -/

/-- A session on a new channel comes into the registry. -/
structure Admits (w : World) (s : Session) (stream : Channel) (w' : World) : Prop where
  registry : w'.analysis = (w.analysis.insert s).2
  channels : w'.net.channels = w.net.channels ++ [stream]
  channel : s.channel = w.net.channels.length

/-- All sessions are taken out of the registry. -/
def emptied (w : World) : World := { w with analysis := { w.analysis with table := [] } }

/-- An operation changes channels only, or it puts a session in, where only an insertion replaces a session that is not
closed, or it takes sessions out, which it has to close from then on. -/
inductive Move (call : Operation) : List ChannelId → World → List ChannelId → World → Prop
  | proceeds {held held' : List ChannelId} {w : World} {n : Network} (quits : Quits held w.net held' n) :
    Move call held w held' { w with net := n }
  | admits {w w' : World} (s : Session) (stream : Channel) (admits : Admits w s stream w')
    (replaced : (∃ server stream, call = .insert server stream) ∨
      ∀ k, w.analysis.find? s.server.language s.server.workspace = some k → IsClosed w k) : Move call [] w [] w'
  | removes {w : World} (language : String) (workspace : Path) (k : Nat) (here : call = .stop language workspace)
    (found : w.analysis.find? language workspace = some k) :
    Move call [] w [channelOf w k] { w with analysis := (w.analysis.remove language workspace).2 }
  | drains {w : World} (here : call = .stopAll) :
    Move call [] w (w.analysis.table.map fun x => channelOf w x.2) (emptied w)

section Move

variable {call : Operation} {held : List ChannelId}

lemma Move.rests (held : List ChannelId) (w : World) : Move call held w held w := .proceeds (.steady (.refl w.net))

/-- Work on channels that closes none. -/
lemma carries_of_steady {α : Type} {t : Task Wait Network α} (h : t.Within Steady) :
    (World.onNet t).Carries (Move call) (fun _ held' => held' = held) held :=
  .zoom (fun _ _ _ _ => .proceeds) (.of_within (fun _ _ => .steady) h)

/-- A server starts only where there is no session that is not closed. -/
lemma move_claim (server : Server) (features : Json) (w : World) :
    Move call [] w [] (w.claimServer server features).2 := by
  unfold World.claimServer
  cases hrequire : w.analysis.require w.net server.language server.workspace with
  | ok k => exact .rests [] w
  | error fault =>
    have hclosed : ∀ k, w.analysis.find? server.language server.workspace = some k → IsClosed w k := by
      intro k hk
      unfold Registry.require at hrequire
      rw [hk] at hrequire
      by_contra hopen
      have halive : (w.net.channel (w.analysis.session k).channel).isOpen = true := decide_eq_true hopen
      simp only [halive, if_true] at hrequire
      cases hrequire
    show Move call [] w [] (w.startServer server features).2
    unfold World.startServer World.spawn
    split
    · exact .rests [] w
    · let s : Session := .attach server w.net.channels.length w.analysis.current w.analysis.processId
      have hadmits : ∀ stream w', Admits w s stream w' → Move call [] w [] w' :=
        fun stream w' h => .admits s stream h (.inr hclosed)
      exact hadmits _ _ ⟨rfl, rfl, rfl⟩

lemma carries_introduce (s : Session) :
    Attempt.Carries (Move call) (fun _ held' => held' = held) (· = held) (World.call (ε := Fault) s.introduce) held := by
  refine Task.Carries.imp (carries_of_steady (Session.within_steady_introduce s)) ?_
  intro e g hg
  cases e <;> exact hg

/-- The shutdown of a session closes it. -/
lemma carries_shutdown (s : Session) (rest : List ChannelId) :
    (World.onNet s.shutdown).Carries (Move call) (fun _ held => held = rest) (s.channel :: rest) :=
  .zoom (fun _ _ _ _ => .proceeds) (Session.carries_quits_sessionShutdown s rest)

/-- Every operation closes what it takes out of the registry. -/
theorem carries_work (call : Operation) : call.work.Carries (Move call) (fun _ held => held = []) [] := by
  -- what an operation returns does not matter
  have hreturns : ∀ {ε α : Type} {a : Attempt Wait World ε α},
      Attempt.Carries (Move call) (fun _ held => held = []) (· = []) a [] →
      (a.outcome.andThen fun _ => Task.done ()).Carries (Move call) (fun _ held => held = []) [] := by
    intro ε α a h
    refine .andThen h ?_
    intro e held he
    cases e <;> exact he
  cases call with
  | insert server stream =>
    intro w
    exact ⟨[], .admits (.attach server w.net.channels.length w.analysis.current w.analysis.processId) stream
      ⟨rfl, rfl, rfl⟩ (.inl ⟨server, stream, rfl⟩), rfl⟩
  | start server features =>
    have hclaim : Attempt.Carries (Move (.start server features)) (fun _ held => held = []) (· = [])
        (Attempt.act fun w => w.claimServer server features : AnalysisWork Nat) [] :=
      .act fun w => ⟨[], move_claim server features w, fun _ _ => rfl, fun _ _ => rfl⟩
    refine hreturns (.bind hclaim ?_)
    rintro k _ rfl
    refine .bind (Q := fun _ held => held = []) (.ofTask fun w => ⟨[], .rests [] w, rfl⟩) ?_
    rintro s _ rfl
    refine .bind (carries_introduce s) ?_
    rintro _ _ rfl
    rfl
  | require language workspace =>
    refine hreturns (.bind (Q := fun _ held => held = []) (.ofTask fun w => ⟨[], .rests [] w, rfl⟩) ?_)
    rintro w _ rfl
    exact .ofExcept (fun _ _ => rfl) fun _ _ => rfl
  | active => exact fun w => ⟨[], .rests [] w, rfl⟩
  | stop language workspace =>
    have hforget : Attempt.Carries (Move (.stop language workspace)) (fun s held => held = [s.channel]) (· = [])
        (Attempt.act (Running.forget language workspace) : AnalysisWork Session) [] := by
      refine .act fun w => ?_
      unfold Running.forget Registry.remove
      cases hfound : w.analysis.find? language workspace with
      | none => exact ⟨[], .rests [] w, fun _ hok => (nomatch hok), fun _ _ => rfl⟩
      | some k =>
        refine ⟨[channelOf w k], .removes language workspace k rfl hfound, ?_, fun _ herror => nomatch herror⟩
        rintro s ⟨⟩
        rfl
    refine hreturns (.bind hforget ?_)
    rintro s _ rfl
    exact .ofTask (carries_shutdown s [])
  | stopAll =>
    have hdrain : (Task.act (ω := Wait) fun w : World => (w.analysis.table.map fun x => w.analysis.session x.2,
          emptied w)).Carries (Move .stopAll) (fun sessions held => held = sessions.map (·.channel)) [] := by
      intro w
      refine ⟨_, .drains rfl, ?_⟩
      show (w.analysis.table.map fun x => channelOf w x.2) = _
      rw [List.map_map]
      rfl
    refine .andThen hdrain ?_
    rintro sessions _ rfl
    exact .forEach (fun s rest => carries_shutdown s rest) sessions

end Move

/-! ## What becomes of sessions -/

/-- What an access does that leads from `w` to `w'`, of a call that has these channels to close, before and after.
`evicting` says whether the call may replace a session that is not closed. -/
structure Passes (w : World) (held : List ChannelId) (w' : World) (held' : List ChannelId) (evicting : Prop) : Prop where
  orderly : Orderly w'
  longer : w.analysis.sessions.length ≤ w'.analysis.sessions.length
  channel : ∀ k < w.analysis.sessions.length, channelOf w' k = channelOf w k
  /-- Nobody gets a place back. -/
  kept : ∀ k < w.analysis.sessions.length, w'.analysis.Keeps k → w.analysis.Keeps k
  comes : ∀ k < w'.analysis.sessions.length, w.analysis.sessions.length ≤ k → w'.analysis.Keeps k
  /-- Who loses its place is closed, or to be closed, or was replaced. -/
  leaves : ∀ k, w.analysis.Keeps k →
    w'.analysis.Keeps k ∨ IsClosed w' k ∨ channelOf w k ∈ held' ∨ evicting ∧ ¬ IsClosed w k
  closed : ∀ k < w.analysis.sessions.length, IsClosed w k → IsClosed w' k
  /-- What is to be closed is closed, or still to be closed. -/
  owed : ∀ c ∈ held, c ∈ held' ∨ (w'.net.channel c).phase = .closed
  /-- Only what loses its place is taken over, and not in an access that may replace sessions. -/
  taken : ∀ c ∈ held', c ∈ held ∨ ¬ evicting ∧ ∃ k, w.analysis.Keeps k ∧ ¬ w'.analysis.Keeps k ∧ c = channelOf w k

section Passes

variable {w w' : World} {held held' : List ChannelId} {evicting : Prop}

lemma session_undisturbed (h : w.Undisturbed w') (k : Nat) :
    (w'.analysis.session k).key = (w.analysis.session k).key ∧ channelOf w' k = channelOf w k := by
  have hget : ∀ r : Registry, ((r.session k).server, (r.session k).channel)
      = (r.sessions.map fun s => (s.server, s.channel)).getD k ((default : Session).server, (default : Session).channel) := by
    intro r
    rw [List.getD_map]
    rfl
  have hsame := (hget w'.analysis).trans (h.sessions ▸ (hget w.analysis).symm)
  obtain ⟨hserver, hchannel⟩ := Prod.mk.inj hsame
  refine ⟨?_, hchannel⟩
  unfold Session.key
  rw [hserver]

lemma length_undisturbed (h : w.Undisturbed w') : w'.analysis.sessions.length = w.analysis.sessions.length := by
  simpa only [List.length_map] using congrArg List.length h.sessions

lemma keeps_undisturbed (h : w.Undisturbed w') (k : Nat) : w'.analysis.Keeps k ↔ w.analysis.Keeps k := by
  unfold Registry.Keeps Registry.find?
  rw [h.table, (session_undisturbed h k).1]

lemma orderly_undisturbed (hw : Orderly w) (h : w.Undisturbed w') : Orderly w' := by
  have hchannels : w'.analysis.sessions.map (·.channel) = w.analysis.sessions.map (·.channel) := by
    simpa only [List.map_map, Function.comp_def] using congrArg (List.map Prod.snd) h.sessions
  refine ⟨⟨?_, ?_⟩, ?_, ?_⟩
  · intro x hx
    rw [h.table] at hx
    rw [length_undisturbed h, (session_undisturbed h x.2).1]
    exact hw.sound.entry x hx
  · rw [h.table]
    exact hw.sound.nodup
  · intro s hs
    have hmem : s.channel ∈ w'.analysis.sessions.map (·.channel) := List.mem_map_of_mem hs
    rw [hchannels] at hmem
    obtain ⟨s₀, hs₀, hsame⟩ := List.mem_map.mp hmem
    show s.channel < w'.net.channels.length
    rw [← hsame]
    exact Nat.lt_of_lt_of_le (hw.present s₀ hs₀) h.length
  · rw [hchannels]
    exact hw.own

/-- The registry is left alone. -/
lemma Passes.of_undisturbed (hw : Orderly w) (h : w.Undisturbed w') (hsub : held' ⊆ held)
    (howed : ∀ c ∈ held, c ∈ held' ∨ (w'.net.channel c).phase = .closed) : Passes w held w' held' evicting where
  orderly := orderly_undisturbed hw h
  longer := (length_undisturbed h).ge
  channel := fun k _ => (session_undisturbed h k).2
  kept := fun k _ => (keeps_undisturbed h k).mp
  comes := by
    intro k hk hge
    rw [length_undisturbed h] at hk
    omega
  leaves := fun k hk => .inl ((keeps_undisturbed h k).mpr hk)
  closed := by
    intro k _ hclosed
    unfold IsClosed
    rw [(session_undisturbed h k).2]
    exact h.ages _ hclosed
  owed := howed
  taken := fun c hc => .inl (hsub hc)

/-- Sessions are taken out of the registry, and nothing else happens. -/
lemma Passes.of_sublist {table : List ((String × Path) × Nat)} (hw : Orderly w) (hsub : table.Sublist w.analysis.table)
    (hevicting : ¬ evicting) (hleaves : ∀ k, w.analysis.Keeps k →
      Registry.Keeps { w.analysis with table } k ∨ channelOf w k ∈ held')
    (htaken : ∀ c ∈ held', ∃ k, w.analysis.Keeps k ∧ ¬ Registry.Keeps { w.analysis with table } k ∧
      c = channelOf w k) :
    Passes w [] { w with analysis := { w.analysis with table } } held' evicting where
  orderly := ⟨hw.sound.of_sublist hsub, hw.present, hw.own⟩
  longer := Nat.le_refl _
  channel := fun _ _ => rfl
  kept := by
    intro k _ hk
    obtain ⟨x, hx, hxk⟩ := (hw.sound.of_sublist hsub).keeps_iff.mp hk
    exact hw.sound.keeps_iff.mpr ⟨x, hsub.subset hx, hxk⟩
  comes := fun k hk hge => absurd hk (Nat.not_lt.mpr hge)
  leaves := by
    intro k hk
    rcases hleaves k hk with hkept | hheld
    · exact .inl hkept
    · exact .inr (.inr (.inl hheld))
  closed := fun _ _ => id
  owed := fun c hc => absurd hc List.not_mem_nil
  taken := fun c hc => .inr ⟨hevicting, htaken c hc⟩

lemma Admits.channelOf_eq {s : Session} {stream : Channel} (h : Admits w s stream w') {k : Nat}
    (hk : k < w.analysis.sessions.length) : channelOf w' k = channelOf w k := by
  unfold channelOf
  rw [h.registry, Registry.session_insert_of_lt hk]

lemma Admits.isClosed_iff {s : Session} {stream : Channel} (h : Admits w s stream w') (hw : Orderly w) {k : Nat}
    (hk : k < w.analysis.sessions.length) : IsClosed w' k ↔ IsClosed w k := by
  unfold IsClosed Network.channel
  rw [h.channelOf_eq hk, h.channels, List.getD_append _ _ _ _ (hw.channelOf_lt hk)]

/-- A session comes in, where only those that are evicted or closed are replaced. -/
lemma Passes.of_admits {s : Session} {stream : Channel} (hw : Orderly w) (h : Admits w s stream w')
    (hreplaced : evicting ∨ ∀ k, w.analysis.find? s.server.language s.server.workspace = some k → IsClosed w k) :
    Passes w [] w' [] evicting := by
  have hsessions : w'.analysis.sessions = w.analysis.sessions ++ [s] := by
    rw [h.registry]
    rfl
  have hlength : w'.analysis.sessions.length = w.analysis.sessions.length + 1 := by
    rw [hsessions, List.length_append, List.length_singleton]
  have hclosed : ∀ k < w.analysis.sessions.length, IsClosed w k → IsClosed w' k :=
    fun k hk => (h.isClosed_iff hw hk).mpr
  have hkeeps := Registry.keeps_insert hw.sound s
  rw [← h.registry] at hkeeps
  refine ⟨⟨?_, ?_, ?_⟩, by omega, fun k hk => h.channelOf_eq hk, ?_, ?_, ?_, hclosed, ?_, ?_⟩
  · rw [h.registry]
    exact hw.sound.insert s
  · intro x hx
    rw [h.channels, List.length_append, List.length_singleton]
    rw [hsessions] at hx
    rcases List.mem_append.mp hx with hx | hx
    · exact Nat.lt_succ_of_lt (hw.present x hx)
    · rw [List.mem_singleton.mp hx, h.channel]
      exact Nat.lt_succ_self _
  · rw [hsessions, List.map_append]
    refine List.nodup_append.mpr ⟨hw.own, List.nodup_singleton _, ?_⟩
    intro a ha b hb
    -- the new channel was not there before
    obtain ⟨x, hx, rfl⟩ := List.mem_map.mp ha
    have hnew : b = w.net.channels.length := (List.mem_singleton.mp hb).trans h.channel
    rw [hnew]
    exact (hw.present x hx).ne
  · intro k hk hkept
    rcases (hkeeps k).mp hkept with hnew | ⟨hold, -⟩
    · omega
    · exact hold
  · intro k hk hge
    exact (hkeeps k).mpr (.inl (by omega))
  · intro k hk
    have hlt := hw.sound.lt_of_keeps hk
    by_cases hkey : Registry.common (w.analysis.session k).key = Registry.common s.key
    · by_cases hk' : IsClosed w k
      · exact .inr (.inl (hclosed k hlt hk'))
      rcases hreplaced with hevicting | hreplaced
      · exact .inr (.inr (.inr ⟨hevicting, hk'⟩))
      · obtain ⟨x, hx, hxk⟩ := hw.sound.keeps_iff.mp hk
        have hfound := hw.sound.find?_eq hx ((hw.sound.entry x hx).2.trans (hxk ▸ hkey))
        exact absurd (hreplaced k (hxk ▸ hfound)) hk'
    · exact .inl ((hkeeps k).mpr (.inr ⟨hk, hkey⟩))
  · exact fun c hc => absurd hc List.not_mem_nil
  · exact fun c hc => absurd hc List.not_mem_nil

/-- Channels change, and only those that are to be closed are closed. -/
lemma undisturbed_of_quits {n : Network} (h : Quits held w.net held' n) : w.Undisturbed { w with net := n } := by
  cases h with
  | steady same => exact World.undisturbed_of_net same.length.ge same.ages
  | closes c rest => exact World.undisturbed_of_net (List.length_modify ..).ge (.update fun _ _ => rfl)

/-- What a call does in one access. -/
theorem Move.passes {call : Operation} (h : Move call held w held' w') (hw : Orderly w)
    (hheld : ∀ c ∈ held, c < w.net.channels.length) :
    Passes w held w' held' (∃ server stream, call = .insert server stream) := by
  cases h with
  | proceeds quits =>
    refine .of_undisturbed hw (undisturbed_of_quits quits) ?_ ?_
    · cases quits with
      | steady same => exact List.Subset.refl held
      | closes c rest => exact List.subset_cons_self c held'
    · cases quits with
      | steady same => exact fun c hc => .inl hc
      | closes c rest =>
        intro d hd
        rcases List.mem_cons.mp hd with rfl | hd
        · right
          show ((w.net.update d (·.markClosed)).channel d).phase = .closed
          rw [Network.channel_update (hheld d List.mem_cons_self)]
          rfl
        · exact .inl hd
  | admits s stream admits replaced => exact .of_admits hw admits replaced
  | removes language workspace k here found =>
    have hkeeps := Registry.keeps_remove hw.sound language workspace
    refine .of_sublist hw List.filter_sublist ?_ ?_ ?_
    · rintro ⟨server, stream, hinsert⟩
      cases here.symm.trans hinsert
    · intro j hj
      by_cases hjk : j = k
      · exact .inr (List.mem_singleton.mpr (congrArg (channelOf w) hjk))
      · refine .inl ((hkeeps j).mpr ⟨hj, ?_⟩)
        rw [found]
        exact fun heq => hjk (Option.some.inj heq).symm
    · intro c hc
      obtain ⟨hk, -⟩ := hw.sound.keeps_of_find? found
      exact ⟨k, hk, fun hkept => ((hkeeps k).mp hkept).2 found, List.mem_singleton.mp hc⟩
  | drains here =>
    refine .of_sublist hw (List.nil_sublist _) ?_ ?_ ?_
    · rintro ⟨server, stream, hinsert⟩
      cases here.symm.trans hinsert
    · intro j hj
      obtain ⟨x, hx, rfl⟩ := hw.sound.keeps_iff.mp hj
      exact .inr (List.mem_map.mpr ⟨x, hx, rfl⟩)
    · intro c hc
      obtain ⟨x, hx, rfl⟩ := List.mem_map.mp hc
      exact ⟨x.2, hw.sound.keeps_iff.mpr ⟨x, hx, rfl⟩, Registry.not_keeps_clear _ _, rfl⟩

/-- An access closes only what is to be closed. -/
lemma Move.stays_open {call : Operation} (h : Move call held w held' w') (hw : Orderly w) {k : Nat}
    (hk : k < w.analysis.sessions.length) (hopen : ¬ IsClosed w k) (hheld : channelOf w k ∉ held) : ¬ IsClosed w' k := by
  cases h with
  | @proceeds _ _ _ n quits =>
    cases quits with
    | steady same => exact fun hclosed => hopen ((same.closed _).mp hclosed)
    | closes c rest =>
      intro hclosed
      rcases Network.channel_update_cases w.net c (·.markClosed) (channelOf w k) with hsame | ⟨hc, -⟩
      · exact hopen ((congrArg Channel.phase hsame).symm.trans hclosed)
      · exact hheld (hc ▸ List.mem_cons_self)
  | admits s stream admits replaced => exact fun hclosed => hopen ((admits.isClosed_iff hw hk).mp hclosed)
  | removes | drains => exact hopen

end Passes

end Analysis.Custody

end Switchboard
