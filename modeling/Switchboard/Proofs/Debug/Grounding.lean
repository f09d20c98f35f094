import Switchboard.Proofs.Channel.Speech
import Switchboard.Proofs.Debug.Bustle

/-!
# Where targets are

* `World.Grounded`: the debugger is coherent, and the channels of its sessions are there;
* `World.OnChannel`: a target is on a session over this channel;
* `World.Continues`: the world stays grounded, and targets stay on their channels;
* `World.Calm`: an access after which the world continues, no door is marked or unmarked, and nothing was launched;
* `allowed_calm`, `Request.within_calm`: so are the accesses of every request but runs;
* `calm_claim`: and so is a claim, whose target is on a channel;
* `World.Beside`: what happens to the world beside all requests.
-/

namespace Switchboard

open Debug

namespace World

/-- The debugger is coherent, and the channels of its sessions are there. -/
structure Grounded (w : World) : Prop where
  coherent : w.debugger.Coherent
  channels : ∀ s ∈ w.debugger.sessions, s.channel < w.net.channels.length

/-- A target is on a session over this channel. -/
def OnChannel (w : World) (id : Nat) (c : ChannelId) : Prop :=
  ∃ t ∈ w.debugger.targets, t.id = id ∧ (w.debugger.session t.session).channel = c

section OnChannel

variable {w : World} {id : Nat} {c : ChannelId}

lemma Grounded.mem_sessions (h : w.Grounded) {t : Target} (ht : t ∈ w.debugger.targets) :
    w.debugger.session t.session ∈ w.debugger.sessions := by
  rw [Debugger.session, List.getD_eq_getElem _ _ (h.coherent.placed t ht)]
  exact List.getElem_mem _

/-- It is what is found when the session of the target is looked up. -/
lemma OnChannel.channel_eq (h : w.OnChannel id c) (hw : w.Grounded) :
    (w.debugger.session (w.target id).session).channel = c := by
  obtain ⟨t, ht, rfl, hc⟩ := h
  rw [World.target, hw.coherent.target_eq ht]
  exact hc

/-- The channel is there. -/
lemma OnChannel.present (h : w.OnChannel id c) (hw : w.Grounded) : c < w.net.channels.length := by
  obtain ⟨t, ht, -, rfl⟩ := h
  exact hw.channels _ (hw.mem_sessions ht)

end OnChannel

/-- The world stays grounded, no session goes, and targets stay on their channels. -/
structure Continues (w w' : World) : Prop where
  grounded : w'.Grounded
  sessions : w.debugger.sessions.length ≤ w'.debugger.sessions.length
  onChannel : ∀ id c, w.OnChannel id c → w'.OnChannel id c

namespace Continues

variable {w w' : World}

lemma refl (h : w.Grounded) : w.Continues w := ⟨h, Nat.le_refl _, fun _ _ => id⟩

lemma trans {w'' : World} (h : w.Continues w') (h' : w'.Continues w'') : w.Continues w'' :=
  ⟨h'.grounded, Nat.le_trans h.sessions h'.sessions, fun id c hid => h'.onChannel id c (h.onChannel id c hid)⟩

/-- Sessions and targets that there were are still there. -/
lemma of_stays (h : w.Grounded) (hw : w'.Grounded) (hstays : w.Stays w')
    (htargets : ∀ t ∈ w.debugger.targets, ∃ u ∈ w'.debugger.targets, u.id = t.id ∧ u.session = t.session) :
    w.Continues w' := by
  refine ⟨hw, ?_, ?_⟩
  · have hlength := hstays.length_le
    rwa [List.length_map, List.length_map] at hlength
  · rintro id c ⟨t, ht, rfl, rfl⟩
    obtain ⟨u, hu, hid, hsession⟩ := htargets t ht
    refine ⟨u, hu, hid, ?_⟩
    rw [hsession]
    exact congrArg (·.channel) (hstays.session (h.coherent.placed t ht)).2

/-- The network changes, and all channels are still there. -/
lemma of_net (h : w.Grounded) {net : Network} (hnet : ∀ c, c < w.net.channels.length → c < net.channels.length) :
    w.Continues { w with net } :=
  of_stays h ⟨h.coherent, fun s hs => hnet _ (h.channels s hs)⟩ (stays_of_eq rfl) fun t ht => ⟨t, ht, rfl, rfl⟩

/-- What keeps sessions and targets continues. -/
lemma of_keeps (hkeeps : w.Keeps w') (h : w.Grounded)
    (hnet : ∀ c, c < w.net.channels.length → c < w'.net.channels.length) : w.Continues w' := by
  refine of_stays h ⟨hkeeps.coherent h.coherent, ?_⟩ (stays_of_eq hkeeps.sessions) ?_
  · rw [hkeeps.sessions]
    exact fun s hs => hnet _ (h.channels s hs)
  · intro t ht
    obtain ⟨i, hi, rfl⟩ := List.mem_iff_getElem.mp ht
    have hlength := hkeeps.targets.length_eq
    have hsucceeds := hkeeps.targets.get hi (hlength ▸ hi)
    exact ⟨w'.debugger.targets[i], List.getElem_mem _, hsucceeds.id, hsucceeds.session⟩

end Continues

/-! ## Calm accesses -/

/-- A world that is grounded continues, no door is marked or unmarked, and nothing is launched. -/
def Calm (w w' : World) : Prop :=
  w.Grounded → w.Continues w' ∧ Network.Civil Target.launchings w.net w'.net

section Calm

variable {w w' : World}

lemma calm_of_spares (hspares : w.Spares w') (hnet : Network.Civil Target.launchings w.net w'.net) : w.Calm w' :=
  fun h => ⟨.of_keeps (hspares h.coherent.toNumbered) h fun c => (hnet.mild c).present, hnet⟩

/-- The network stays as it is. -/
lemma calm_of_net_eq (hspares : w.Spares w') (hnet : w'.net = w.net) : w.Calm w' :=
  calm_of_spares hspares (hnet.symm ▸ .refl _ _)

lemma calm_of_eq (htargets : w'.debugger.targets = w.debugger.targets)
    (hnext : w'.debugger.nextTarget = w.debugger.nextTarget) (hcurrent : w'.debugger.current = w.debugger.current)
    (hsessions : w'.debugger.sessions = w.debugger.sessions) (hnet : w'.net = w.net) : w.Calm w' :=
  calm_of_net_eq (.of_eq htargets hnext hcurrent hsessions (hnet.symm ▸ .refl _)) hnet

lemma calm_touches {id : Nat} {names : List String} (hnames : ∀ name ∈ Target.launchings, name ∉ names)
    (h : Target.Touches id names w w') : w.Calm w' := by
  refine calm_of_spares h.spares ?_
  cases h with
  | speech c n said => exact said.civil hnames
  | deed deed fresh => exact .refl _ _

lemma net_relocate (w : World) (path : Path) : (w.relocate path).net = w.net := by
  unfold relocate
  dsimp only
  split <;> rfl

lemma net_applyDebugEvent (w : World) (s : SessionId) (e : Channel.Event) : (w.applyDebugEvent s e).2.net = w.net := by
  unfold applyDebugEvent
  split <;> rfl

end Calm

end World

open World (Calm)

namespace Debug.Bustle

section Launches

open Editing

lemma within_calm_onLaunches {f : Launch.Catalog → Except Fault (Launch × Launch.Catalog)} {finish : Launch → World → World}
    (hfinish : ∀ w l c, Calm w (finish l (setLaunches w c))) : Attempt.Within Calm (onLaunches f finish) :=
  within_onLaunches (fun _ => World.calm_of_eq rfl rfl rfl rfl rfl) fun w l c _ => hfinish w l c

lemma within_calm_commitLaunch (id : Nat) : Attempt.Within Calm (commitLaunch id) := by
  refine .act ?_
  intro w
  split
  · exact World.calm_of_eq rfl rfl rfl rfl rfl
  · dsimp only
    split <;> exact World.calm_of_eq rfl rfl rfl rfl rfl

lemma within_calm_deleteLaunch (id : Nat) : Attempt.Within Calm (deleteLaunch id) := by
  refine .act ?_
  intro w
  split <;> exact World.calm_of_eq rfl rfl rfl rfl rfl

end Launches

/-- Everything that the debugger does for requests is calm, but for runs and the insertion of sessions. -/
theorem allowed_calm : Allowed Calm where
  refl := fun _ => World.calm_of_eq rfl rfl rfl rfl rfl
  net := fun _ _ h => World.calm_of_spares (.of_net h.ages) h
  relocate := fun w path => World.calm_of_net_eq (World.spares_relocate w path) (w.net_relocate path)
  verify := fun _ _ _ => World.calm_of_eq rfl rfl rfl rfl rfl
  touches := World.calm_touches
  ends := fun _ _ => World.calm_of_net_eq (.of_onward (Target.onward_terminate _)) rfl
  event := fun w s e => World.calm_of_net_eq (Target.spares_applyDebugEvent w s e) (w.net_applyDebugEvent s e)
  putOff := fun _ _ _ => World.calm_of_eq rfl rfl rfl rfl rfl
  forget := fun w s => World.calm_of_net_eq (Running.spares_forget w s) rfl
  clear := fun w => World.calm_of_net_eq (Running.spares_clear w) rfl
  placeBreakpoint := by
    intro project path line column w
    unfold Editing.placeBreakpoint
    dsimp only
    split <;> exact World.calm_of_eq rfl rfl rfl rfl rfl
  placeException := fun _ _ _ => World.calm_of_eq rfl rfl rfl rfl rfl
  applyEdits := by
    intro id edits w
    unfold Editing.applyEdits
    dsimp only
    split
    · exact World.calm_of_eq rfl rfl rfl rfl rfl
    · split <;> exact World.calm_of_eq rfl rfl rfl rfl rfl
  dropBreakpoints := fun _ => World.calm_of_eq rfl rfl rfl rfl rfl
  createLaunch := fun _ => within_calm_onLaunches fun _ _ _ => by
    split <;> exact World.calm_of_eq rfl rfl rfl rfl rfl
  cloneLaunch := fun _ => within_calm_onLaunches fun _ _ _ => World.calm_of_eq rfl rfl rfl rfl rfl
  editLaunch := fun _ _ => within_calm_onLaunches fun _ _ _ => by
    split <;> exact World.calm_of_eq rfl rfl rfl rfl rfl
  commitLaunch := within_calm_commitLaunch
  saveLaunch := fun _ => within_calm_onLaunches fun _ _ _ => World.calm_of_eq rfl rfl rfl rfl rfl
  deleteLaunch := within_calm_deleteLaunch

/-- A session that a request inserts is there. -/
def Request.Admitted (r : Request) (w : World) : Prop := ∀ s, r = .insert s → s < w.debugger.sessions.length

lemma Request.Admitted.continues {r : Request} {w w' : World} (h : r.Admitted w) (hw : w.Continues w') :
    r.Admitted w' := fun s hs => Nat.lt_of_lt_of_le (h s hs) hw.sessions

/-- A session becomes the one of its language. -/
lemma calm_setCurrent {w : World} {s : SessionId} (hs : s < w.debugger.sessions.length) :
    Calm w { w with debugger := (w.debugger.setCurrent (w.debugger.session s).language s).2 } := by
  intro h
  have hsessions := w.debugger.setCurrent_sessions (w.debugger.session s).language s
  have htargets := w.debugger.setCurrent_targets (w.debugger.session s).language s
  refine ⟨.of_stays h ⟨h.coherent.setCurrent hs, ?_⟩ (World.stays_of_eq hsessions) ?_, .refl _ _⟩
  · rw [hsessions]
    exact h.channels
  · rw [htargets]
    exact fun t ht => ⟨t, ht, rfl, rfl⟩

lemma calm_serve (w : World) (s : SessionId) : Calm w { w with debugger := w.debugger.serve s } := by
  intro h
  refine ⟨.of_stays h ⟨h.coherent.serve s, ?_⟩ (w.informs_serve s).stays fun t ht => ⟨t, ht, rfl, rfl⟩, .refl _ _⟩
  intro x hx
  obtain ⟨i, hi, rfl⟩ := List.mem_iff_getElem.mp hx
  have hold : i < w.debugger.sessions.length := by rwa [Debugger.serve, List.length_modify] at hi
  simp only [Debugger.serve, List.getElem_modify]
  have hchannel := h.channels _ (List.getElem_mem hold)
  split
  · exact hchannel
  · exact hchannel

/-- Every access of a request that does not run anything is calm, provided that the session it inserts is there. -/
theorem Request.within_calm {r : Request} (hrun : ∀ launch, r ≠ .command (.run launch)) :
    r.work.Within fun w w' => r.Admitted w → Calm w w' := by
  have hcalm : ∀ {t : Task Wait World Unit}, t.Within Calm → t.Within fun w w' => r.Admitted w → Calm w w' := by
    refine Task.Within.mono ?_
    exact fun _ _ hstep _ => hstep
  have hallowed : Allowed Calm := allowed_calm
  by_cases hinsert : ∃ s, r = .insert s
  · obtain ⟨s, rfl⟩ := hinsert
    exact within_insertSession (fun w hadmitted => calm_setCurrent (hadmitted s rfl))
      (fun o => hcalm (hallowed.close o)) fun w _ => calm_serve w s
  · refine hcalm (hallowed.work r ?_ ?_)
    · exact fun launch hr => absurd hr (hrun launch)
    · exact fun s hr => absurd ⟨s, hr⟩ hinsert

end Debug.Bustle

namespace World

/-! ## Claims -/

/-- To connect a channel at whose door nobody is leaves all doors as they are, and says nothing. -/
lemma civil_connect {wanted : List String} (n : Network) {ch : Channel} (hdoor : ch.door = ⟨.notInitialized, 0, 0⟩)
    (hout : ch.outgoing = []) : Network.Civil wanted n (n.connect ch).2 := by
  have hchannel : ∀ d, (n.connect ch).2.channel d = n.channel d ∨ n.channel d = default ∧ (n.connect ch).2.channel d = ch := by
    intro d
    simp only [Network.connect, Network.channel, List.getD]
    rcases Nat.lt_trichotomy d n.channels.length with hd | rfl | hd
    · exact .inl (by rw [List.getElem?_append_left hd])
    · exact .inr (by simp)
    · left
      rw [List.getElem?_eq_none (by simp; omega), List.getElem?_eq_none (by omega)]
  refine ⟨fun d => ⟨?_, ?_⟩, Network.not_hands_of_eq wanted fun d => ?_⟩
  · intro hd
    show d < (n.channels ++ [ch]).length
    rw [List.length_append]
    exact Nat.lt_add_right 1 hd
  · rcases hchannel d with hsame | ⟨hdefault, hnew⟩
    · rw [hsame]
      exact .same _
    · rw [hdefault, hnew, hdoor]
      exact .same _
  · rcases hchannel d with hsame | ⟨hdefault, hnew⟩
    · rw [hsame]
    · rw [hdefault, hnew, hout]
      rfl

lemma length_connect (n : Network) (ch : Channel) : (n.connect ch).2.channels.length = n.channels.length + 1 :=
  List.length_append

/-- A target comes to a session that is there. -/
lemma continues_reserve {w : World} (h : w.Grounded) {launch : Launch} {x : SessionId}
    (hw : (w.reserve launch x).2.debugger.Coherent) : w.Continues (w.reserve launch x).2 :=
  .of_stays h ⟨hw, h.channels⟩ (stays_of_eq rfl) fun t ht => ⟨t, List.mem_append_left _ ht, rfl, rfl⟩

lemma onChannel_reserve (w : World) (launch : Launch) (x : SessionId) {t : Target}
    (ht : (w.reserve launch x).1 = .ok t) : ∃ c, (w.reserve launch x).2.OnChannel t.id c := by
  obtain rfl := Except.ok.inj ht
  exact ⟨_, _, List.mem_append_right _ (List.mem_singleton_self _), rfl, rfl⟩

/-- An adapter is started. -/
lemma continues_started {w w' : World} {language : String} (h : w.Grounded) (hstarted : Started w language w') :
    w.Continues w' := by
  obtain ⟨hcoherent, htargets, -⟩ := coherent_started h.coherent hstarted
  obtain ⟨ch, -, -, hnet⟩ := hstarted.connects
  obtain ⟨session, -, -, hchannel, hdebugger⟩ := hstarted.debugger
  have hsessions : w'.debugger.sessions = w.debugger.sessions ++ [session] := by
    rw [hdebugger, Debugger.setCurrent_sessions]
    rfl
  refine .of_stays h ⟨hcoherent, ?_⟩ ?_ ?_
  · rw [hsessions, hnet, length_connect]
    intro s hs
    rcases List.mem_append.mp hs with hs | hs
    · exact Nat.lt_succ_of_lt (h.channels s hs)
    · obtain rfl := List.mem_singleton.mp hs
      rw [hchannel]
      exact Nat.lt_succ_self _
  · rw [Stays, hsessions]
    exact (List.prefix_append ..).map _
  · rw [htargets]
    exact fun t ht => ⟨t, ht, rfl, rfl⟩

/-- A claim is calm, and its target is on a session over some channel. -/
theorem calm_claim (w : World) (launch : Launch) (root : Option Path) :
    w.Calm (w.claim launch root).2 ∧
      ∀ t, (w.claim launch root).1 = .ok t → ∃ c, (w.claim launch root).2.OnChannel t.id c := by
  have hcoherent := fun h => coherent_claim (w := w) h launch root
  have hclaimed := w.claimed launch root
  generalize w.claim launch root = r at hclaimed hcoherent
  cases hclaimed with
  | refused e => exact ⟨fun h => ⟨.refl h, .refl _ _⟩, fun _ hok => nomatch hok⟩
  | joins x entry isOpen free =>
    exact ⟨fun h => ⟨continues_reserve h (hcoherent h.coherent), .refl _ _⟩, fun t => w.onChannel_reserve launch x⟩
  | starts w' started =>
    refine ⟨fun h => ?_, fun t => w'.onChannel_reserve launch _⟩
    have hstarted := continues_started h started
    obtain ⟨ch, hdoor, hout, hnet⟩ := started.connects
    refine ⟨hstarted.trans (continues_reserve hstarted.grounded (hcoherent h.coherent)), ?_⟩
    show Network.Civil _ w.net w'.net
    rw [hnet]
    exact civil_connect w.net hdoor hout

/-! ## What else happens -/

/-- What happens to the world beside all requests: targets and the table stay, sessions and channels come, and about
this channel all is quiet. -/
structure Beside (c : ChannelId) (w w' : World) : Prop where
  net : Network.Quiet c w.net w'.net
  grows : w.net.channels.length ≤ w'.net.channels.length
  targets : w'.debugger.targets = w.debugger.targets
  nextTarget : w'.debugger.nextTarget = w.debugger.nextTarget
  current : w'.debugger.current = w.debugger.current
  sessions : ∃ more, w'.debugger.sessions = w.debugger.sessions ++ more ∧ ∀ s ∈ more, s.channel < w'.net.channels.length

lemma Beside.continues {c : ChannelId} {w w' : World} (h : w.Beside c w') (hw : w.Grounded) : w.Continues w' := by
  obtain ⟨more, hsessions, hmore⟩ := h.sessions
  refine .of_stays hw ⟨hw.coherent.append h.targets h.nextTarget h.current hsessions, ?_⟩ ?_ ?_
  · rw [hsessions]
    intro s hs
    rcases List.mem_append.mp hs with hs | hs
    · exact Nat.lt_of_lt_of_le (hw.channels s hs) h.grows
    · exact hmore s hs
  · rw [Stays, hsessions]
    exact (List.prefix_append ..).map _
  · rw [h.targets]
    exact fun t ht => ⟨t, ht, rfl, rfl⟩

end World

end Switchboard
