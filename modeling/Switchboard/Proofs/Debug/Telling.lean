import Switchboard.Debug.Running
import Switchboard.Proofs.Breakpoint.Topics
import Switchboard.Proofs.Debug.Requests

/-!
# What an adapter is told

* `Topic.told?`, `Topic.told`: what messages tell about a topic, read off the messages themselves;
* `Topic.wanted`: what an adapter should know about it;
* `Serves`: a world with one session, on a channel that takes messages;
* `Step`: what a step of the debugger leaves alone, and what it appends to the messages of the channel;
* `stretch_send`: telling a session about a topic is one step, and the adapter is told what it should know
  after that step;
* `stretch_finishing`: the end of the handshake.
-/

namespace Switchboard.Debug

open Breakpoint (Catalog)

namespace Topic

/-! ## Messages -/

/-- The arguments of a message that is a request of some name. -/
def argumentsOf? (command : String) (message : Json) : Option Json :=
  if (message.get? "command").bind Json.asStr? = some command then message.get? "arguments" else none

/-- What a message tells about a topic, if it does: breakpoints, or the names of filters. -/
def told? (message : Json) : Topic → Option (List Json)
  | file path => do
    let arguments ← argumentsOf? "setBreakpoints" message
    let text ← ((arguments.get? "source").bind (·.get? "path")).bind Json.asStr?
    if (Path.mk text).same path then (arguments.get? "breakpoints").bind Json.asArr? else none
  | exceptions => do
    let arguments ← argumentsOf? "setExceptionBreakpoints" message
    (arguments.get? "filters").bind Json.asArr?

/-- All that was told about a topic on a channel, in order. -/
def told (ch : Channel) (t : Topic) : List (List Json) := ch.outgoing.filterMap fun message => t.told? message

/-- The filters for the flags of the exception breakpoint. -/
def filters (w : World) (c : ChannelId) : List String :=
  Session.exceptionFilters (w.channel c).features w.debugger.exceptionFlags.1 w.debugger.exceptionFlags.2

/-- What the adapter on a channel should know about a topic. -/
def wanted (w : World) (c : ChannelId) : Topic → List Json
  | file path => (w.debugger.sourceBreakpoints path).map (·.2.toJson)
  | exceptions => (filters w c).map .str

lemma sourceBreakpoints_eq (b : Debugger) (path : Path) :
    (b.sourceBreakpoints path).map (·.2) = b.breakpoints.listing path := by
  rw [Debugger.sourceBreakpoints, Catalog.listing, List.map_filterMap]
  congr 1
  funext x
  rw [Option.map_map]
  exact Option.map_id' ..

/-- What an adapter should know about a file, however its path is spelled. -/
lemma wanted_file (w : World) (c : ChannelId) {path : Path} {t : Topic} (ht : (file path).Same t) :
    t.wanted w c = (w.debugger.breakpoints.listing path).map SourceBreakpoint.toJson := by
  cases t with
  | file other =>
    have hfile : w.debugger.breakpoints.forFile other = w.debugger.breakpoints.forFile path := by
      rw [Catalog.forFile, Catalog.forFile]
      congr 1
      exact List.filter_congr fun b _ => Breakpoint.isIn_congr ht.symm b
    have hlisting : w.debugger.breakpoints.listing other = w.debugger.breakpoints.listing path := by
      rw [Catalog.listing, Catalog.listing, hfile]
    rw [← hlisting, ← sourceBreakpoints_eq, List.map_map]
    rfl
  | exceptions => cases ht

/-- Tell a session about a topic. -/
def send (s : SessionId) : Topic → Task Wait World Unit
  | file path => Sync.fileWith s path
  | exceptions => Sync.exceptionsWith s

/-- A message about a topic says nothing about other ones. -/
def Tells (t : Topic) (message : Json) (content : Topic → List Json) : Prop :=
  ∀ u : Topic, (t.Same u → u.told? message = some (content u)) ∧ (¬ t.Same u → u.told? message = none)

lemma argumentsOf?_request (id : Int) (command : String) {arguments : Json} (harguments : arguments.isNull = false)
    (name : String) :
    argumentsOf? name (Dialect.sequenced.request id command arguments)
      = if command = name then some arguments else none := by
  simp [argumentsOf?, Dialect.request, Json.record, harguments, Json.get?, List.lookup, Json.asStr?]

lemma path_fileArguments (path : Path) (l : List SourceBreakpoint) :
    (((Sync.fileArguments path l).get? "source").bind (·.get? "path")).bind Json.asStr? = some path.text := by
  have hsource : (Sync.fileArguments path l).get? "source"
      = some (Source.toJson { name := path.fileName?, path := some path.text }) := rfl
  rw [hsource, Option.bind_some]
  cases hname : path.fileName? <;> rfl

lemma breakpoints_fileArguments (path : Path) (l : List SourceBreakpoint) :
    ((Sync.fileArguments path l).get? "breakpoints").bind Json.asArr? = some (l.map SourceBreakpoint.toJson) := rfl

lemma same_file_iff {p q : Path} : p.same q = true ↔ (file p).Same (file q) := by
  simp [Path.same, Same]

/-- What is sent for a file. -/
lemma tells_file (id : Int) (path : Path) {l : List SourceBreakpoint} {content : Topic → List Json}
    (hcontent : ∀ u, (file path).Same u → content u = l.map SourceBreakpoint.toJson) :
    (file path).Tells (Dialect.sequenced.request id "setBreakpoints" (Sync.fileArguments path l)) content := by
  intro u
  cases u with
  | file other =>
    have htold : (file other).told? (Dialect.sequenced.request id "setBreakpoints" (Sync.fileArguments path l))
        = if path.same other then some (l.map SourceBreakpoint.toJson) else none := by
      rw [told?, argumentsOf?_request id _ rfl, if_pos rfl]
      show ((((Sync.fileArguments path l).get? "source").bind (·.get? "path")).bind Json.asStr?).bind _ = _
      rw [path_fileArguments, Option.bind_some, breakpoints_fileArguments]
    rw [htold]
    constructor
    · intro hsame
      rw [if_pos (same_file_iff.mpr hsame), hcontent _ hsame]
    · intro hother
      rw [if_neg fun hsame => hother (same_file_iff.mp hsame)]
  | exceptions =>
    refine ⟨nofun, fun _ => ?_⟩
    rw [told?, argumentsOf?_request id _ rfl, if_neg (by decide)]
    rfl

/-- What is sent for exceptions. -/
lemma tells_exceptions (id : Int) {filters : List String} {content : Topic → List Json}
    (hcontent : content exceptions = filters.map .str) :
    exceptions.Tells (Dialect.sequenced.request id "setExceptionBreakpoints"
      (SetExceptionBreakpointsArguments.toJson { filters })) content := by
  intro u
  cases u with
  | file other =>
    refine ⟨nofun, fun _ => ?_⟩
    rw [told?, argumentsOf?_request id _ rfl, if_neg (by decide)]
    rfl
  | exceptions =>
    refine ⟨fun _ => ?_, fun hother => absurd trivial hother⟩
    rw [told?, argumentsOf?_request id _ rfl, if_pos rfl, hcontent]
    rfl

/-- The end of the handshake tells about nothing. -/
lemma told?_configurationDone (id : Int) (t : Topic) :
    t.told? (Dialect.sequenced.request id "configurationDone" .null) = none := by
  cases t <;> rfl

end Topic

/-! ## Steps -/

/-- A step of the debugger: its sessions and the features of a channel stay as they are, messages are appended, and
the catalog changes within some topics. -/
structure Step (c : ChannelId) (touched : Topic → Prop) (new : List (String × Path)) (said : List Json)
    (w w' : World) : Prop where
  sources : w'.debugger.sources = w.debugger.sources
  current : w'.debugger.current = w.debugger.current
  sessions : w'.debugger.sessions = w.debugger.sessions
  channels : w'.net.channels.length = w.net.channels.length
  features : (w'.channel c).features = (w.channel c).features
  dialect : (w'.channel c).dialect = (w.channel c).dialect
  outputBroken : (w'.channel c).outputBroken = (w.channel c).outputBroken
  outgoing : (w'.channel c).outgoing = (w.channel c).outgoing ++ said
  change : Catalog.Change touched new w.debugger.breakpoints w'.debugger.breakpoints

namespace Step

variable {c : ChannelId} {touched : Topic → Prop} {new : List (String × Path)} {said more : List Json} {w w' w'' : World}

lemma refl (h : Catalog.Sound w.debugger.breakpoints) : Step c touched new [] w w :=
  ⟨rfl, rfl, rfl, rfl, rfl, rfl, rfl, (List.append_nil _).symm, .refl h⟩

lemma trans (h : Step c touched new said w w') (h' : Step c touched new more w' w'') :
    Step c touched new (said ++ more) w w'' where
  sources := h'.sources.trans h.sources
  current := h'.current.trans h.current
  sessions := h'.sessions.trans h.sessions
  channels := h'.channels.trans h.channels
  features := h'.features.trans h.features
  dialect := h'.dialect.trans h.dialect
  outputBroken := h'.outputBroken.trans h.outputBroken
  outgoing := by rw [h'.outgoing, h.outgoing, List.append_assoc]
  change := h.change.trans h'.change

lemma mono {touched' : Topic → Prop} (h : Step c touched new said w w') (hsub : ∀ t, touched t → touched' t) :
    Step c touched' new said w w' :=
  { h with change := h.change.mono hsub }

/-- The catalog changes, and the channels stay as they are. -/
lemma of_change (hnet : w'.net = w.net) (hsources : w'.debugger.sources = w.debugger.sources)
    (hcurrent : w'.debugger.current = w.debugger.current) (hsessions : w'.debugger.sessions = w.debugger.sessions)
    (hchange : Catalog.Change touched new w.debugger.breakpoints w'.debugger.breakpoints) : Step c touched new [] w w' := by
  have hchannel : w'.channel c = w.channel c := by rw [World.channel, World.channel, hnet]
  refine ⟨hsources, hcurrent, hsessions, by rw [hnet], ?_, ?_, ?_, ?_, hchange⟩
  · rw [hchannel]
  · rw [hchannel]
  · rw [hchannel]
  · rw [hchannel, List.append_nil]

/-- The channel changes, and the debugger stays as it is. -/
lemma of_channel (hsound : Catalog.Sound w.debugger.breakpoints) (hc : c < w.net.channels.length)
    {f : Channel → Channel} (hw' : w' = { w with net := w.net.update c f })
    (hfeatures : (f (w.channel c)).features = (w.channel c).features)
    (hdialect : (f (w.channel c)).dialect = (w.channel c).dialect)
    (hout : (f (w.channel c)).outputBroken = (w.channel c).outputBroken)
    (hsaid : (f (w.channel c)).outgoing = (w.channel c).outgoing ++ said) : Step c touched new said w w' := by
  subst hw'
  have hchannel : World.channel { w with net := w.net.update c f } c = f (w.channel c) := Network.channel_update hc f
  refine ⟨rfl, rfl, rfl, ?_, ?_, ?_, ?_, ?_, .refl hsound⟩
  · exact List.length_modify ..
  · rw [hchannel, hfeatures]
  · rw [hchannel, hdialect]
  · rw [hchannel, hout]
  · rw [hchannel, hsaid]

/-- What was told is appended to what was told before. -/
lemma told_eq (h : Step c touched new said w w') (t : Topic) :
    t.told (w'.channel c) = t.told (w.channel c) ++ said.filterMap fun message => t.told? message := by
  rw [Topic.told, h.outgoing, List.filterMap_append]
  rfl

/-- What the adapter should know changes with the topics that are touched. -/
lemma wanted_eq (h : Step c touched new said w w') (hsound : Catalog.Sound w.debugger.breakpoints) {t : Topic}
    (ht : ¬ touched t) : t.wanted w' c = t.wanted w c := by
  have habout := h.change.about t ht
  cases t with
  | file path => rw [Topic.wanted_file w' c (.refl _), Topic.wanted_file w c (.refl _), Catalog.listing_congr habout]
  | exceptions =>
    rw [Topic.wanted, Topic.wanted, Topic.filters, Topic.filters, h.features, Catalog.flags_congr hsound h.change.sound habout]

end Step

/-! ## One session -/

/-- The debugger has one session, and its channel takes messages. -/
structure Serves (s : SessionId) (own : Session) (w : World) : Prop where
  current : w.debugger.current = [(own.language, s)]
  session : w.debugger.session s = own
  present : own.channel < w.net.channels.length
  dialect : (w.channel own.channel).dialect = .sequenced
  unbroken : (w.channel own.channel).outputBroken = false
  sound : Catalog.Sound w.debugger.breakpoints

lemma Step.serves {s : SessionId} {own : Session} {touched : Topic → Prop} {new : List (String × Path)} {said : List Json}
    {w w' : World} (h : Step own.channel touched new said w w') (hw : Serves s own w) : Serves s own w' where
  current := h.current.trans hw.current
  session := by
    rw [Debugger.session, h.sessions]
    exact hw.session
  present := by
    rw [h.channels]
    exact hw.present
  dialect := h.dialect.trans hw.dialect
  unbroken := h.outputBroken.trans hw.unbroken
  sound := h.change.sound

/-- A step that tells nothing and leaves the phase of the channel as it is. -/
def Quiet (c : ChannelId) (w w' : World) : Prop :=
  Step c (fun _ => False) [] [] w w' ∧ (w'.channel c).phase = (w.channel c).phase

lemma Quiet.trans {c : ChannelId} {w w' w'' : World} (h : Quiet c w w') (h' : Quiet c w' w'') : Quiet c w w'' :=
  ⟨h.1.trans h'.1, h'.2.trans h.2⟩

/-- Work that waits for an answer, and ends with the step after that. -/
def Awaiting (c : ChannelId) (P : World → World → Prop) (k : Task Wait World Unit) : Prop :=
  ∃ on next, k = .wait on next ∧ ∀ w : World, c < w.net.channels.length → Catalog.Sound w.debugger.breakpoints →
    ∃ w', next.stretch w = (.done (), w') ∧ P w w'

/-- When an answer comes the work that follows goes on. -/
lemma Awaiting.step? {c : ChannelId} {P : World → World → Prop} {k : Task Wait World Unit} (h : Awaiting c P k)
    (rest : Task Wait World Unit) {w : World} (hc : c < w.net.channels.length)
    (hsound : Catalog.Sound w.debugger.breakpoints) :
    (k.andThen fun _ => rest).step? World.holds w = none ∨
      ∃ w', P w w' ∧ (k.andThen fun _ => rest).step? World.holds w = some (rest.stretch w') := by
  obtain ⟨on, next, rfl, hnext⟩ := h
  obtain ⟨w', hstretch, hquiet⟩ := hnext w hc hsound
  have hrest : (next.andThen fun _ => rest).stretch w = rest.stretch w' := Task.stretch_andThen_of_done hstretch _
  have hstep : ((Task.wait on next).andThen fun _ => rest).step? World.holds w
      = if World.holds on w then some ((next.andThen fun _ => rest).stretch w) else none := rfl
  rw [hstep, hrest]
  by_cases hholds : World.holds on w = true
  · exact .inr ⟨w', hquiet, if_pos hholds⟩
  · exact .inl (if_neg hholds)

/-- A channel whose table of outstanding requests differs. -/
lemma quiet_pending {c : ChannelId} {w : World} (hc : c < w.net.channels.length)
    (hsound : Catalog.Sound w.debugger.breakpoints) (f : Pending → Pending) :
    Quiet c w { w with net := w.net.update c fun ch => { ch with pending := f ch.pending } } := by
  refine ⟨.of_channel hsound hc rfl rfl rfl rfl (List.append_nil _).symm, ?_⟩
  rw [World.channel, Network.channel_update hc]
  rfl

/-- A world in which a breakpoint's verifications are recorded. -/
lemma quiet_verify (c : ChannelId) {w : World} (hsound : Catalog.Sound w.debugger.breakpoints) (ids : List Nat)
    (responses : List BreakpointResponse) : Quiet c w (w.verify ids responses) :=
  ⟨.of_change rfl rfl rfl rfl (hsound.change_applyVerification ids responses), rfl⟩

/-- Breakpoints of a file go where their anchors are. -/
lemma step_relocate (c : ChannelId) {w : World} (hsound : Catalog.Sound w.debugger.breakpoints) (path : Path) :
    Step c (Topic.file path).Same [] [] w (w.relocate path) ∧ (w.relocate path).net = w.net := by
  have hdebugger : (w.relocate path).debugger = (w.debugger.relocate w.disk path).2 := by
    unfold World.relocate
    dsimp only
    split <;> rfl
  have hnet : (w.relocate path).net = w.net := by
    unfold World.relocate
    dsimp only
    split <;> rfl
  have hall : ∀ b ∈ w.debugger.breakpoints.forFile path, ∀ x ∈ w.debugger.breakpoints.entries, x.id = b.id →
      x.isIn path = true := by
    intro b hb x hx hid
    rw [Catalog.forFile, List.mem_mergeSort] at hb
    obtain ⟨hmem, hin⟩ := List.mem_filter.mp hb
    rw [hsound.eq_of_id_eq hx hmem hid]
    exact hin
  refine ⟨.of_change hnet ?_ ?_ ?_ ?_, hnet⟩ <;> rw [hdebugger] <;> unfold Debugger.relocate <;> dsimp only <;> split
  · rfl
  · rfl
  · rfl
  · rfl
  · rfl
  · rfl
  · exact .refl hsound
  · exact hsound.change_followAll hall

/-! ## Requests -/

/-- A request that is handed over is a message of its own. -/
lemma step_asked {s : SessionId} {own : Session} {w : World} (hw : Serves s own w) (r : Network.Request) :
    Step own.channel (fun _ => False) []
        [Dialect.sequenced.request (w.channel own.channel).nextId r.method r.params]
        w { w with net := w.net.update own.channel r.asked } ∧
      (World.channel { w with net := w.net.update own.channel r.asked } own.channel).phase
        = (w.channel own.channel).phase := by
  have hasked : r.asked (w.channel own.channel) = { (w.channel own.channel).enroll.2 with
      outgoing := (w.channel own.channel).outgoing
        ++ [(w.channel own.channel).dialect.request (w.channel own.channel).nextId r.method r.params] } :=
    congrArg Prod.snd (Network.Request.asked_eq hw.unbroken)
  constructor
  · apply Step.of_channel hw.sound hw.present rfl
    · rw [hasked]
      rfl
    · rw [hasked]
      rfl
    · rw [hasked]
      rfl
    · rw [hasked, hw.dialect]
  · have hchannel : World.channel { w with net := w.net.update own.channel r.asked } own.channel
        = r.asked (w.channel own.channel) := Network.channel_update hw.present _
    rw [hchannel, hasked]
    rfl

/-- A request whose outcome is taken in by other work. -/
lemma stretch_awaiting {s : SessionId} {own : Session} {w : World} (hw : Serves s own w)
    (hopen : (w.channel own.channel).isOpen = true) (command : String) (arguments : Json)
    {k : Except Channel.Fault Json → Task Wait World Unit} {P : World → World → Prop}
    (hP : ∀ w w' w'', Quiet own.channel w w' → P w' w'' → P w w'')
    (hk : ∀ result, ∀ w : World, own.channel < w.net.channels.length → Catalog.Sound w.debugger.breakpoints →
      ∃ w', (k result).stretch w = (.done (), w') ∧ P w w') :
    ∃ next w', ((World.onNet (Network.request own.channel command arguments).outcome).andThen k).stretch w
        = (next, w') ∧ Awaiting own.channel P next ∧
      Step own.channel (fun _ => False) [] [Dialect.sequenced.request (w.channel own.channel).nextId command arguments]
        w w' ∧
      (w'.channel own.channel).phase = (w.channel own.channel).phase := by
  let r : Network.Request := { method := command, params := arguments }
  obtain ⟨on, next, hfirst, hlast⟩ := World.stretch_ask r hw.present hopen hw.unbroken k
  obtain ⟨hasked, hphase⟩ := step_asked hw r
  refine ⟨_, _, hfirst, ⟨on, next, rfl, fun w hc hsound => ?_⟩, hasked, hphase⟩
  -- the outcome is taken out of the table, and then the work that follows goes on
  obtain ⟨result, f, hnext⟩ := hlast w
  have hquiet := quiet_pending hc hsound f
  have hc' : own.channel < (w.net.update own.channel fun ch => { ch with pending := f ch.pending }).channels.length :=
    Network.present_update hc _
  obtain ⟨w', hw', hP'⟩ := hk result _ hc' hquiet.1.change.sound
  exact ⟨w', hnext.trans hw', hP _ _ _ hquiet hP'⟩

/-- A step in which an adapter is told about a topic what it should know after that step. -/
def Sends (c : ChannelId) (t : Topic) (w w' : World) : Prop :=
  (∃ message, Step c t.Same [] [message] w w' ∧ t.Tells message fun u => u.wanted w' c) ∧
    (w'.channel c).phase = (w.channel c).phase

namespace Sends

variable {c : ChannelId} {t u : Topic} {w w' : World}

lemma told_eq (h : Sends c t w w') (hu : t.Same u) : u.told (w'.channel c) = u.told (w.channel c) ++ [u.wanted w' c] := by
  obtain ⟨⟨message, hstep, htells⟩, -⟩ := h
  rw [hstep.told_eq, List.filterMap_cons, (htells u).1 hu]
  rfl

lemma told_eq_of_not_same (h : Sends c t w w') (hu : ¬ t.Same u) : u.told (w'.channel c) = u.told (w.channel c) := by
  obtain ⟨⟨message, hstep, htells⟩, -⟩ := h
  rw [hstep.told_eq, List.filterMap_cons, (htells u).2 hu]
  exact List.append_nil _

lemma wanted_eq (h : Sends c t w w') (hsound : Catalog.Sound w.debugger.breakpoints) (hu : ¬ t.Same u) :
    u.wanted w' c = u.wanted w c := by
  obtain ⟨⟨message, hstep, -⟩, -⟩ := h
  exact hstep.wanted_eq hsound hu

end Sends

/-- After an answer was taken in the next topic is told about. -/
lemma Quiet.sends {c : ChannelId} {t : Topic} {w w' w'' : World} (h : Quiet c w w') (h' : Sends c t w' w'') :
    Sends c t w w'' := by
  obtain ⟨⟨message, hstep, htells⟩, hphase⟩ := h'
  exact ⟨⟨message, (h.1.mono fun _ hf => hf.elim).trans hstep, htells⟩, hphase.trans h.2⟩

/-- What is done with the answer of an adapter that was sent the breakpoints of a file. -/
def recorded (ids : List Nat) : Except Fault SetBreakpointsBody → Task Wait World Unit
  | .ok body => Task.modify fun w => w.verify ids body.breakpoints
  | .error _ => .done ()

/-- Telling a session about a file: its breakpoints go where their anchors are, and then those that are enabled are sent
under the path as it is spelled. -/
lemma stretch_fileWith_eq {s : SessionId} {own : Session} {w : World} (hw : Serves s own w)
    (hopen : (w.channel own.channel).isOpen = true) (path : Path) :
    ∃ k w' id, (Sync.fileWith s path).stretch w = (k, w') ∧ Awaiting own.channel (Quiet own.channel) k ∧
      Step own.channel (Topic.file path).Same []
        [Dialect.sequenced.request id "setBreakpoints" (Sync.fileArguments path (w'.debugger.breakpoints.listing path))]
        w w' ∧
      (w'.channel own.channel).phase = (w.channel own.channel).phase := by
  obtain ⟨hmoved, hnet⟩ := step_relocate own.channel hw.sound path
  have hw₁ := hmoved.serves hw
  have hchannel : (w.relocate path).channel own.channel = w.channel own.channel := by
    rw [World.channel, World.channel, hnet]
  let l := (w.relocate path).debugger.sourceBreakpoints path
  let record := recorded (l.map (·.1))
  -- whatever the answer, at most verifications are recorded
  have hrecord : ∀ result, ∀ w : World, own.channel < w.net.channels.length →
      Catalog.Sound w.debugger.breakpoints →
      ∃ w', (record (Session.reading SetBreakpointsBody.shape "setBreakpoints" result)).stretch w = (.done (), w') ∧
        Quiet own.channel w w' := by
    intro result w _ hsound
    cases Session.reading SetBreakpointsBody.shape "setBreakpoints" result with
    | ok body => exact ⟨_, rfl, quiet_verify own.channel hsound _ _⟩
    | error e => exact ⟨w, rfl, .refl hsound, rfl⟩
  have hsend : (Sync.fileWith s path).stretch w
      = ((World.call (((w.relocate path).debugger.session s).requestAs SetBreakpointsBody.shape "setBreakpoints"
          (Sync.fileArguments path (l.map (·.2))))).outcome.andThen record).stretch (w.relocate path) := by
    rw [Sync.fileWith, Task.stretch_modify_bind, Task.stretch_state_bind]
    rfl
  obtain ⟨k, w', hk, hawaiting, hasked, hphase⟩ := stretch_awaiting hw₁ (hchannel ▸ hopen) "setBreakpoints"
    (Sync.fileArguments path (l.map (·.2)))
    (k := fun reply => record (Session.reading SetBreakpointsBody.shape "setBreakpoints" reply))
    (P := Quiet own.channel) (fun _ _ _ => Quiet.trans) hrecord
  -- the message is made from the catalog after the relocation, which is the one after the step
  have hlisting : w'.debugger.breakpoints.listing path = l.map (·.2) := by
    rw [Catalog.listing_congr (hasked.change.about (.file path) not_false), Topic.sourceBreakpoints_eq]
  refine ⟨k, w', ((w.relocate path).channel own.channel).nextId, ?_, hawaiting, ?_, ?_⟩
  · rw [hsend, hw₁.session, Session.outcome_call_requestAs_andThen]
    exact hk
  · rw [hlisting]
    exact hmoved.trans (hasked.mono fun _ h => h.elim)
  · rw [hphase, hchannel]

/-- Telling a session about a file. -/
lemma stretch_fileWith {s : SessionId} {own : Session} {w : World} (hw : Serves s own w)
    (hopen : (w.channel own.channel).isOpen = true) (path : Path) :
    ∃ k w', (Sync.fileWith s path).stretch w = (k, w') ∧ Awaiting own.channel (Quiet own.channel) k ∧
      Sends own.channel (.file path) w w' := by
  obtain ⟨k, w', id, hk, hawaiting, hstep, hphase⟩ := stretch_fileWith_eq hw hopen path
  refine ⟨k, w', hk, hawaiting, ⟨_, hstep, Topic.tells_file id path fun u hu => ?_⟩, hphase⟩
  exact Topic.wanted_file w' own.channel hu

/-- Telling a session about exceptions. -/
lemma stretch_exceptionsWith {s : SessionId} {own : Session} {w : World} (hw : Serves s own w)
    (hopen : (w.channel own.channel).isOpen = true) :
    ∃ k w', (Sync.exceptionsWith s).stretch w = (k, w') ∧ Awaiting own.channel (Quiet own.channel) k ∧
      Sends own.channel .exceptions w w' := by
  let arguments := SetExceptionBreakpointsArguments.toJson { filters := Topic.filters w own.channel }
  have hsend : (Sync.exceptionsWith s).stretch w
      = ((World.call ((w.debugger.session s).request "setExceptionBreakpoints"
          (SetExceptionBreakpointsArguments.toJson { filters := Topic.filters w (w.debugger.session s).channel }))).outcome.andThen fun _ =>
            .done ()).stretch w := rfl
  obtain ⟨k, w', hk, hawaiting, hasked, hphase⟩ := stretch_awaiting hw hopen "setExceptionBreakpoints" arguments
    (k := fun _ => .done ()) (P := Quiet own.channel) (fun _ _ _ => Quiet.trans)
    fun _ w _ hsound => ⟨w, rfl, .refl hsound, rfl⟩
  refine ⟨k, w', ?_, hawaiting, ⟨_, hasked.mono fun _ h => h.elim, ?_⟩, hphase⟩
  · rw [hsend, hw.session, Session.outcome_call_request_andThen]
    exact hk
  · apply Topic.tells_exceptions
    rw [hasked.wanted_eq hw.sound not_false]
    rfl

/-- Telling a session about a topic is a single step, after which only the answer is taken in. -/
theorem stretch_send {s : SessionId} {own : Session} {w : World} (hw : Serves s own w)
    (hopen : (w.channel own.channel).isOpen = true) (t : Topic) :
    ∃ k w', (t.send s).stretch w = (k, w') ∧ Awaiting own.channel (Quiet own.channel) k ∧
      Sends own.channel t w w' := by
  cases t with
  | file path => exact stretch_fileWith hw hopen path
  | exceptions => exact stretch_exceptionsWith hw hopen

/-! ## The end of the handshake -/

/-- The second half of the handshake. -/
def finishing (s : SessionId) : Task Wait World Unit := do
  let session ← Task.view fun w => w.debugger.session s
  let _ ← (World.call session.finishConfiguration).outcome

/-- A step that tells nothing and makes the session ready, if its channel is open. -/
def Readies (c : ChannelId) (w w' : World) : Prop :=
  Step c (fun _ => False) [] [] w w' ∧ ((w.channel c).isOpen = true → (w'.channel c).phase = .ready)

lemma Quiet.readies {c : ChannelId} {w w' w'' : World} (h : Quiet c w w') (h' : Readies c w' w'') : Readies c w w'' := by
  refine ⟨h.1.trans h'.1, fun hopen => h'.2 ?_⟩
  rw [Channel.isOpen, h.2]
  exact hopen

/-- The session becomes ready. -/
def readied (c : ChannelId) (w : World) : World := { w with net := w.net.update c (·.setPhase .ready) }

lemma readies_readied {c : ChannelId} {w : World} (hc : c < w.net.channels.length)
    (hsound : Catalog.Sound w.debugger.breakpoints) : Readies c w (readied c w) := by
  have hchannel : (readied c w).channel c = (w.channel c).setPhase .ready := Network.channel_update hc _
  constructor
  · apply Step.of_channel hsound hc rfl
    all_goals
      unfold Channel.setPhase
      split
    all_goals first | rfl | exact (List.append_nil _).symm
  · intro hopen
    have hphase : (w.channel c).phase ≠ .closed := by simpa [Channel.isOpen] using hopen
    rw [hchannel, Channel.setPhase, if_neg hphase]

/-- The second half of the handshake as accesses of the network: whether the adapter wants to hear of the end is looked
up in one of them, and in the last one the session becomes ready. -/
lemma outcome_finishConfiguration (own : Session) :
    own.finishConfiguration.outcome = Task.access id fun n =>
      if own.wantsConfigurationDone (n.channel own.channel).features then
        (own.request "configurationDone" .null).outcome.andThen fun outcome =>
          Task.access (fun n => n.update own.channel (·.setPhase .ready)) fun _ => .done (outcome.map fun _ => ())
      else Task.access (fun n => n.update own.channel (·.setPhase .ready)) fun _ => .done (.ok ()) := by
  show Task.access id _ = _
  congr 1
  funext n
  show _ = ite _ _ _
  by_cases hwanted : own.wantsConfigurationDone (n.channel own.channel).features = true
  · rw [if_pos hwanted]
    simp only [Task.andThen, Function.comp, ExceptT.bindCont, hwanted, if_true]
    show ((own.request "configurationDone" .null).outcome.andThen _).andThen _ = _
    rw [Task.andThen_assoc]
    congr 1
    funext outcome
    cases outcome <;> rfl
  · rw [if_neg hwanted]
    simp only [Task.andThen, Function.comp, ExceptT.bindCont, hwanted]
    rfl

/-- What is left of the handshake when it is known whether the adapter wants to hear of its end. -/
lemma stretch_finishing_eq {s : SessionId} {own : Session} {w : World} (hw : Serves s own w) :
    (finishing s).stretch w
      = if own.wantsConfigurationDone (w.channel own.channel).features then
          ((World.call (own.request "configurationDone" .null)).outcome.andThen fun _ =>
            Task.modify (readied own.channel)).stretch w
        else (.done (), readied own.channel w) := by
  have hstart : (finishing s).stretch w
      = ((World.onNet (w.debugger.session s).finishConfiguration.outcome).andThen fun _ => .done ()).stretch w := rfl
  rw [hstart, hw.session, outcome_finishConfiguration]
  show ((World.onNet (if own.wantsConfigurationDone (w.channel own.channel).features then _ else _)).andThen _).stretch w
    = _
  by_cases hwanted : own.wantsConfigurationDone (w.channel own.channel).features = true
  · rw [if_pos hwanted, if_pos hwanted, World.onNet, Task.zoom_andThen, Task.andThen_assoc]
    rfl
  · rw [if_neg hwanted, if_neg hwanted]
    rfl

/-- The second half of the handshake makes the session ready, at once or when the adapter has answered. -/
theorem stretch_finishing {s : SessionId} {own : Session} {w : World} (hw : Serves s own w)
    (hopen : (w.channel own.channel).isOpen = true) :
    (∃ w', (finishing s).stretch w = (.done (), w') ∧ Readies own.channel w w') ∨
      ∃ k w' said, (finishing s).stretch w = (k, w') ∧ Awaiting own.channel (Readies own.channel) k ∧
        Step own.channel (fun _ => False) [] [said] w w' ∧ (∀ t : Topic, t.told? said = none) ∧
        (w'.channel own.channel).phase = (w.channel own.channel).phase := by
  rw [stretch_finishing_eq hw]
  by_cases hwanted : own.wantsConfigurationDone (w.channel own.channel).features = true
  · obtain ⟨k, w', hk, hawaiting, hasked, hphase⟩ := stretch_awaiting hw hopen "configurationDone" .null
      (k := fun _ => Task.modify (readied own.channel)) (P := Readies own.channel) (fun _ _ _ => Quiet.readies)
      fun _ w hc hsound => ⟨_, rfl, readies_readied hc hsound⟩
    refine .inr ⟨k, w', _, ?_, hawaiting, hasked, Topic.told?_configurationDone _, hphase⟩
    rw [if_pos hwanted, Session.outcome_call_request_andThen]
    exact hk
  · refine .inl ⟨readied own.channel w, ?_, readies_readied hw.present hw.sound⟩
    rw [if_neg hwanted]

end Switchboard.Debug
