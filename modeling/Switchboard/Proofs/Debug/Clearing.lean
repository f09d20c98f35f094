import Switchboard.Proofs.Debug.Convergence

/-!
# Clearing breakpoints under every spelling

Paths are compared by components, but an adapter is told of a file under a path as it is spelled, and what it was told
under one spelling does not end what it was told under another.

* `toldAs?`, `State.toldAs`, `State.Blank`: what an adapter was told under one spelling, read off the messages;
* `Rests.Speech`, `Run.Says`: one step of a call, and one action, with the spelling under which a file is told about;
* `Run.Sweep`: a clear on its way: which of its errands are behind it, and what was told since;
* `Run.OneSpelling`, `Run.Informed`, `Run.UpToDate`: runs in which no file has two spellings;
* `clear_reaches_iff`: which spellings are told of a clear.
-/

namespace Switchboard.Debug.Convergence

open Breakpoint (Catalog)
open Errand (works)

/-! ## What is told under a spelling -/

/-- What a message tells of the breakpoints of the file whose path is spelled like this. -/
def toldAs? (text : String) (message : Json) : Option (List Json) := do
  let arguments ← Topic.argumentsOf? "setBreakpoints" message
  let given ← ((arguments.get? "source").bind (·.get? "path")).bind Json.asStr?
  if given = text then (arguments.get? "breakpoints").bind Json.asArr? else none

/-- All that was told on a channel under a spelling, in order. -/
def spoken (ch : Channel) (text : String) : List (List Json) := ch.outgoing.filterMap (toldAs? text)

/-- All that the adapter was told under a spelling, in order. -/
def State.toldAs (own : Session) (st : State) (text : String) : List (List Json) :=
  spoken (st.world.channel own.channel) text

/-- The last list that was told under a spelling; nothing is like an empty one. -/
def State.lastAs (own : Session) (st : State) (text : String) : List Json := (st.toldAs own text).getLast?.getD []

/-- The last list that was told under a spelling is empty, or none was told under it. -/
def State.Blank (own : Session) (st : State) (text : String) : Prop := st.lastAs own text = []

/-- What an errand tells under a spelling. -/
def lists (w : World) (text : String) : Errand → List (List Json)
  | .file _ path =>
    if path.text = text then [(w.debugger.breakpoints.listing path).map SourceBreakpoint.toJson] else []
  | .exceptions => []

lemma toldAs?_fileArguments (id : Int) (path : Path) (l : List SourceBreakpoint) (text : String) :
    toldAs? text (Dialect.sequenced.request id "setBreakpoints" (Sync.fileArguments path l))
      = if path.text = text then some (l.map SourceBreakpoint.toJson) else none := by
  rw [toldAs?, Topic.argumentsOf?_request id _ rfl, if_pos rfl]
  show ((((Sync.fileArguments path l).get? "source").bind (·.get? "path")).bind Json.asStr?).bind _ = _
  rw [Topic.path_fileArguments, Option.bind_some, Topic.breakpoints_fileArguments]

/-- What is told under a spelling is told about the file. -/
lemma told?_of_toldAs? {text : String} {message : Json} {l : List Json} (h : toldAs? text message = some l) :
    (Topic.file ⟨text⟩).told? message = some l := by
  obtain ⟨arguments, harguments, h⟩ := Option.bind_eq_some_iff.mp h
  obtain ⟨given, hgiven, h⟩ := Option.bind_eq_some_iff.mp h
  by_cases htext : given = text
  · rw [if_pos htext] at h
    have hsame : (Path.mk given).same ⟨text⟩ = true := by rw [htext, Path.same, decide_eq_true rfl]
    rw [Topic.told?, harguments]
    show Option.bind (((arguments.get? "source").bind (·.get? "path")).bind Json.asStr?) _ = _
    rw [hgiven, Option.bind_some, if_pos hsame, h]
  · rw [if_neg htext] at h
    cases h

lemma toldAs?_eq_none {text : String} {message : Json} (h : (Topic.file ⟨text⟩).told? message = none) :
    toldAs? text message = none := by
  cases htold : toldAs? text message with
  | none => rfl
  | some l =>
    rw [told?_of_toldAs? htold] at h
    cases h

section Steps

variable {s : SessionId} {own : Session} {w w' : World}

/-- A step that tells about no topic tells nothing under any spelling. -/
lemma Silent.spoken_eq {c : ChannelId} (h : Silent c w w') (text : String) :
    spoken (w'.channel c) text = spoken (w.channel c) text := by
  obtain ⟨said, hstep, hsaid⟩ := h
  have hnothing : said.filterMap (toldAs? text) = [] := by
    rw [List.filterMap_eq_nil_iff]
    exact fun message hmessage => toldAs?_eq_none (hsaid message hmessage _)
  rw [spoken, hstep.outgoing, List.filterMap_append, hnothing, List.append_nil]
  rfl

/-- What an errand has to tell is told under the spelling of its path. -/
lemma stretch_send_as (hw : Serves s own w) (hopen : (w.channel own.channel).isOpen = true) (e : Errand) :
    ∃ on next w', (e.topic.send s).stretch w = (.wait on next, w') ∧
      Awaiting own.channel (Quiet own.channel) (.wait on next) ∧ Sends own.channel e.topic w w' ∧
      ∀ text, spoken (w'.channel own.channel) text = spoken (w.channel own.channel) text ++ lists w' text e := by
  obtain ⟨k, w', hk, hawaiting, hsends⟩ := stretch_send hw hopen e.topic
  obtain ⟨on, next, rfl, hnext⟩ := hawaiting
  refine ⟨on, next, w', hk, ⟨on, next, rfl, hnext⟩, hsends, fun text => ?_⟩
  cases e with
  | file project path =>
    obtain ⟨k, w₁, id, hk₁, -, hstep, -⟩ := stretch_fileWith_eq hw hopen path
    obtain ⟨-, rfl⟩ := Prod.mk.inj (hk₁.symm.trans hk)
    rw [spoken, hstep.outgoing, List.filterMap_append, List.filterMap_cons, toldAs?_fileArguments, lists]
    by_cases hpath : path.text = text
    · rw [if_pos hpath, if_pos hpath]
      rfl
    · rw [if_neg hpath, if_neg hpath]
      rfl
  | exceptions =>
    obtain ⟨⟨message, hstep, htells⟩, -⟩ := hsends
    have hnothing : toldAs? text message = none := toldAs?_eq_none ((htells (.file ⟨text⟩)).2 not_false)
    rw [spoken, hstep.outgoing, List.filterMap_append, List.filterMap_cons, hnothing]
    rfl

/-- One step of a call that has made its change, with the spelling under which it tells about a file. -/
inductive Rests.Speech (s : SessionId) (own : Session) (w w' : World) (es : List Errand) (work' : Task Wait World Unit) : Prop where
  | quiet (world : Quiet own.channel w w') (rests : Rests own.channel es work')
  | speaks (e : Errand) (rest : List Errand) (errands : es = e :: rest) (world : Sends own.channel e.topic w w')
      (concerns : e.Concerns w own) (rests : Rests own.channel rest work')
      (said : ∀ text, spoken (w'.channel own.channel) text = spoken (w.channel own.channel) text ++ lists w' text e)
  | skips (e : Errand) (rest : List Errand) (errands : es = e :: rest) (world : w' = w)
      (passed : ¬ ((w.channel own.channel).phase = .ready ∧ e.Concerns w own)) (rests : Rests own.channel rest work')

lemma Rests.speech {es : List Errand} {work work' : Task Wait World Unit} (h : Rests own.channel es work)
    (hw : Serves s own w) (hopen : (w.channel own.channel).isOpen = true)
    (hstep : work.step? World.holds w = some (work', w')) : Rests.Speech s own w w' es work' := by
  cases h with
  | errands =>
    cases es with
    | nil => cases hstep
    | cons e rest =>
      rcases Errand.step_works_cases hw hopen e rest with ⟨hskip, hpassed⟩ | ⟨-, hconcerns, hsend⟩
      · rw [hskip] at hstep
        obtain ⟨rfl, rfl⟩ := Prod.mk.inj (Option.some.inj hstep)
        exact .skips e rest rfl rfl hpassed .errands
      · obtain ⟨on, next, w₁, hk, hawaiting, hsends, hsaid⟩ := stretch_send_as hw hopen e
        rw [hsend on next w₁ hk] at hstep
        obtain ⟨rfl, rfl⟩ := Prod.mk.inj (Option.some.inj hstep)
        exact .speaks e rest rfl hsends hconcerns (.answer hawaiting) hsaid
  | answer h =>
    rcases h.step? (works es) hw.present hw.sound with hnone | ⟨w₁, hquiet, hsome⟩
    · rw [hnone] at hstep
      cases hstep
    · rw [hsome, Errand.stretch_works] at hstep
      obtain ⟨rfl, rfl⟩ := Prod.mk.inj (Option.some.inj hstep)
      exact .quiet hquiet .errands

end Steps

/-! ## Catalogs without line breakpoints -/

/-- There is no line breakpoint. -/
def Bare (c : Catalog) : Prop := ∀ b ∈ c.entries, Catalog.fileOf? b = none

lemma Bare.of_change {c d : Catalog} {touched : Topic → Prop} (h : Bare c) (hchange : Catalog.Change touched [] c d) :
    Bare d := by
  intro b hb
  cases hfile : Catalog.fileOf? b with
  | none => rfl
  | some f =>
    rcases hchange.files b hb f hfile with hnew | ⟨a, ha, haf⟩
    · cases hnew
    · rw [h a ha] at haf
      cases haf

lemma exists_fileOf?_of_isIn {b : Breakpoint} {path : Path} (h : b.isIn path = true) :
    ∃ f, Catalog.fileOf? b = some f ∧ f.2.same path = true := by
  obtain ⟨p, hp, hsame⟩ := Breakpoint.isIn_iff.mp h
  rw [Breakpoint.path?] at hp
  cases hkind : b.kind with
  | line project q line column anchor =>
    rw [hkind] at hp
    obtain rfl := Option.some.inj hp
    exact ⟨(project, q), by rw [Catalog.fileOf?, hkind], decide_eq_true hsame⟩
  | exception caught uncaught =>
    rw [hkind] at hp
    cases hp

lemma Bare.listing_eq {c : Catalog} (h : Bare c) (path : Path) : c.listing path = [] := by
  have hnone : c.forFile path = [] := by
    rw [List.eq_nil_iff_forall_not_mem]
    intro b hb
    obtain ⟨hmem, hin⟩ := Catalog.mem_forFile.mp hb
    obtain ⟨f, hf, -⟩ := exists_fileOf?_of_isIn hin
    rw [h b hmem] at hf
    cases hf
  rw [Catalog.listing, hnone]
  rfl

/-! ## One action -/

lemma step?_of_over {work : Task Wait World Unit} (hover : work.result?.isSome = true) (w : World) :
    work.step? World.holds w = none := by
  cases work with
  | done _ => rfl
  | access _ _ => cases hover
  | wait _ _ => cases hover

namespace Run

variable {r : Run} {n : Nat}

/-- What an action does to what is told: nothing, or a call makes its change and owes errands from then on, or a call
does one of its errands. -/
inductive Says (r : Run) (n : Nat) : Prop where
  | silent (world : Silent r.own.channel (r.state n).world (r.state (n + 1)).world)
  | changes (call : Editing.Call) (es : List Errand)
      (owes : call.Owes r.own.channel (r.state n).world es (r.state (n + 1)).world)
      (known : ∀ e ∈ es, ∀ f, e.file? = some f → r.Known n f)
      (owed : ∀ e ∈ es, ∀ t, e.topic.Same t → e.Concerns (r.state (n + 1)).world r.own → r.Owes (n + 1) t)
  | speaks (e : Errand) (world : Sends r.own.channel e.topic (r.state n).world (r.state (n + 1)).world)
      (concerns : e.Concerns (r.state n).world r.own) (known : ∀ f, e.file? = some f → r.Known n f)
      (said : ∀ text, (r.state (n + 1)).toldAs r.own text
        = (r.state n).toldAs r.own text ++ lists (r.state (n + 1)).world text e)

lemma Held.spoken (h : r.Held n) (hroom : (r.state n).world.debugger.breakpoints.nextId + 1 < Catalog.idLimit)
    (ha : r.schedule n ≠ .stepHandshake) : r.Says n := by
  have hturn : Turn r.own (r.schedule n) (r.state n) (r.state (n + 1)) := turn _ ha
  have hstay (hworld : (r.state (n + 1)).world = (r.state n).world) : r.Says n := by
    refine .silent ?_
    rw [hworld]
    exact silent_of_step (.refl h.serves.sound)
  cases hturn with
  | idle hworld _ => exact hstay hworld
  | places call _ hworld _ => exact hstay hworld
  | outside world channel others helse _ =>
    refine .silent ?_
    rw [helse]
    exact silent_elsewhere h.serves world channel others
  | steps i work work' hold hstep hcalls =>
    have hwork := List.mem_of_getElem? hold
    rcases h.progress hroom hwork hstep with ⟨call, es, howes, hnew, rfl⟩ | ⟨es, hrests, hknown⟩
    · obtain ⟨hlt, -⟩ := List.getElem?_eq_some_iff.mp hold
      refine .changes call es howes (fun e he f hf => ?_) fun e he t hsame hconcerns => ?_
      · rcases howes.files e he f hf with hmem | ⟨b, hb, hbf⟩
        · exact hnew f hmem
        · exact h.files b hb f hbf
      · refine ⟨i, works es, es, ?_, .errands, e, he, hsame, hconcerns⟩
        rw [hcalls, List.getElem?_set_self hlt]
    · cases hrests.speech h.serves h.opened hstep with
      | quiet hquiet _ => exact .silent (silent_of_step hquiet.1)
      | speaks e rest hes hsends hconcerns _ hsaid =>
        exact .speaks e hsends hconcerns (hknown e (hes ▸ List.mem_cons_self ..)) hsaid
      | skips e rest _ hworld _ _ => exact hstay hworld

/-- Something is told under a spelling only when a file of the session is spelled like this. -/
lemma Says.toldAs_eq (h : r.Says n) (hheld : r.Held n) {text : String}
    (hnone : ∀ f, r.Known n f → Running.Admits r.start.debugger r.own.language f → f.2.text ≠ text) :
    (r.state (n + 1)).toldAs r.own text = (r.state n).toldAs r.own text := by
  cases h with
  | silent hsilent => exact hsilent.spoken_eq text
  | changes call es howes _ _ => rw [State.toldAs, State.toldAs, World.channel, World.channel, howes.net]
  | speaks e _ hconcerns hknown hsaid =>
    have hnothing : lists (r.state (n + 1)).world text e = [] := by
      cases e with
      | file project path =>
        exact if_neg (hnone (project, path) (hknown _ rfl) ((concerns_congr hheld.sources _).mp hconcerns))
      | exceptions => rfl
    rw [hsaid text, hnothing, List.append_nil]

/-! ## A clear on its way -/

/-- An errand is for a file that is spelled like this, and the session is to be told of it. -/
def Reaches (r : Run) (text : String) (e : Errand) : Prop :=
  ∃ f, e.file? = some f ∧ f.2.text = text ∧ Running.Admits r.start.debugger r.own.language f

/-- A clear that is called in action `m`, after everything else: it has not begun, or some of its errands are behind it
and those that are left belong to what is left of it. -/
inductive Sweep (r : Run) (m l : Nat) : Prop where
  | fresh (calls : (r.state l).calls = (r.state m).calls ++ [Editing.Call.clear.work])
      (entries : (r.state l).world.debugger.breakpoints.entries = (r.state m).world.debugger.breakpoints.entries)
      (told : ∀ text, (r.state l).toldAs r.own text = (r.state m).toldAs r.own text)
  | under (past left : List Errand) (work : Task Wait World Unit) (calls : (r.state l).calls = (r.state m).calls ++ [work])
      (rests : Rests r.own.channel left work)
      (errands : Editing.Call.errandsOf (r.state m).world.debugger.breakpoints.entries = past ++ left)
      (bare : Bare (r.state l).world.debugger.breakpoints)
      (told : ∀ text, (r.state l).Blank r.own text ↔ (r.state m).Blank r.own text ∨ ∃ e ∈ past, r.Reaches text e)

namespace Sweep

variable {m l : Nat}

lemma called (hm : r.schedule m = .call .clear) : r.Sweep m (m + 1) := by
  have hstate : r.state (m + 1) = { r.state m with calls := (r.state m).calls ++ [Editing.Call.clear.work] } := by
    rw [Run.state, hm]
    rfl
  refine .fresh ?_ ?_ fun text => ?_
  · rw [hstate]
  · rw [hstate]
  · rw [hstate]
    rfl

/-- The clear waits for its turn, or for an answer. -/
lemma stays (h : r.Sweep m l) (hcalls : (r.state (l + 1)).calls = (r.state l).calls)
    (hbreakpoints : (r.state (l + 1)).world.debugger.breakpoints = (r.state l).world.debugger.breakpoints)
    (htold : ∀ text, (r.state (l + 1)).toldAs r.own text = (r.state l).toldAs r.own text) : r.Sweep m (l + 1) := by
  cases h with
  | fresh hcalls' hentries htold' =>
    refine .fresh (hcalls.trans hcalls') ?_ fun text => (htold text).trans (htold' text)
    rw [hbreakpoints, hentries]
  | under past left work hcalls' hrests herrands hbare htold' =>
    refine .under past left work (hcalls.trans hcalls') hrests herrands ?_ fun text => ?_
    · rw [hbreakpoints]
      exact hbare
    · rw [State.Blank, State.lastAs, htold text]
      exact htold' text

/-- The first step of the clear: the catalog is empty, and there is an errand for every file that was in it. -/
lemma begins
    (hentries : (r.state l).world.debugger.breakpoints.entries = (r.state m).world.debugger.breakpoints.entries)
    (htold : ∀ text, (r.state l).toldAs r.own text = (r.state m).toldAs r.own text) {work' : Task Wait World Unit}
    (hstep : Editing.Call.clear.work.step? World.holds (r.state l).world = some (work', (r.state (l + 1)).world))
    (hcalls' : (r.state (l + 1)).calls = (r.state m).calls ++ [work']) : r.Sweep m (l + 1) := by
  rcases step?_work .clear (r.state l).world with hnone | hsome
  · rw [hnone] at hstep
    cases hstep
  · rw [hsome] at hstep
    obtain ⟨rfl, hworld⟩ := Prod.mk.inj (Option.some.inj hstep)
    refine .under [] _ _ hcalls' .errands ?_ ?_ fun text => ?_
    · rw [← hentries]
      rfl
    · rw [← hworld]
      exact List.forall_mem_nil _
    · have hsame : (r.state (l + 1)).toldAs r.own text = (r.state m).toldAs r.own text := by
        rw [← htold text, State.toldAs, ← hworld]
        rfl
      rw [State.Blank, State.lastAs, hsame]
      exact ⟨.inl, fun h => h.elim id fun ⟨_, he, _⟩ => absurd he List.not_mem_nil⟩

/-- What is told in an errand is that there is nothing. -/
lemma blank_iff_of_said {w' : World} (hbare : Bare w'.debugger.breakpoints) {e : Errand} {text : String}
    (hsaid : (r.state (l + 1)).toldAs r.own text = (r.state l).toldAs r.own text ++ lists w' text e) :
    (r.state (l + 1)).Blank r.own text ↔ (r.state l).Blank r.own text ∨ ∃ f, e.file? = some f ∧ f.2.text = text := by
  rw [State.Blank, State.Blank, State.lastAs, State.lastAs, hsaid]
  cases e with
  | file project path =>
    by_cases hpath : path.text = text
    · rw [lists, if_pos hpath, hbare.listing_eq, List.getLast?_concat]
      exact iff_of_true rfl (.inr ⟨_, rfl, hpath⟩)
    · rw [lists, if_neg hpath, List.append_nil]
      refine ⟨.inl, fun h => h.elim id ?_⟩
      rintro ⟨f, hf, htext⟩
      obtain rfl := Option.some.inj hf
      exact absurd htext hpath
  | exceptions =>
    rw [lists, List.append_nil]
    refine ⟨.inl, fun h => h.elim id ?_⟩
    rintro ⟨f, hf, -⟩
    cases hf

/-- A further step of the clear: an answer is taken in, or the next errand is done or passed. -/
lemma goes {past left : List Errand} {work work' : Task Wait World Unit} (hrests : Rests r.own.channel left work)
    (herrands : Editing.Call.errandsOf (r.state m).world.debugger.breakpoints.entries = past ++ left)
    (hbare : Bare (r.state l).world.debugger.breakpoints)
    (htold : ∀ text, (r.state l).Blank r.own text ↔ (r.state m).Blank r.own text ∨ ∃ e ∈ past, r.Reaches text e)
    (hheld : r.Held l) (hready : (r.state l).IsReady r.own)
    (hstep : work.step? World.holds (r.state l).world = some (work', (r.state (l + 1)).world))
    (hcalls' : (r.state (l + 1)).calls = (r.state m).calls ++ [work']) : r.Sweep m (l + 1) := by
  -- with one more errand behind it, what is told is empty where that errand reaches
  have hnext {e : Errand} {rest : List Errand} (hleft : left = e :: rest) (hrests' : Rests r.own.channel rest work')
      (hbare' : Bare (r.state (l + 1)).world.debugger.breakpoints)
      (hblank : ∀ text, (r.state (l + 1)).Blank r.own text ↔ (r.state l).Blank r.own text ∨ r.Reaches text e) :
      r.Sweep m (l + 1) := by
    refine .under (past ++ [e]) rest work' hcalls' hrests' ?_ hbare' fun text => ?_
    · rw [herrands, hleft, List.append_assoc, List.singleton_append]
    · rw [hblank, htold, or_assoc]
      refine or_congr_right ?_
      simp only [List.mem_append, List.mem_singleton, or_and_right, exists_or, exists_eq_left]
  cases hrests.speech hheld.serves hheld.opened hstep with
  | quiet hquiet hrests' =>
    refine .under past left work' hcalls' hrests' herrands (hbare.of_change hquiet.1.change) fun text => ?_
    have hsame : (r.state (l + 1)).toldAs r.own text = (r.state l).toldAs r.own text :=
      (silent_of_step hquiet.1).spoken_eq text
    rw [State.Blank, State.lastAs, hsame]
    exact htold text
  | speaks e rest hleft hsends hconcerns hrests' hsaid =>
    obtain ⟨⟨message, hworld, -⟩, -⟩ := hsends
    have hbare' := hbare.of_change hworld.change
    refine hnext hleft hrests' hbare' fun text => (blank_iff_of_said hbare' (hsaid text)).trans (or_congr_right ?_)
    -- an errand that is not passed is one for the session
    refine exists_congr fun f => ⟨fun ⟨hf, htext⟩ => ⟨hf, htext, ?_⟩, fun ⟨hf, htext, _⟩ => ⟨hf, htext⟩⟩
    have hstart := (concerns_congr hheld.sources e).mp hconcerns
    cases e with
    | file project path =>
      obtain rfl := Option.some.inj hf
      exact hstart
    | exceptions => cases hf
  | skips e rest hleft hworld hpassed hrests' =>
    refine hnext hleft hrests' (hworld ▸ hbare) fun text => ?_
    have hunreached : ¬ r.Reaches text e := by
      rintro ⟨f, hf, -, hadmits⟩
      cases e with
      | file project path =>
        obtain rfl := Option.some.inj hf
        exact hpassed ⟨hready, (concerns_congr hheld.sources _).mpr hadmits⟩
      | exceptions => cases hf
    rw [State.Blank, State.lastAs, State.toldAs, hworld]
    exact ⟨.inl, fun h => h.resolve_right hunreached⟩

lemma succ (h : r.Sweep m l) (hheld : r.Held l) (hready : (r.state l).IsReady r.own) (hquiet : (r.state m).IsQuiet)
    (ha : r.schedule l ≠ .stepHandshake) (hcall : ∀ call, r.schedule l ≠ .call call) : r.Sweep m (l + 1) := by
  have hturn : Turn r.own (r.schedule l) (r.state l) (r.state (l + 1)) := turn _ ha
  cases hturn with
  | idle hworld hcalls =>
    refine h.stays hcalls ?_ fun text => ?_
    · rw [hworld]
    · rw [State.toldAs, hworld]
      rfl
  | places call hplaced _ _ => exact absurd hplaced (hcall call)
  | outside world channel others helse hcalls =>
    refine h.stays hcalls ?_ fun text => ?_
    · rw [helse]
      rfl
    · rw [State.toldAs, helse]
      exact (silent_elsewhere hheld.serves world channel others).spoken_eq text
  | steps i work work' hold hstep hcalls =>
    -- the other calls are over, so it is the clear that goes on
    have hlast {last : Task Wait World Unit} (hl : (r.state l).calls = (r.state m).calls ++ [last]) :
        work = last ∧ (r.state (l + 1)).calls = (r.state m).calls ++ [work'] := by
      rw [hl] at hold
      rcases Nat.lt_or_ge i (r.state m).calls.length with hlt | hge
      · rw [List.getElem?_append_left hlt] at hold
        rw [step?_of_over (hquiet work (List.mem_of_getElem? hold))] at hstep
        cases hstep
      · rw [List.getElem?_append_right hge, List.getElem?_singleton] at hold
        split at hold
        · next hzero =>
          obtain rfl := Option.some.inj hold
          refine ⟨rfl, ?_⟩
          rw [hcalls, hl, List.set_append_right _ _ hge, hzero]
          rfl
        · cases hold
    cases h with
    | fresh hl hentries htold =>
      obtain ⟨rfl, hl'⟩ := hlast hl
      exact begins hentries htold hstep hl'
    | under past left last hl hrests herrands hbare htold =>
      obtain ⟨rfl, hl'⟩ := hlast hl
      exact goes hrests herrands hbare htold hheld hready hstep hl'

/-- When the clear is over, what was told is empty under the spellings that its errands had. -/
lemma blank_iff (h : r.Sweep m l) (hquiet : (r.state l).IsQuiet) (text : String) :
    (r.state l).Blank r.own text ↔ (r.state m).Blank r.own text ∨
      ∃ f ∈ Editing.filesOf (r.state m).world.debugger.breakpoints.entries [],
        f.2.text = text ∧ Running.Admits r.start.debugger r.own.language f := by
  cases h with
  | fresh hcalls _ _ =>
    have hover := hquiet Editing.Call.clear.work (hcalls ▸ List.mem_append_right _ (List.mem_singleton.mpr rfl))
    cases hover
  | under past left work hcalls hrests herrands _ htold =>
    have hover := hquiet work (hcalls ▸ List.mem_append_right _ (List.mem_singleton.mpr rfl))
    rw [hrests.eq_nil hover, List.append_nil] at herrands
    rw [htold, ← herrands, Editing.Call.errandsOf]
    refine or_congr_right ⟨?_, ?_⟩
    · rintro ⟨e, he, f, hf, htext, hadmits⟩
      rcases List.mem_append.mp he with he | he
      · obtain ⟨g, hg, rfl⟩ := List.mem_map.mp he
        obtain rfl := Option.some.inj hf
        exact ⟨g, hg, htext, hadmits⟩
      · split at he
        · rw [List.mem_singleton.mp he] at hf
          cases hf
        · cases he
    · rintro ⟨f, hf, htext, hadmits⟩
      exact ⟨.file f.1 f.2, List.mem_append_left _ (List.mem_map.mpr ⟨f, hf, rfl⟩), f, rfl, htext, hadmits⟩

end Sweep

/-! ## Files with one spelling -/

/-- Files up to action `m` that are the same by components are spelled alike, and concern the session alike. -/
def OneSpelling (r : Run) (m : Nat) : Prop :=
  ∀ f g, r.Known m f → r.Known m g → f.2.same g.2 = true →
    f.2.text = g.2.text ∧ (Running.Admits r.start.debugger r.own.language f → Running.Admits r.start.debugger r.own.language g)

/-- What was told before the first action: of the files of the session what there is to know, and otherwise nothing. -/
structure Informed (r : Run) (m : Nat) : Prop where
  files : ∀ f, r.Known m f → Running.Admits r.start.debugger r.own.language f →
    (r.state 0).lastAs r.own f.2.text = (r.state 0).wanted r.own (.file f.2)
  others : ∀ text, (∀ f, r.Known m f → Running.Admits r.start.debugger r.own.language f → f.2.text ≠ text) →
    (r.state 0).Blank r.own text

/-- A file of the session is told as it is now under its spelling, or a call owes it. -/
def UpToDate (r : Run) (n : Nat) (f : String × Path) : Prop :=
  r.Owes n (.file f.2) ∨ (r.state n).lastAs r.own f.2.text = (r.state n).wanted r.own (.file f.2)

section OneSpelling

variable {m : Nat} {f : String × Path}

/-- An action does nothing to a file with one spelling, or tells about it under that, or a call owes it then. -/
lemma Says.fate (h : r.Says n) (hheld : r.Held n) (hn : n ≤ m) (hone : r.OneSpelling m) (hf : r.Known m f)
    (hadmits : Running.Admits r.start.debugger r.own.language f) :
    ((r.state (n + 1)).told r.own (.file f.2) = (r.state n).told r.own (.file f.2) ∧
        (r.state (n + 1)).toldAs r.own f.2.text = (r.state n).toldAs r.own f.2.text ∧
        (r.state (n + 1)).wanted r.own (.file f.2) = (r.state n).wanted r.own (.file f.2)) ∨
      (r.state (n + 1)).toldAs r.own f.2.text
        = (r.state n).toldAs r.own f.2.text ++ [(r.state (n + 1)).wanted r.own (.file f.2)] ∨
      r.Owes (n + 1) (.file f.2) := by
  have hsound := hheld.serves.sound
  cases h with
  | silent hsilent => exact .inl ⟨hsilent.told_eq _, hsilent.spoken_eq _, hsilent.wanted_eq hsound _⟩
  | changes call es howes hknown howed =>
    by_cases htouched : ∃ e ∈ es, e.topic.Same (.file f.2)
    · -- the errand for the file concerns the session as the file does
      obtain ⟨e, he, hsame⟩ := htouched
      refine .inr (.inr (howed e he _ hsame ?_))
      cases e with
      | file project path =>
        have hknown' : r.Known m (project, path) := (hknown _ he _ rfl).mono hn
        have hsources : (r.state (n + 1)).world.debugger.sources = r.start.debugger.sources :=
          howes.step.sources.trans hheld.sources
        have hback : f.2.same path = true := Topic.same_file_iff.mpr hsame.symm
        exact (concerns_congr hsources (.file project path)).mpr ((hone f (project, path) hf hknown' hback).2 hadmits)
      | exceptions => cases hsame
    · refine .inl ⟨?_, ?_, howes.step.wanted_eq hsound htouched⟩
      · rw [State.told, State.told, World.channel, World.channel, howes.net]
      · rw [State.toldAs, State.toldAs, World.channel, World.channel, howes.net]
  | speaks e hsends _ hknown hsaid =>
    by_cases hsame : e.topic.Same (.file f.2)
    · refine .inr (.inl ?_)
      cases e with
      | file project path =>
        have hspelled : path.text = f.2.text :=
          (hone (project, path) f ((hknown _ rfl).mono hn) hf (Topic.same_file_iff.mpr hsame)).1
        rw [hsaid, lists, if_pos hspelled, State.wanted, Topic.wanted_file _ _ hsame]
      | exceptions => cases hsame
    · refine .inl ⟨hsends.told_eq_of_not_same hsame, ?_, hsends.wanted_eq hsound hsame⟩
      have hnothing : lists (r.state (n + 1)).world f.2.text e = [] := by
        cases e with
        | file project path =>
          refine if_neg fun htext => hsame (Topic.same_file_iff.mp ?_)
          rw [Path.same, decide_eq_true_eq]
          exact congrArg (fun text => (Path.mk text).components) htext
        | exceptions => rfl
      rw [hsaid, hnothing, List.append_nil]

lemma UpToDate.succ (h : r.UpToDate n f) (hheld : r.Held n) (hn : n ≤ m) (hone : r.OneSpelling m) (hf : r.Known m f)
    (hadmits : Running.Admits r.start.debugger r.own.language f) (hready : (r.state n).IsReady r.own)
    (hroom : (r.state n).world.debugger.breakpoints.nextId + 1 < Catalog.idLimit)
    (ha : r.schedule n ≠ .stepHandshake) : r.UpToDate (n + 1) f := by
  rcases (hheld.spoken hroom ha).fate hheld hn hone hf hadmits with ⟨htold, hspoken, hwanted⟩ | hspoken | howes
  · rcases h with howes | hlast
    · have hsources := ((hheld.succ hroom ha).1.sources).trans hheld.sources.symm
      refine .inl ((howes.succ hheld ha hready hsources).resolve_right fun htells => ?_)
      exact htells.tellsAt htold
    · refine .inr ?_
      rw [State.lastAs, hspoken, hwanted]
      exact hlast
  · refine .inr ?_
    rw [State.lastAs, hspoken, List.getLast?_concat]
    rfl
  · exact .inl howes

end OneSpelling

/-! ## Runs of a session that is ready -/

/-- The session is ready at first, and no handshake begins again. -/
structure Ready (r : Run) (bound : Nat) : Prop where
  serves : Serves r.session r.own r.start
  ready : (r.start.channel r.own.channel).phase = .ready
  settled : ∀ l < bound, r.schedule l ≠ .stepHandshake
  room : ∀ l < bound, (r.state l).world.debugger.breakpoints.nextId + 1 < Catalog.idLimit

namespace Ready

variable {bound : Nat}

lemma held (h : r.Ready bound) {n : Nat} (hn : n ≤ bound) : r.Held n ∧ (r.state n).IsReady r.own := by
  induction n with
  | zero =>
    refine ⟨.zero h.serves ?_, h.ready⟩
    rw [Channel.isOpen, h.ready]
    rfl
  | succ n ih =>
    obtain ⟨hheld, hready⟩ := ih (Nat.le_of_succ_le hn)
    obtain ⟨hheld', hfollows⟩ := hheld.succ (h.room n hn) (h.settled n hn)
    exact ⟨hheld', hfollows.ready.mpr hready⟩

lemma upToDate (h : r.Ready bound) {m n : Nat} (hn : n ≤ m) (hm : m ≤ bound) (hone : r.OneSpelling m)
    (hinformed : r.Informed m) {f : String × Path} (hf : r.Known m f)
    (hadmits : Running.Admits r.start.debugger r.own.language f) : r.UpToDate n f := by
  induction n with
  | zero => exact .inr (hinformed.files f hf hadmits)
  | succ n ih =>
    have hlt : n < bound := Nat.lt_of_lt_of_le hn hm
    obtain ⟨hheld, hready⟩ := h.held (Nat.le_of_lt hlt)
    exact (ih (Nat.le_of_succ_le hn)).succ hheld (Nat.le_of_succ_le hn) hone hf hadmits hready (h.room n hlt)
      (h.settled n hlt)

lemma blank_of_unknown (h : r.Ready bound) {m n : Nat} (hn : n ≤ m) (hm : m ≤ bound) (hinformed : r.Informed m)
    {text : String} (hnone : ∀ f, r.Known m f → Running.Admits r.start.debugger r.own.language f → f.2.text ≠ text) :
    (r.state n).Blank r.own text := by
  induction n with
  | zero => exact hinformed.others text hnone
  | succ n ih =>
    have hlt : n < bound := Nat.lt_of_lt_of_le hn hm
    obtain ⟨hheld, -⟩ := h.held (Nat.le_of_lt hlt)
    have hsame := (hheld.spoken (h.room n hlt) (h.settled n hlt)).toldAs_eq hheld fun f hf =>
      hnone f (hf.mono (Nat.le_of_succ_le hn))
    rw [State.Blank, State.lastAs, hsame]
    exact ih (Nat.le_of_succ_le hn)

lemma sweep (h : r.Ready bound) {m l : Nat} (hm : r.schedule m = .call .clear) (hquiet : (r.state m).IsQuiet)
    (hlast : ∀ k, m < k → k < l → ∀ call, r.schedule k ≠ .call call) (hml : m < l) (hl : l ≤ bound) : r.Sweep m l := by
  induction l, hml using Nat.le_induction with
  | base => exact .called hm
  | succ l hml ih =>
    obtain ⟨hheld, hready⟩ := h.held (Nat.le_of_succ_le hl)
    have hbefore := ih (fun k hk hkl => hlast k hk (Nat.lt_succ_of_lt hkl)) (Nat.le_of_succ_le hl)
    exact hbefore.succ hheld hready hquiet (h.settled l hl) (hlast l hml (Nat.lt_succ_self l))

/-- Where files have one spelling, what is told last is empty or it is about a file that has a breakpoint. -/
lemma blank_or_listed (h : r.Ready bound) {m : Nat} (hm : m ≤ bound) (hquiet : (r.state m).IsQuiet)
    (hone : r.OneSpelling m) (hinformed : r.Informed m) (text : String) :
    (r.state m).Blank r.own text ∨ ∃ f ∈ Editing.filesOf (r.state m).world.debugger.breakpoints.entries [],
      f.2.text = text ∧ Running.Admits r.start.debugger r.own.language f := by
  by_cases hknown : ∃ f, r.Known m f ∧ Running.Admits r.start.debugger r.own.language f ∧ f.2.text = text
  · obtain ⟨f, hf, hadmits, rfl⟩ := hknown
    obtain ⟨hheld, -⟩ := h.held hm
    have hlast := (h.upToDate (Nat.le_refl m) hm hone hinformed hf hadmits).resolve_left (not_owes_of_isQuiet hquiet _)
    rw [State.Blank, hlast, State.wanted, Topic.wanted_file _ _ (Topic.Same.refl _)]
    cases hfile : (r.state m).world.debugger.breakpoints.forFile f.2 with
    | nil =>
      rw [Catalog.listing, hfile]
      exact .inl rfl
    | cons b rest =>
      -- a breakpoint of the file, and the spelling under which its file is listed
      have hmem : b ∈ (r.state m).world.debugger.breakpoints.forFile f.2 := hfile ▸ List.mem_cons_self
      obtain ⟨hb, hin⟩ := Catalog.mem_forFile.mp hmem
      obtain ⟨g, hg, hgf⟩ := exists_fileOf?_of_isIn hin
      have hlisted : ∃ k ∈ Editing.filesOf (r.state m).world.debugger.breakpoints.entries [], k.2.same g.2 = true :=
        Editing.Call.exists_mem_filesOf hb hg
      obtain ⟨k, hk, hkg⟩ := hlisted
      have hkf : f.2.same k.2 = true := by
        rw [Path.same, decide_eq_true_eq] at hkg hgf ⊢
        exact (hkg.trans hgf).symm
      have hkknown : r.Known m k := by
        rcases Editing.Call.mem_filesOf hk with hnil | ⟨x, hx, hxk⟩
        · cases hnil
        · exact hheld.files x hx k hxk
      obtain ⟨htext, hadmitted⟩ := hone f k hf hkknown hkf
      exact .inr ⟨k, hk, htext.symm, hadmitted hadmits⟩
  · refine .inl (h.blank_of_unknown (Nat.le_refl m) hm hinformed fun f hf hadmits htext => ?_)
    exact hknown ⟨f, hf, hadmits, htext⟩

end Ready

end Run

/-! ## What a clear reaches -/

/-- A clear is called when everything else is over, and nothing else is called before it is over. The session is ready all
the time. Then what was told last under a spelling is empty afterwards if it was before, or if one of the files for which
the clear has an errand is spelled like this and concerns the session: the catalog keeps one spelling of each file, by its
components, and what was told under another one stays. Where files have one spelling, and the adapter knew at first what
there was to know, every spelling is told of the clear. -/
theorem clear_reaches_iff {r : Run} {m n : Nat} (hrun : r.Ready n) (hmn : m < n) (hm : r.schedule m = .call .clear)
    (hbefore : (r.state m).IsQuiet) (hlast : ∀ l, m < l → l < n → ∀ call, r.schedule l ≠ .call call)
    (hafter : (r.state n).IsQuiet) :
    (∀ text, (r.state n).Blank r.own text ↔ (r.state m).Blank r.own text ∨
      ∃ f ∈ Editing.filesOf (r.state m).world.debugger.breakpoints.entries [],
        f.2.text = text ∧ Running.Admits r.start.debugger r.own.language f) ∧
    (r.OneSpelling m → r.Informed m → ∀ text, (r.state n).Blank r.own text) := by
  have hswept := (hrun.sweep hm hbefore hlast hmn (Nat.le_refl n)).blank_iff hafter
  refine ⟨hswept, fun hone hinformed text => ?_⟩
  rw [hswept]
  exact hrun.blank_or_listed (Nat.le_of_lt hmn) hbefore hone hinformed text

/-! ### A file with one spelling, and one with two -/

/-- What happens is one of the actions, or nothing does. -/
lemma mem_of_getD {actions : List Action} {l : Nat} {a : Action} (h : actions.getD l (.initialized .null) = a)
    (ha : ∀ body, a ≠ .initialized body) : a ∈ actions := by
  rw [List.getD_eq_getElem?_getD] at h
  cases hget : actions[l]? with
  | none =>
    rw [hget] at h
    exact absurd h.symm (ha .null)
  | some b =>
    rw [hget] at h
    exact List.mem_of_getElem? (hget.trans (congrArg some h))

/-- A session that is ready. -/
def readySession : World where
  net := { channels := [{ dialect := .sequenced, phase := .ready }] }
  debugger := { placesFrames := false, sessions := [default], current := [("", 0)] }

/-- The adapter answers its request with that ticket. -/
def answer (ticket : Nat) : Action :=
  .outside readySession
    { dialect := .sequenced, phase := .ready, nextId := ticket + 2,
      pending := { next := ticket + 1, settled := [(ticket, .answered (.ok (.obj [("breakpoints", .arr [])])))] } } []

/-- A breakpoint is added and told about, and then all are cleared. -/
def addsAndClears : List Action :=
  [.call (.add "demo" lateFile 1 none), .step 0, .step 0, answer 0, .step 0,
    .call .clear, .step 1, .step 1, answer 1, .step 1]

/-- The run of these actions. -/
def spelledOnce : Run where
  session := 0
  own := default
  start := readySession
  schedule n := addsAndClears.getD n (.initialized .null)

/-- The file under another spelling. -/
def respelled : Path := ⟨"demo//Main.java"⟩

/-- A breakpoint was added under each of the two spellings, and the adapter was told of them. -/
def toldTwice : World where
  net :=
    { channels :=
        [{ dialect := .sequenced, phase := .ready, nextId := 3, pending := { next := 2 }
           outgoing :=
            [Dialect.sequenced.request 1 "setBreakpoints" (Sync.fileArguments lateFile [{ line := 1 }]),
              Dialect.sequenced.request 2 "setBreakpoints" (Sync.fileArguments respelled [{ line := 1 }, { line := 2 }])] }] }
  debugger :=
    { placesFrames := false, sessions := [default], current := [("", 0)]
      breakpoints := ((Catalog.addLine {} "demo" lateFile 1 none none).2.addLine "demo" respelled 2 none none).2 }

/-- The breakpoints are cleared. -/
def clears : List Action := [.call .clear, .step 0, .step 0, answer 2, .step 0]

/-- The run of these actions. -/
def spelledTwice : Run where
  session := 0
  own := default
  start := toldTwice
  schedule n := clears.getD n (.initialized .null)

lemma ready_spelledOnce : spelledOnce.Ready 10 where
  serves := ⟨rfl, rfl, Nat.zero_lt_one, rfl, rfl, Catalog.sound_empty⟩
  ready := rfl
  settled l _ h := by
    have hmem := mem_of_getD h nofun
    simp [addsAndClears, answer] at hmem
  room := by decide +kernel

lemma eq_of_known_spelledOnce {m : Nat} {f : String × Path} (h : spelledOnce.Known m f) : f = ("demo", lateFile) := by
  rcases h with ⟨b, hb, -⟩ | ⟨l, -, call, hcall, hf⟩
  · cases hb
  · have hmem := mem_of_getD hcall nofun
    simp only [addsAndClears, answer, List.mem_cons, Action.call.injEq, reduceCtorEq, List.not_mem_nil, false_or,
      or_false] at hmem
    rcases hmem with rfl | rfl
    · exact List.mem_singleton.mp hf
    · cases hf

lemma ready_spelledTwice : spelledTwice.Ready 5 where
  serves := by
    refine ⟨rfl, rfl, Nat.zero_lt_one, rfl, rfl, ?_⟩
    have hfirst := Catalog.sound_empty.change_addLine (by decide) "demo" lateFile 1 none none
    exact (hfirst.sound.change_addLine (by decide +kernel) "demo" respelled 2 none none).sound
  ready := rfl
  settled l _ h := by
    have hmem := mem_of_getD h nofun
    simp [clears, answer] at hmem
  room := by decide +kernel

/-- Of two spellings of a file the clear reaches the first one only; a file with one spelling it reaches. -/
theorem clear_misses_spelling :
    ((spelledTwice.state 5).IsQuiet ∧ ¬ (spelledTwice.state 5).Blank default respelled.text) ∧
      ∀ text, (spelledOnce.state 10).Blank default text := by
  have hquiet : (spelledTwice.state 5).IsQuiet := by
    unfold State.IsQuiet
    decide +kernel
  have hbefore : (spelledOnce.state 5).IsQuiet := by
    unfold State.IsQuiet
    decide +kernel
  have hafter : (spelledOnce.state 10).IsQuiet := by
    unfold State.IsQuiet
    decide +kernel
  refine ⟨⟨hquiet, fun hblank => ?_⟩, ?_⟩
  · have hfiles : Editing.filesOf toldTwice.debugger.breakpoints.entries [] = [("demo", lateFile)] := by decide +kernel
    have hreached := (clear_reaches_iff ready_spelledTwice (m := 0) (by decide) rfl (List.forall_mem_nil _)
      (fun l hl hl' call => by interval_cases l <;> nofun) hquiet).1 respelled.text
    rcases hreached.mp hblank with hempty | ⟨f, hf, htext, -⟩
    · have htold : ((spelledTwice.state 0).lastAs default respelled.text).isEmpty = false := by decide +kernel
      exact absurd (List.isEmpty_iff.mpr hempty) (Bool.eq_false_iff.mp htold)
    · have hf : f ∈ Editing.filesOf toldTwice.debugger.breakpoints.entries [] := hf
      rw [hfiles] at hf
      rw [List.mem_singleton.mp hf] at htext
      exact absurd htext (by decide)
  · refine (clear_reaches_iff ready_spelledOnce (m := 5) (by decide) rfl hbefore
      (fun l hl hl' call => by interval_cases l <;> nofun) hafter).2 ?_ ?_
    · intro f g hf hg _
      rw [eq_of_known_spelledOnce hf, eq_of_known_spelledOnce hg]
      exact ⟨rfl, id⟩
    · refine ⟨fun f _ _ => ?_, fun _ _ => rfl⟩
      have hbare : Bare (spelledOnce.state 0).world.debugger.breakpoints := List.forall_mem_nil _
      rw [State.wanted, Topic.wanted_file _ _ (Topic.Same.refl _), hbare.listing_eq]
      rfl

end Switchboard.Debug.Convergence
