import Switchboard.Proofs.Breakpoint.Files
import Switchboard.Proofs.Debug.Telling

/-!
# What calls and the handshake owe an adapter

* `Errand`: what a call still has to do for a topic when its change is made;
* `Editing.Call`, `Editing.Call.stretch_work`: the calls on breakpoints, each one change followed by errands;
* `step_works`: an errand tells the session if it is ready by then, and else does nothing;
* `configure_eq`, `stretch_telling`: the handshake tells the session about topics that it has listed before;
* `exists_mem_topicsFor`: which topics are listed.
-/

namespace Switchboard.Debug

open Breakpoint (Catalog)

/-! ## Errands -/

/-- What is left to do when a breakpoint has changed. -/
inductive Errand where
  | file (project : String) (path : Path)
  | exceptions

namespace Errand

/-- The file that the errand is for, with its project. -/
def file? : Errand → Option (String × Path)
  | file project path => some (project, path)
  | exceptions => none

/-- What the adapters are to be told about. -/
def topic : Errand → Topic
  | file _ path => .file path
  | exceptions => .exceptions

/-- The language of the sessions that are to be told. -/
def language (w : World) : Errand → Option String
  | file project path => w.debugger.languageOf (some project) (some path)
  | exceptions => w.debugger.languageOf none none

/-- A single errand. -/
def work : Errand → Task Wait World Unit
  | file project path => Sync.file project path
  | exceptions => Sync.exceptions none

/-- Errands in order. -/
def works (es : List Errand) : Task Wait World Unit := Task.forEach work es

lemma work_eq (e : Errand) : e.work = Sync.forSessions e.language fun s => e.topic.send s := by
  cases e <;> rfl

/-- Errands begin with a wait. -/
lemma stretch_works (es : List Errand) (w : World) : (works es).stretch w = (works es, w) := by
  cases es with
  | nil => rfl
  | cons e rest =>
    rw [works, Task.forEach, work_eq]
    rfl

/-- The session is one of those that are to be told. -/
def Concerns (w : World) (own : Session) (e : Errand) : Prop := (e.language w).all (· = own.language) = true

/-- One errand: a session that it concerns is sent its topic if it is ready, and else nothing happens. -/
lemma step_works_cases {s : SessionId} {own : Session} {w : World} (hw : Serves s own w)
    (hopen : (w.channel own.channel).isOpen = true) (e : Errand) (rest : List Errand) :
    ((works (e :: rest)).step? World.holds w = some (works rest, w) ∧
        ¬ ((w.channel own.channel).phase = .ready ∧ e.Concerns w own)) ∨
      (w.channel own.channel).phase = .ready ∧ e.Concerns w own ∧
        ∀ on next w', (e.topic.send s).stretch w = (.wait on next, w') →
          (works (e :: rest)).step? World.holds w = some ((Task.wait on next).andThen fun _ => works rest, w') := by
  have hstep : (works (e :: rest)).step? World.holds w
      = some (((Task.forEach (Sync.ifReady fun s => e.topic.send s) (w.sessionsFor (e.language w))).andThen fun _ =>
          works rest).stretch w) := by
    rw [works, Task.forEach, work_eq]
    rfl
  have hisOpen : w.isSessionOpen s = true := by
    rw [World.isSessionOpen, hw.session]
    exact hopen
  rw [hstep]
  -- the sessions of the language are looked up first, and each of them is told if it is ready
  by_cases hconcerns : e.Concerns w own
  · have hsessions : w.sessionsFor (e.language w) = [s] := by
      have hall : (e.language w).all (· = own.language) = true := hconcerns
      simp [World.sessionsFor, hw.current, hisOpen, hall]
    have hbody : ((Task.forEach (Sync.ifReady fun s => e.topic.send s) [s]).andThen fun _ => works rest).stretch w
        = (((if w.isSessionReady s = true then e.topic.send s else .done ()).andThen fun _ => .done ()).andThen
            fun _ => works rest).stretch w := rfl
    have hready : w.isSessionReady s = true ↔ (w.channel own.channel).phase = .ready := by
      rw [World.isSessionReady, hw.session, decide_eq_true_eq]
    rw [hsessions, hbody]
    by_cases hphase : (w.channel own.channel).phase = .ready
    · refine .inr ⟨hphase, hconcerns, fun on next w' hk => ?_⟩
      rw [if_pos (hready.mpr hphase), Task.andThen_assoc]
      exact congrArg some (Task.stretch_andThen_of_wait hk _)
    · refine .inl ⟨?_, fun h => hphase h.1⟩
      rw [if_neg fun h => hphase (hready.mp h)]
      exact congrArg some (stretch_works rest w)
  · have hsessions : w.sessionsFor (e.language w) = [] := by
      have hall : (e.language w).all (· = own.language) = false := Bool.eq_false_iff.mpr hconcerns
      simp [World.sessionsFor, hw.current, hall]
    refine .inl ⟨?_, fun h => hconcerns h.2⟩
    rw [hsessions]
    exact congrArg some (stretch_works rest w)

/-- One errand: a session that it concerns is told if it is ready, and else nothing happens. -/
theorem step_works {s : SessionId} {own : Session} {w : World} (hw : Serves s own w)
    (hopen : (w.channel own.channel).isOpen = true) (e : Errand) (rest : List Errand) :
    ((works (e :: rest)).step? World.holds w = some (works rest, w) ∧
        ¬ ((w.channel own.channel).phase = .ready ∧ e.Concerns w own)) ∨
      ∃ k w', (works (e :: rest)).step? World.holds w = some (k.andThen fun _ => works rest, w') ∧
        (w.channel own.channel).phase = .ready ∧ Awaiting own.channel (Quiet own.channel) k ∧
        Sends own.channel e.topic w w' := by
  rcases step_works_cases hw hopen e rest with hskip | ⟨hphase, -, hsend⟩
  · exact .inl hskip
  · obtain ⟨k, w', hk, hawaiting, hsends⟩ := stretch_send hw hopen e.topic
    obtain ⟨on, next, rfl, hnext⟩ := hawaiting
    exact .inr ⟨_, w', hsend on next w' hk, hphase, ⟨on, next, rfl, hnext⟩, hsends⟩

end Errand

/-! ## Calls -/

/-- The calls on breakpoints. -/
inductive Editing.Call where
  | add (project : String) (path : Path) (line : Nat) (column : Option Nat)
  | edit (id : Nat) (edits : List (String × String))
  | clear
  | setException (caught uncaught : Bool)

namespace Editing.Call

open Errand (works stretch_works)

/-- All that a call does. -/
def work : Call → Task Wait World Unit
  | add project path line column => (Editing.addBreakpoint project path line column).outcome.andThen fun _ => .done ()
  | edit id edits => (Editing.editBreakpoint id edits).outcome.andThen fun _ => .done ()
  | clear => Editing.clearBreakpoints.outcome.andThen fun _ => .done ()
  | setException caught uncaught => (Editing.setException caught uncaught none).outcome.andThen fun _ => .done ()

/-- The files in which a call may place a breakpoint. -/
def new : Call → List (String × Path)
  | add project path _ _ => [(project, path)]
  | _ => []

/-- What there is to do when a breakpoint was changed or removed. -/
def errandOf (b : Breakpoint) : Errand :=
  match b.kind with
  | .line project path _ _ _ => .file project path
  | .exception _ _ => .exceptions

/-- What there is to do when all breakpoints were removed. -/
def errandsOf (removed : List Breakpoint) : List Errand :=
  (Editing.filesOf removed []).map (fun f => .file f.1 f.2)
    ++ if removed.any (·.isException) then [.exceptions] else []

/-- The change that a call makes, and what there is to do after it. -/
def change (w : World) : Call → List Errand × World
  | add project path line column =>
    if line = 0 then ([], w)
    else
      match Editing.placeBreakpoint project path line column w with
      | (none, w) => ([], w)
      | (some _, w) => ([.file project path], w)
  | edit id edits =>
    match Editing.applyEdits id edits w with
    | (.ok b, w) => ([errandOf b], w)
    | (.error _, w) => ([], w)
  | clear => (errandsOf (Editing.dropBreakpoints w).1, (Editing.dropBreakpoints w).2)
  | setException caught uncaught => ([.exceptions], (Editing.placeException caught uncaught w).2)

/-- Work that begins with a task. -/
lemma ofTask_bind_andThen {α β γ : Type} (t : Task Wait World α) (k : α → DebugWork β)
    (l : Except Fault β → Task Wait World γ) :
    (Attempt.ofTask t >>= k : DebugWork β).outcome.andThen l = t.andThen fun a => (k a).outcome.andThen l := by
  show ((t.andThen _).andThen _).andThen _ = _
  rw [Task.andThen_assoc, Task.andThen_assoc]
  rfl

/-- The call is not refused at once. -/
def Acts : Call → Prop
  | add _ _ line _ => line ≠ 0
  | _ => True

lemma work_add (project : String) (path : Path) {line : Nat} (column : Option Nat) (hline : line ≠ 0) :
    (add project path line column).work = .access (fun w => ((add project path line column).change w).2)
      fun w => works ((add project path line column).change w).1 := by
  have hwork : (add project path line column).work
      = (Task.act (Editing.placeBreakpoint project path line column)).andThen fun r =>
          works (r.elim [] fun _ => [.file project path]) := by
    show (Editing.addBreakpoint project path line column).outcome.andThen _ = _
    rw [Editing.addBreakpoint, if_neg hline, ofTask_bind_andThen]
    congr 1
    funext r
    cases r with
    | none => rfl
    | some id => exact ofTask_bind_andThen ..
  have hchange : ∀ w, (add project path line column).change w
      = ((Editing.placeBreakpoint project path line column w).1.elim [] fun _ => [.file project path],
          (Editing.placeBreakpoint project path line column w).2) := by
    intro w
    rw [change, if_neg hline]
    cases Editing.placeBreakpoint project path line column w with
    | mk r w' => cases r <;> rfl
  rw [hwork]
  simp only [hchange]
  rfl

lemma work_edit (id : Nat) (edits : List (String × String)) :
    (edit id edits).work = .access (fun w => ((edit id edits).change w).2)
      fun w => works ((edit id edits).change w).1 := by
  have hchange : ∀ w, (edit id edits).change w
      = (match (Editing.applyEdits id edits w).1 with
          | .ok b => [errandOf b]
          | .error _ => [], (Editing.applyEdits id edits w).2) := by
    intro w
    rw [change]
    cases Editing.applyEdits id edits w with
    | mk r w' => cases r <;> rfl
  have hfirst : (edit id edits).work = .access (fun w => (Editing.applyEdits id edits w).2) fun w =>
      (ExceptT.bindCont (fun b : Breakpoint => (match b.kind with
        | .line project path _ _ _ => Attempt.ofTask (Sync.file project path)
        | .exception _ _ => Attempt.ofTask (Sync.exceptions none) : DebugWork Unit))
        (Editing.applyEdits id edits w).1).andThen fun _ => .done () := rfl
  rw [hfirst]
  simp only [hchange]
  congr 1
  funext w
  cases (Editing.applyEdits id edits w).1 with
  | error e => rfl
  | ok b =>
    dsimp only
    unfold errandOf
    cases hk : b.kind with
    | line project path line column anchor =>
      simp only [ExceptT.bindCont, hk]
      show ((Sync.file project path).andThen _).andThen _ = _
      rw [Task.andThen_assoc]
      rfl
    | exception caught uncaught =>
      simp only [ExceptT.bindCont, hk]
      show ((Sync.exceptions none).andThen _).andThen _ = _
      rw [Task.andThen_assoc]
      rfl

lemma work_clear : clear.work = .access (fun w => (clear.change w).2) fun w => works (clear.change w).1 := by
  have hwork : clear.work = (Task.act Editing.dropBreakpoints).andThen fun removed => works (errandsOf removed) := by
    show Editing.clearBreakpoints.outcome.andThen _ = _
    rw [Editing.clearBreakpoints, ofTask_bind_andThen]
    congr 1
    funext removed
    rw [ofTask_bind_andThen, errandsOf, works, Task.forEach_append, Task.forEach_map]
    show (Task.forEach (fun f => Sync.file f.1 f.2) (Editing.filesOf removed [])).andThen _ = _
    congr 1
    funext _
    by_cases hany : removed.any (·.isException) = true
    · rw [if_pos hany, if_pos hany]
      exact ofTask_bind_andThen ..
    · rw [if_neg hany, if_neg hany]
      rfl
  rw [hwork]
  rfl

lemma work_setException (caught uncaught : Bool) :
    (setException caught uncaught).work = .access (fun w => ((setException caught uncaught).change w).2)
      fun w => works ((setException caught uncaught).change w).1 := by
  have hwork : (setException caught uncaught).work
      = (Task.act (Editing.placeException caught uncaught)).andThen fun _ => works [.exceptions] := by
    show (Editing.setException caught uncaught none).outcome.andThen _ = _
    rw [Editing.setException, ofTask_bind_andThen]
    congr 1
    funext id
    exact ofTask_bind_andThen ..
  rw [hwork]
  rfl

/-- A call that is not refused at once makes its change in one access, and then it has errands left. -/
theorem work_of_acts {call : Call} (h : call.Acts) :
    call.work = .access (fun w => (call.change w).2) fun w => works (call.change w).1 := by
  cases call with
  | add project path line column => exact work_add project path column h
  | edit id edits => exact work_edit id edits
  | clear => exact work_clear
  | setException caught uncaught => exact work_setException caught uncaught

/-- A call that is refused at once does nothing. -/
lemma work_of_not_acts {call : Call} (h : ¬ call.Acts) : call.work = .done () := by
  cases call with
  | add project path line column =>
    obtain rfl : line = 0 := not_not.mp h
    rfl
  | _ => exact absurd trivial h

/-- A call makes its change up to its first wait, and then it has errands left. -/
theorem stretch_work (call : Call) (w : World) :
    call.work.stretch w = (works (call.change w).1, (call.change w).2) := by
  by_cases hacts : call.Acts
  · rw [work_of_acts hacts]
    exact stretch_works _ _
  · cases call with
    | add project path line column =>
      obtain rfl : line = 0 := not_not.mp hacts
      rfl
    | _ => exact absurd trivial hacts

/-! ### What a change leaves alone -/

lemma topic_errandOf (b : Breakpoint) : (errandOf b).topic = b.topic := by
  unfold errandOf Breakpoint.topic
  cases b.kind <;> rfl

lemma file?_errandOf (b : Breakpoint) : (errandOf b).file? = Catalog.fileOf? b := by
  unfold errandOf Catalog.fileOf?
  cases b.kind <;> rfl

lemma mem_filesOf_of_mem {l : List Breakpoint} {files : List (String × Path)} {f : String × Path} (hf : f ∈ files) :
    f ∈ Editing.filesOf l files := by
  induction l generalizing files with
  | nil => exact hf
  | cons b rest ih =>
    rw [Editing.filesOf]
    split
    · split
      · exact ih hf
      · exact ih (List.mem_append_left _ hf)
    · exact ih hf

/-- Every file is there in one spelling. -/
lemma exists_mem_filesOf {l : List Breakpoint} {files : List (String × Path)} {b : Breakpoint} (hb : b ∈ l)
    {project : String} {path : Path} (hfile : Catalog.fileOf? b = some (project, path)) :
    ∃ g ∈ Editing.filesOf l files, g.2.same path = true := by
  induction l generalizing files with
  | nil => cases hb
  | cons x rest ih =>
    rw [Editing.filesOf]
    rcases List.mem_cons.mp hb with rfl | hb
    · rw [hfile]
      dsimp only
      split
      · next hany =>
        obtain ⟨g, hg, hsame⟩ := List.any_eq_true.mp hany
        refine ⟨g, mem_filesOf_of_mem hg, ?_⟩
        rw [Bool.and_eq_true] at hsame
        exact hsame.2
      · refine ⟨(project, path), mem_filesOf_of_mem (List.mem_append_right _ (List.mem_singleton.mpr rfl)), ?_⟩
        exact decide_eq_true rfl
    · split
      · split
        · exact ih hb
        · exact ih hb
      · exact ih hb

lemma mem_filesOf {l : List Breakpoint} {files : List (String × Path)} {f : String × Path}
    (hf : f ∈ Editing.filesOf l files) : f ∈ files ∨ ∃ b ∈ l, Catalog.fileOf? b = some f := by
  induction l generalizing files with
  | nil => exact .inl hf
  | cons x rest ih =>
    have hlater : (f ∈ files ∨ ∃ b ∈ rest, Catalog.fileOf? b = some f) →
        f ∈ files ∨ ∃ b ∈ x :: rest, Catalog.fileOf? b = some f := by
      rintro (hmem | ⟨b, hb, hbf⟩)
      · exact .inl hmem
      · exact .inr ⟨b, List.mem_cons_of_mem _ hb, hbf⟩
    rw [Editing.filesOf] at hf
    split at hf
    · next g hg =>
      split at hf
      · exact hlater (ih hf)
      · rcases ih hf with hmem | hrest
        · rcases List.mem_append.mp hmem with hmem | hlast
          · exact .inl hmem
          · obtain rfl := List.mem_singleton.mp hlast
            exact .inr ⟨x, List.mem_cons_self .., hg⟩
        · exact hlater (.inr hrest)
    · exact hlater (ih hf)

/-- What is known of a change and of the errands that follow it. -/
structure Owes (c : ChannelId) (call : Call) (w : World) (es : List Errand) (w' : World) : Prop where
  step : Step c (fun t => ∃ e ∈ es, e.topic.Same t) call.new [] w w'
  net : w'.net = w.net
  files : ∀ e ∈ es, ∀ f, e.file? = some f → f ∈ call.new ∨ ∃ b ∈ w.debugger.breakpoints.entries, Catalog.fileOf? b = some f

lemma owes_nothing {c : ChannelId} {call : Call} {w : World} (hsound : Catalog.Sound w.debugger.breakpoints) :
    Owes c call w [] w :=
  ⟨.refl hsound, rfl, nofun⟩

/-- A changed catalog that is stored and told of, with errands for all that has changed. -/
lemma owes_stored (c : ChannelId) {call : Call} {w : World} {d : Catalog} {touched : Topic → Prop} {es : List Errand}
    (hchange : Catalog.Change touched call.new w.debugger.breakpoints d)
    (htouched : ∀ t, touched t → ∃ e ∈ es, e.topic.Same t)
    (hfiles : ∀ e ∈ es, ∀ f, e.file? = some f →
      f ∈ call.new ∨ ∃ b ∈ w.debugger.breakpoints.entries, Catalog.fileOf? b = some f)
    (what : Debug.Change) (l : List Breakpoint) :
    Owes c call w es ((w.setBreakpoints d).saveBreakpoints.noteBreakpoints what l) where
  step := by
    have hstep : Step c touched call.new [] w ((w.setBreakpoints d).saveBreakpoints.noteBreakpoints what l) :=
      .of_change rfl rfl rfl rfl hchange
    exact hstep.mono htouched
  net := rfl
  files := hfiles

lemma owes_add (c : ChannelId) {w : World} (hsound : Catalog.Sound w.debugger.breakpoints)
    (hroom : w.debugger.breakpoints.nextId + 1 < Catalog.idLimit) (project : String) (path : Path) (line : Nat)
    (column : Option Nat) :
    Owes c (add project path line column) w ((add project path line column).change w).1
      ((add project path line column).change w).2 := by
  rw [change]
  split
  · exact owes_nothing hsound
  · unfold Editing.placeBreakpoint
    dsimp only
    have hchange := hsound.change_addLine hroom project path line column
      ((w.debugger.linesOf? w.disk project path).bind fun f => Breakpoint.anchorIn? f line column)
    cases hadd : w.debugger.breakpoints.addLine project path line column
      ((w.debugger.linesOf? w.disk project path).bind fun f => Breakpoint.anchorIn? f line column) with
    | mk id d =>
      rw [hadd] at hchange
      cases id with
      | none => exact owes_nothing hsound
      | some id =>
        refine owes_stored c hchange (fun t ht => ⟨_, List.mem_singleton.mpr rfl, ht⟩) (fun e he f hf => ?_) .add _
        obtain rfl := List.mem_singleton.mp he
        obtain rfl := Option.some.inj hf
        exact .inl (List.mem_singleton.mpr rfl)

lemma owes_edit (c : ChannelId) {w : World} (hsound : Catalog.Sound w.debugger.breakpoints) (id : Nat)
    (edits : List (String × String)) :
    Owes c (edit id edits) w ((edit id edits).change w).1 ((edit id edits).change w).2 := by
  have hchange := hsound.change_edited id edits
  rw [change]
  unfold Editing.applyEdits
  unfold Catalog.edited at hchange
  dsimp only
  cases hget : w.debugger.breakpoints.get? id with
  | none => exact owes_nothing hsound
  | some b =>
    obtain ⟨hb, rfl⟩ := hsound.get?_eq_some_iff.mp hget
    rw [hget] at hchange
    dsimp only at hchange ⊢
    -- the errand is for the file of the breakpoint as it was before
    have howes : ∀ (b' : Breakpoint) (d : Catalog) (what : Debug.Change), Catalog.fileOf? b' = Catalog.fileOf? b →
        Catalog.Change (fun t => ∃ x ∈ w.debugger.breakpoints.entries, x.id = b.id ∧ x.topic.Same t) []
          w.debugger.breakpoints d →
        Owes c (edit b.id edits) w [errandOf b'] ((w.setBreakpoints d).saveBreakpoints.noteBreakpoints what [b']) := by
      intro b' d what hfile hd
      refine owes_stored c hd ?_ ?_ what [b']
      · rintro t ⟨x, hx, hid, ht⟩
        obtain rfl := hsound.eq_of_id_eq hx hb hid
        refine ⟨_, List.mem_singleton.mpr rfl, ?_⟩
        rw [topic_errandOf, Breakpoint.topic_congr hfile]
        exact ht
      · intro e he f hf
        obtain rfl := List.mem_singleton.mp he
        rw [file?_errandOf, hfile] at hf
        exact .inr ⟨b, hb, hf⟩
    cases happly : b.applyAll edits with
    | error e => exact owes_nothing hsound
    | ok r =>
      obtain ⟨b', cleared⟩ := r
      rw [happly] at hchange
      cases cleared with
      | true => exact howes b _ .remove rfl hchange
      | false =>
        have hfile := Catalog.fileOf?_of_samePlace (Breakpoint.samePlace_of_applyAll happly)
        exact howes b' _ .change hfile hchange

lemma owes_clear (c : ChannelId) (w : World) : Owes c clear w (clear.change w).1 (clear.change w).2 := by
  refine owes_stored c Catalog.change_clear ?_ ?_ .remove _
  · rintro t ⟨b, hb, ht⟩
    cases hk : b.kind with
    | line project path line column anchor =>
      have hfile : Catalog.fileOf? b = some (project, path) := by rw [Catalog.fileOf?, hk]
      have hfiles : ∃ g ∈ Editing.filesOf w.debugger.breakpoints.entries [], g.2.same path = true :=
        exists_mem_filesOf hb hfile
      -- the errand may spell the path as another breakpoint does
      obtain ⟨g, hg, hsame⟩ := hfiles
      refine ⟨.file g.1 g.2, List.mem_append_left _ (List.mem_map.mpr ⟨g, hg, rfl⟩), ?_⟩
      have htopic : b.topic = .file path := by rw [Breakpoint.topic, hk]
      rw [htopic] at ht
      exact (Topic.same_file_iff.mp hsame).trans ht
    | exception caught uncaught =>
      have hany : w.debugger.breakpoints.entries.any (·.isException) = true :=
        List.any_eq_true.mpr ⟨b, hb, by rw [Breakpoint.isException, hk]⟩
      refine ⟨.exceptions, List.mem_append_right _ ?_, ?_⟩
      · show Errand.exceptions ∈ if w.debugger.breakpoints.entries.any (·.isException) = true then _ else _
        rw [if_pos hany]
        exact List.mem_singleton.mpr rfl
      · have htopic : b.topic = .exceptions := by rw [Breakpoint.topic, hk]
        rwa [htopic] at ht
  · intro e he f hf
    rcases List.mem_append.mp he with he | he
    · obtain ⟨g, hg, rfl⟩ := List.mem_map.mp he
      obtain rfl := Option.some.inj hf
      rcases mem_filesOf hg with hnil | hmem
      · cases hnil
      · exact .inr hmem
    · split at he
      · obtain rfl := List.mem_singleton.mp he
        cases hf
      · cases he

lemma owes_setException (c : ChannelId) {w : World} (hsound : Catalog.Sound w.debugger.breakpoints)
    (hroom : w.debugger.breakpoints.nextId + 1 < Catalog.idLimit) (caught uncaught : Bool) :
    Owes c (setException caught uncaught) w ((setException caught uncaught).change w).1
      ((setException caught uncaught).change w).2 := by
  have hchange := hsound.change_setException hroom caught uncaught
  refine owes_stored c hchange (fun t ht => ⟨_, List.mem_singleton.mpr rfl, ht⟩) (fun e he f hf => ?_) _ _
  obtain rfl := List.mem_singleton.mp he
  cases hf

/-- After the change of a call its errands are for all that has changed. -/
theorem owes_change (c : ChannelId) {w : World} (hsound : Catalog.Sound w.debugger.breakpoints)
    (hroom : w.debugger.breakpoints.nextId + 1 < Catalog.idLimit) (call : Call) :
    Owes c call w (call.change w).1 (call.change w).2 := by
  cases call with
  | add project path line column => exact owes_add c hsound hroom project path line column
  | edit id edits => exact owes_edit c hsound id edits
  | clear => exact owes_clear c w
  | setException caught uncaught => exact owes_setException c hsound hroom caught uncaught

end Editing.Call

/-! ## The handshake -/

namespace Running

/-- What a session is told about when its adapter is initialized. -/
def topicsFor (w : World) (language : String) : List Topic :=
  (w.debugger.filesFor language).map .file ++ [.exceptions]

/-- Tell a session about topics in order. -/
def telling (s : SessionId) (topics : List Topic) : Task Wait World Unit := Task.forEach (Topic.send s) topics

/-- The topics are listed at the beginning. -/
lemma stretch_configure {s : SessionId} {own : Session} {w : World} (hw : Serves s own w) :
    (configure s).stretch w
      = ((telling s (topicsFor w own.language)).andThen fun _ => finishing s).stretch w := by
  have hlisted : (configure s).stretch w
      = (((Task.forEach (Sync.fileWith s) (w.debugger.filesFor (w.debugger.session s).language)).andThen fun _ =>
          Sync.exceptionsWith s).andThen fun _ => finishing s).stretch w := rfl
  rw [hlisted, hw.session, telling, topicsFor, Task.forEach_append, Task.forEach_map, Task.andThen_assoc,
    Task.andThen_assoc]
  show _ = ((Task.forEach (Sync.fileWith s) (w.debugger.filesFor own.language)).andThen _).stretch w
  congr 2
  funext _
  show _ = ((Sync.exceptionsWith s).andThen fun _ => .done ()).andThen _
  rw [Task.andThen_assoc]
  rfl

/-- The session is told about the next topic. -/
theorem stretch_telling {s : SessionId} {own : Session} {w : World} (hw : Serves s own w)
    (hopen : (w.channel own.channel).isOpen = true) (t : Topic) (topics : List Topic) (rest : Task Wait World Unit) :
    ∃ k w', ((telling s (t :: topics)).andThen fun _ => rest).stretch w
        = (k.andThen fun _ => (telling s topics).andThen fun _ => rest, w') ∧
      Awaiting own.channel (Quiet own.channel) k ∧ Sends own.channel t w w' := by
  obtain ⟨k, w', hk, hawaiting, hsends⟩ := stretch_send hw hopen t
  refine ⟨k, w', ?_, hawaiting, hsends⟩
  obtain ⟨on, next, rfl, -⟩ := hawaiting
  rw [telling, Task.forEach, Task.andThen_assoc]
  exact Task.stretch_andThen_of_wait hk _

/-- The language of a file is the one of the session, or not known. -/
def Admits (b : Debugger) (language : String) (f : String × Path) : Prop :=
  (b.languageOf (some f.1) (some f.2)).all (· = language) = true

/-- Files are listed that are admitted. -/
lemma mem_filesFor_iff {b : Debugger} {language : String} {path : Path} :
    path ∈ b.filesFor language ↔ ∃ f ∈ b.breakpoints.files, Admits b language f ∧ f.2 = path := by
  rw [Debugger.filesFor, List.mem_map]
  constructor
  · rintro ⟨f, hf, rfl⟩
    obtain ⟨hmem, hl⟩ := List.mem_filter.mp hf
    refine ⟨f, hmem, ?_, rfl⟩
    unfold Admits
    cases hlanguage : b.languageOf (some f.1) (some f.2) with
    | none => rfl
    | some l =>
      rw [hlanguage] at hl
      exact hl
  · rintro ⟨f, hmem, hadmits, rfl⟩
    refine ⟨f, List.mem_filter.mpr ⟨hmem, ?_⟩, rfl⟩
    unfold Admits at hadmits
    cases hlanguage : b.languageOf (some f.1) (some f.2) with
    | none => rfl
    | some l =>
      rw [hlanguage] at hadmits
      exact hadmits

/-- No path is listed twice. -/
lemma pairwise_filesFor (b : Debugger) (language : String) :
    (b.filesFor language).Pairwise fun p q => p.same q = false :=
  List.pairwise_map.mpr ((Catalog.pairwise_files b.breakpoints).filter _)

/-- A topic with breakpoints is listed, if all its files have the language of the session or none that is known. -/
theorem exists_mem_topicsFor {w : World} {language : String} {t : Topic} {b : Breakpoint}
    (hb : b ∈ w.debugger.breakpoints.entries) (ht : b.topic.Same t)
    (hadmits : ∀ x ∈ w.debugger.breakpoints.entries, x.topic.Same t → ∀ f, Catalog.fileOf? x = some f →
      Admits w.debugger language f) : ∃ u ∈ topicsFor w language, u.Same t := by
  cases hk : b.kind with
  | exception caught uncaught =>
    have htopic : b.topic = .exceptions := by rw [Breakpoint.topic, hk]
    rw [htopic] at ht
    exact ⟨.exceptions, List.mem_append_right _ (List.mem_singleton.mpr rfl), ht⟩
  | line project path line column anchor =>
    have htopic : b.topic = .file path := by rw [Breakpoint.topic, hk]
    have hfile : (project, path) ∈ w.debugger.breakpoints.entries.filterMap Catalog.fileOf? :=
      List.mem_filterMap.mpr ⟨b, hb, by rw [Catalog.fileOf?, hk]⟩
    have hkept : ∃ g ∈ [] ++ Catalog.distinctFiles [] (w.debugger.breakpoints.entries.filterMap Catalog.fileOf?),
        g.2.same path = true := Catalog.exists_mem_distinctFiles hfile
    obtain ⟨g, hg, hsame⟩ := hkept
    rw [List.nil_append] at hg
    rw [htopic] at ht
    have hgt : (Topic.file g.2).Same t := (Topic.same_file_iff.mp hsame).trans ht
    refine ⟨.file g.2, List.mem_append_left _ (List.mem_map.mpr ⟨g.2, ?_, rfl⟩), hgt⟩
    -- the file that is kept belongs to a breakpoint of the topic
    obtain ⟨x, hx, hxg⟩ := List.mem_filterMap.mp (Catalog.mem_distinctFiles hg)
    have hadmitted := hadmits x hx (Breakpoint.topic_of_fileOf? hxg ▸ hgt) g hxg
    refine mem_filesFor_iff.mpr ⟨g, ?_, hadmitted, rfl⟩
    rw [Catalog.files, List.mem_mergeSort]
    exact hg

end Running

end Switchboard.Debug
