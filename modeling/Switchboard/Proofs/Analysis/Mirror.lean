import Switchboard.World
import Switchboard.Proofs.Json.Fields
import Switchboard.Proofs.Keyed

/-!
# Remarks as the editor is told of them

A server publishes params of any form. Those that name a document and list remarks on it replace what was remarked on it.

* `Diagnostic.Of`, `Remarks`: which values are remarks, and those among the values of a list;
* `Diagnostic.readAll_eq_iff`: these are read;
* `Diagnostics.listed?`: what params list for a document;
* `Diagnostics.run`: publications in a row, and the notes that the editor gets;
* `Diagnostics.get_run`: for each document the last list counts;
* `Diagnostics.replay_run`: whoever follows the notes has what is stored;
* `Diagnostics.mirrors`: both, after every step;
* `World.remarks_applyAnalysisEvents`: what a session hears from its server is stored and told in this way.
-/

namespace Switchboard.Analysis

open Json (Shape Fields Members)

/-! ## Entries -/

section Entries

variable {v : Json} {members : List (String × Json)}

/-- Where a reader takes what is written of each value, and never `null`, a nullable one takes `null` besides. -/
lemma nullable_eq_ok_iff {α : Type} {shape : Shape α} {write : α → Json} (hread : ∀ v x, shape v = .ok x ↔ v = write x)
    (hwrite : ∀ x, write x ≠ .null) {a : Option α} : Shape.nullable shape v = .ok a ↔ v = a.elim .null write := by
  by_cases hnull : v = .null
  · subst hnull
    cases a with
    | none => exact iff_of_true rfl rfl
    | some x => exact iff_of_false nofun (hwrite x).symm
  · have hsome : Shape.nullable shape v = some <$> shape v := by
      unfold Shape.nullable
      split
      · exact absurd rfl hnull
      · rfl
    rw [hsome]
    cases hshape : shape v with
    | error e =>
      refine iff_of_false nofun ?_
      cases a with
      | none => exact hnull
      | some x =>
        intro hx
        rw [(hread v x).mpr hx] at hshape
        cases hshape
    | ok x =>
      have hx := (hread v x).mp hshape
      cases a with
      | none => exact iff_of_false nofun hnull
      | some y =>
        constructor
        · intro h
          obtain rfl : x = y := Option.some.inj (Except.ok.inj h)
          exact hx
        · intro hy
          rw [(hread v y).mpr hy] at hshape
          obtain rfl := Except.ok.inj hshape
          rfl

lemma nullable_any_eq_ok_iff {a : Option Json} :
    Shape.nullable Shape.any v = .ok a ↔ v = a.getD .null ∧ a ≠ some .null := by
  cases a with
  | none =>
    unfold Shape.nullable
    split
    · simp [pure, Except.pure]
    · next hnull => exact iff_of_false nofun fun h => hnull h.1
  | some x =>
    unfold Shape.nullable
    split
    · refine iff_of_false nofun ?_
      rintro ⟨heq, hne⟩
      exact hne (congrArg some heq.symm)
    · next hnull =>
      constructor
      · intro h
        obtain rfl : v = x := Option.some.inj (Except.ok.inj h)
        exact ⟨rfl, fun heq => hnull (Option.some.inj heq)⟩
      · rintro ⟨rfl, -⟩
        rfl

lemma string_eq_ok_iff {t : String} : Shape.string v = .ok t ↔ v = .str t := by
  cases v <;> simp [Shape.string, pure, Except.pure, throw, throwThe, MonadExceptOf.throw]

/-- A natural number up to a bound. -/
lemma natural_eq_ok_iff {type : String} {high n : Nat} :
    Int.toNat <$> Shape.integer type 0 high v = .ok n ↔ v = .nat n ∧ n ≤ high := by
  constructor
  · intro h
    unfold Shape.integer at h
    split at h
    · next i =>
      split at h
      · next hrange =>
        obtain ⟨hlow, hhigh⟩ := hrange
        obtain rfl : i.toNat = n := Except.ok.inj h
        refine ⟨?_, by omega⟩
        rw [Json.nat, Int.toNat_of_nonneg hlow]
      · cases h
    · cases h
  · rintro ⟨rfl, hn⟩
    have hrange : (0 : Int) ≤ n ∧ (n : Int) ≤ high := by omega
    simp only [Shape.integer, hrange, and_self, if_true]
    rfl

/-- The numbers of severities are those from one to four. -/
lemma Severity.shape_eq_ok_iff {s : Severity} : Severity.shape v = .ok s ↔ v = .nat s.number := by
  have hread : ∀ n : Nat, Shape.u8 v = .ok n ↔ v = .nat n ∧ n ≤ 255 := fun n => natural_eq_ok_iff
  unfold Severity.shape
  constructor
  · intro h
    cases hnumber : Shape.u8 v with
    | error e =>
      rw [hnumber] at h
      cases h
    | ok n =>
      rw [hnumber] at h
      simp only [bind, Except.bind] at h
      split at h
      · next found hfound =>
        obtain rfl : found = s := Except.ok.inj h
        have hn : found.number = n := by simpa using List.find?_some hfound
        rw [hn]
        exact ((hread n).mp hnumber).1
      · cases h
  · rintro rfl
    have hsmall : s.number ≤ 255 := by cases s <;> decide
    rw [(hread s.number).mpr ⟨rfl, hsmall⟩]
    cases s <;> rfl

/-- What a position has under the names of its fields. -/
structure Position.Form (get : String → Option Json) (p : Position) : Prop where
  line : get "line" = some (.nat p.line) ∧ p.line < Position.limit
  character : get "character" = some (.nat p.character) ∧ p.character < Position.limit

/-- The value is a position. -/
def Position.Of (v : Json) (p : Position) : Prop :=
  ∃ get, Members ["line", "character"] v get ∧ Position.Form get p

/-- What a range has under the names of its fields. -/
structure Range.Form (get : String → Option Json) (r : Range) : Prop where
  start : ∃ v, get "start" = some v ∧ Position.Of v r.start
  stop : ∃ v, get "end" = some v ∧ Position.Of v r.stop

/-- The value is a range. -/
def Range.Of (v : Json) (r : Range) : Prop :=
  ∃ get, Members ["start", "end"] v get ∧ Range.Form get r

/-- What a remark has under the names of its fields: a range and a message, and whatever else it has is of its kind. -/
structure Diagnostic.Form (get : String → Option Json) (d : Diagnostic) : Prop where
  range : ∃ v, get "range" = some v ∧ Range.Of v d.range
  severity : (get "severity").getD .null = d.severity.elim .null fun s => .nat s.number
  message : get "message" = some (.str d.message)
  source : (get "source").getD .null = d.source.elim .null .str
  code : (get "code").getD .null = d.code.getD .null ∧ d.code ≠ some .null

/-- The value is a remark. -/
def Diagnostic.Of (v : Json) (d : Diagnostic) : Prop :=
  ∃ get, Members ["range", "severity", "message", "source", "code"] v get ∧ Diagnostic.Form get d

lemma Position.shape_eq_ok_iff {p : Position} : Position.shape v = .ok p ↔ Position.Of v p := by
  have hread : ∀ v n, Shape.u32 v = .ok n ↔ v = .nat n ∧ n < Position.limit := fun v n =>
    natural_eq_ok_iff.trans (and_congr_right fun _ => Nat.lt_succ_iff.symm)
  have hhonest := ((Fields.honest_field "line" Shape.u32).map Position.mk).seq (Fields.honest_field "character" Shape.u32)
  have hnames : ["line", "character"].Nodup := by decide
  refine (Fields.shape_eq_ok_iff hhonest hnames).trans (exists_congr fun get => and_congr_right fun _ => ?_)
  simp only [Fields.builds_seq, Fields.builds_map, Fields.builds_field, hread]
  constructor
  · rintro ⟨_, character, ⟨line, ⟨v, hv, rfl, hline⟩, rfl⟩, ⟨w, hw, rfl, hcharacter⟩, rfl⟩
    exact ⟨⟨hv, hline⟩, hw, hcharacter⟩
  · rintro ⟨⟨hv, hline⟩, hw, hcharacter⟩
    exact ⟨_, _, ⟨_, ⟨_, hv, rfl, hline⟩, rfl⟩, ⟨_, hw, rfl, hcharacter⟩, rfl⟩

lemma Range.shape_eq_ok_iff {r : Range} : Range.shape v = .ok r ↔ Range.Of v r := by
  have hhonest := ((Fields.honest_field "start" Position.shape).map Range.mk).seq (Fields.honest_field "end" Position.shape)
  have hnames : ["start", "end"].Nodup := by decide
  refine (Fields.shape_eq_ok_iff hhonest hnames).trans (exists_congr fun get => and_congr_right fun _ => ?_)
  simp only [Fields.builds_seq, Fields.builds_map, Fields.builds_field, Position.shape_eq_ok_iff]
  constructor
  · rintro ⟨_, stop, ⟨start, hstart, rfl⟩, hstop, rfl⟩
    exact ⟨hstart, hstop⟩
  · rintro ⟨hstart, hstop⟩
    exact ⟨_, _, ⟨_, hstart, rfl⟩, hstop, rfl⟩

/-- The values that are read as remarks. -/
theorem Diagnostic.shape_eq_ok_iff {d : Diagnostic} : Diagnostic.shape v = .ok d ↔ Diagnostic.Of v d := by
  have hhonest : Diagnostic.fields.Honest :=
    (((((Fields.honest_field "range" Range.shape).map Diagnostic.mk).seq
      (Fields.honest_fieldD? "severity" Severity.shape)).seq (Fields.honest_field "message" Shape.string)).seq
      (Fields.honest_fieldD? "source" Shape.string)).seq (Fields.honest_fieldD? "code" Shape.any)
  have hnames : ["range", "severity", "message", "source", "code"].Nodup := by decide
  have hseverity : ∀ v s, Shape.nullable Severity.shape v = .ok s ↔ v = s.elim .null fun s => .nat s.number :=
    fun v s => nullable_eq_ok_iff (fun v x => Severity.shape_eq_ok_iff) nofun
  have hsource : ∀ v s, Shape.nullable Shape.string v = .ok s ↔ v = s.elim .null .str :=
    fun v s => nullable_eq_ok_iff (fun v x => string_eq_ok_iff) nofun
  refine (Fields.shape_eq_ok_iff hhonest hnames).trans (exists_congr fun get => and_congr_right fun _ => ?_)
  simp only [Diagnostic.fields, Fields.builds_seq, Fields.builds_map, Fields.builds_field, Fields.builds_fieldD?, hseverity,
    hsource, string_eq_ok_iff, nullable_any_eq_ok_iff, Range.shape_eq_ok_iff]
  constructor
  · rintro ⟨_, code, ⟨_, source, ⟨_, message, ⟨_, severity, ⟨range, hrange, rfl⟩, hseverity, rfl⟩,
      ⟨_, hmessage, rfl⟩, rfl⟩, hsource, rfl⟩, hcode, rfl⟩
    exact ⟨hrange, hseverity, hmessage, hsource, hcode⟩
  · rintro ⟨hrange, hseverity, hmessage, hsource, hcode⟩
    exact ⟨_, _, ⟨_, _, ⟨_, _, ⟨_, _, ⟨_, hrange, rfl⟩, hseverity, rfl⟩, ⟨_, hmessage, rfl⟩, rfl⟩, hsource, rfl⟩, hcode, rfl⟩

/-- The remarks among the values of a list, in their order. -/
inductive Remarks : List Json → List Diagnostic → Prop
  | nil : Remarks [] []
  | keep {v : Json} {d : Diagnostic} {items : List Json} {l : List Diagnostic} (h : Diagnostic.Of v d)
    (hrest : Remarks items l) : Remarks (v :: items) (d :: l)
  | skip {v : Json} {items : List Json} {l : List Diagnostic} (h : ∀ d, ¬ Diagnostic.Of v d) (hrest : Remarks items l) :
    Remarks (v :: items) l

/-- What is read of a list are the remarks in it. -/
theorem Diagnostic.readAll_eq_iff {items : List Json} {l : List Diagnostic} :
    Diagnostic.readAll items = l ↔ Remarks items l := by
  induction items generalizing l with
  | nil =>
    refine ⟨fun h => h ▸ .nil, ?_⟩
    rintro ⟨⟩
    rfl
  | cons v items ih =>
    rw [readAll, List.filterMap_cons]
    cases hshape : Diagnostic.shape v with
    | ok d =>
      have hd : Diagnostic.Of v d := Diagnostic.shape_eq_ok_iff.mp hshape
      refine ⟨fun h => h ▸ .keep hd (ih.mp rfl), ?_⟩
      rintro (_ | ⟨hd', hrest⟩ | ⟨hno, _⟩)
      · obtain rfl : d = _ := Except.ok.inj (hshape.symm.trans (Diagnostic.shape_eq_ok_iff.mpr hd'))
        exact congrArg _ (ih.mpr hrest)
      · exact absurd hd (hno d)
    | error e =>
      have hno : ∀ d, ¬ Diagnostic.Of v d :=
        fun d hd => nomatch hshape.symm.trans (Diagnostic.shape_eq_ok_iff.mpr hd)
      refine ⟨fun h => .skip hno (ih.mp h), ?_⟩
      rintro (_ | ⟨hd, _⟩ | ⟨_, hrest⟩)
      · exact absurd hd (hno _)
      · exact ih.mpr hrest

end Entries

end Switchboard.Analysis

namespace Switchboard.Analysis.Diagnostics

variable {s : Diagnostics} {params : Json} {uri : String}

/-! ## One publication -/

/-- The document that params name and what they list, if they do both. -/
def published? (params : Json) : Option (String × List Json) :=
  match params.get? "uri", params.get? "diagnostics" with
  | some (.str uri), some (.arr items) => some (uri, items)
  | _, _ => none

/-- What params list for a document. -/
def listed? (uri : String) (params : Json) : Option (List Json) :=
  match published? params with
  | some (other, items) => if other = uri then some items else none
  | none => none

/-- Apply what a server published, and tell the editor if there was anything to apply. -/
def apply (s : Diagnostics) (params : Json) : Diagnostics × List Note :=
  match s.publishParams params with
  | some (s, n) => (s, [n])
  | none => (s, [])

/-- Follow a note: it replaces what was remarked on its document. -/
def Note.replay (board : String → List Diagnostic) (n : Note) : String → List Diagnostic :=
  Function.update board n.uri n.diagnostics

lemma published?_eq_some {items : List Json} :
    published? params = some (uri, items) ↔
      params.get? "uri" = some (.str uri) ∧ params.get? "diagnostics" = some (.arr items) := by
  unfold published?
  split
  · next huri hitems => simp [huri, hitems]
  · next hnot =>
    refine iff_of_false nofun ?_
    rintro ⟨huri, hitems⟩
    exact hnot uri items huri hitems

/-- Params are applied exactly if they name a document and list remarks on it. -/
lemma apply_eq (s : Diagnostics) (params : Json) :
    s.apply params = match published? params with
      | some (uri, items) =>
        ((s.publish uri (Diagnostic.readAll items)).1, [(s.publish uri (Diagnostic.readAll items)).2])
      | none => (s, []) := by
  unfold apply publishParams published?
  cases params.get? "uri" with
  | none => rfl
  | some u =>
    cases params.get? "diagnostics" with
    | none => cases u <;> rfl
    | some v => cases u <;> cases v <;> rfl

/-- A list that is published is what is remarked on its document from now on, also if it is empty. -/
lemma get_publish (s : Diagnostics) (uri : String) (l : List Diagnostic) :
    (s.publish uri l).1.get = Function.update s.get uri l := by
  funext other
  have hothers : (s.documents.filter (·.1 ≠ uri)).lookup other = if other = uri then none else s.documents.lookup other :=
    (congrFun (Keyed.lookup_without s.documents uri) other).trans (Function.update_apply ..)
  rw [Function.update_apply, publish, get]
  dsimp only
  by_cases heq : other = uri
  · subst heq
    rw [if_pos rfl]
    cases l with
    | nil =>
      show ((s.documents.filter (·.1 ≠ other)).lookup other).getD [] = []
      rw [hothers, if_pos rfl]
      rfl
    | cons d rest => simp
  · have hbeq : (other == uri) = false := by simpa using heq
    rw [if_neg heq, get]
    split
    · rw [hothers, if_neg heq]
    · rw [List.lookup_cons, hbeq, hothers, if_neg heq]

lemma get_apply (s : Diagnostics) (params : Json) (uri : String) :
    (s.apply params).1.get uri = ((listed? uri params).map Diagnostic.readAll).getD (s.get uri) := by
  rw [apply_eq, listed?]
  cases published? params with
  | none => rfl
  | some p =>
    obtain ⟨other, items⟩ := p
    dsimp only
    rw [get_publish, Function.update_apply]
    by_cases heq : uri = other
    · rw [if_pos heq, if_pos heq.symm]
      rfl
    · rw [if_neg heq, if_neg (Ne.symm heq)]
      rfl

lemma replay_apply (s : Diagnostics) (params : Json) :
    (s.apply params).2.foldl Note.replay s.get = (s.apply params).1.get := by
  rw [apply_eq]
  cases published? params with
  | none => rfl
  | some p => exact (get_publish s p.1 _).symm

/-- A publication changes nothing but remarks. -/
lemma apply_of (s : Diagnostics) (params : Json) :
    (s.apply params).1.language = s.language ∧ (s.apply params).1.workspace = s.workspace ∧
      ∀ n ∈ (s.apply params).2, n.language = s.language ∧ n.workspace = s.workspace := by
  rw [apply_eq]
  cases published? params with
  | none => exact ⟨rfl, rfl, nofun⟩
  | some p =>
    refine ⟨rfl, rfl, fun n hn => ?_⟩
    obtain rfl := List.mem_singleton.mp hn
    exact ⟨rfl, rfl⟩

/-! ## Publications in a row -/

/-- Apply all that a server published, and what the editor is told meanwhile. -/
def run (s : Diagnostics) : List Json → Diagnostics × List Note
  | [] => (s, [])
  | params :: rest => (((s.apply params).1.run rest).1, (s.apply params).2 ++ ((s.apply params).1.run rest).2)

lemma run_append (s : Diagnostics) (before after : List Json) :
    s.run (before ++ after) = (((s.run before).1.run after).1, (s.run before).2 ++ ((s.run before).1.run after).2) := by
  induction before generalizing s with
  | nil => rfl
  | cons params rest ih =>
    simp only [List.cons_append, run]
    rw [ih, List.append_assoc]

/-- For each document the last list counts. -/
theorem get_run (s : Diagnostics) (history : List Json) (uri : String) :
    (s.run history).1.get uri
      = ((history.reverse.findSome? (listed? uri)).map Diagnostic.readAll).getD (s.get uri) := by
  induction history generalizing s with
  | nil => rfl
  | cons params rest ih =>
    rw [run, ih, get_apply, List.reverse_cons, List.findSome?_append]
    cases rest.reverse.findSome? (listed? uri) with
    | some items => rfl
    | none =>
      simp only [List.findSome?_singleton]
      rfl

/-- Whoever follows the notes has what is stored. -/
theorem replay_run (s : Diagnostics) (history : List Json) :
    (s.run history).2.foldl Note.replay s.get = (s.run history).1.get := by
  induction history generalizing s with
  | nil => rfl
  | cons params rest ih =>
    rw [run]
    dsimp only
    rw [List.foldl_append, replay_apply, ih]

lemma run_of (s : Diagnostics) (history : List Json) :
    (s.run history).1.language = s.language ∧ (s.run history).1.workspace = s.workspace ∧
      ∀ n ∈ (s.run history).2, n.language = s.language ∧ n.workspace = s.workspace := by
  induction history generalizing s with
  | nil => exact ⟨rfl, rfl, nofun⟩
  | cons params rest ih =>
    obtain ⟨hlanguage, hworkspace, hnotes⟩ := s.apply_of params
    obtain ⟨hlanguage', hworkspace', hnotes'⟩ := ih (s.apply params).1
    rw [hlanguage, hworkspace] at hnotes'
    refine ⟨hlanguage'.trans hlanguage, hworkspace'.trans hworkspace, fun n hn => ?_⟩
    rcases List.mem_append.mp hn with hn | hn
    · exact hnotes n hn
    · exact hnotes' n hn

/-- After any publications, whatever comes later: on each document there are just the remarks in the last list for it, in
their order, and none if there is no list; an editor that has followed the notes so far has just them; and params that do
not name a document, or do not list anything, change nothing and are not told. -/
theorem mirrors (language : String) (workspace : Path) (before after : List Json) :
    let start : Diagnostics := { language, workspace }
    let s := (start.run before).1
    let notes := (start.run before).2
    start.run (before ++ after) = ((s.run after).1, notes ++ (s.run after).2) ∧
      (∀ uri l, s.get uri = l ↔ (before.reverse.findSome? (listed? uri)).elim (l = []) (Remarks · l)) ∧
      notes.foldl Note.replay (fun _ => []) = s.get ∧
      (∀ n ∈ notes, n.language = language ∧ n.workspace = workspace) ∧
      ∀ params, (∃ uri items, params.get? "uri" = some (.str uri) ∧ params.get? "diagnostics" = some (.arr items)) ∨
        s.apply params = (s, []) := by
  intro start s notes
  refine ⟨start.run_append before after, fun uri l => ?_, start.replay_run before, (start.run_of before).2.2,
    fun params => ?_⟩
  · rw [start.get_run before uri]
    cases before.reverse.findSome? (listed? uri) with
    | none => exact eq_comm
    | some items => exact Diagnostic.readAll_eq_iff
  · cases hpublished : published? params with
    | some p => exact .inl ⟨p.1, p.2, published?_eq_some.mp hpublished⟩
    | none =>
      right
      rw [apply_eq, hpublished]

end Switchboard.Analysis.Diagnostics

namespace Switchboard.World

open Analysis

/-! ## Sessions -/

/-- The params among what a session hears that are publications. -/
def published (events : List Channel.Event) : List Json :=
  (events.filter (·.name = Session.publishEvent)).map (·.body)

/-- The session has other remarks, and the editor was told. -/
structure Remarks (k : Nat) (change : Diagnostics × List Diagnostics.Note) (w w' : World) : Prop where
  sessions : w'.analysis.sessions = w.analysis.sessions.modify k fun s => { s with diagnostics := change.1 }
  told : w'.told = w.told ++ change.2.map .diagnostics

lemma remarks_refl (k : Nat) (w : World) : Remarks k ((w.analysis.session k).diagnostics, []) w w := by
  refine ⟨List.ext_getElem? fun i => ?_, (List.append_nil _).symm⟩
  rw [List.getElem?_modify]
  by_cases hi : k = i
  · subst hi
    rw [Registry.session, List.getD_eq_getElem?_getD]
    cases w.analysis.sessions[k]? with
    | none => rfl
    | some s => simp
  · simp only [if_neg hi, id_map']

lemma Remarks.trans {k : Nat} {change change' : Diagnostics × List Diagnostics.Note} {w w' w'' : World}
    (h : Remarks k change w w') (h' : Remarks k change' w' w'') : Remarks k (change'.1, change.2 ++ change'.2) w w'' := by
  refine ⟨?_, ?_⟩
  · rw [h'.sessions, h.sessions]
    refine List.ext_getElem? fun i => ?_
    rw [List.getElem?_modify, List.getElem?_modify, List.getElem?_modify]
    cases w.analysis.sessions[i]? with
    | none => rfl
    | some s =>
      by_cases hi : k = i
      · simp [hi]
      · simp [hi]
  · rw [h'.told, h.told, List.map_append, List.append_assoc]

lemma Remarks.diagnostics {k : Nat} {change : Diagnostics × List Diagnostics.Note} {w w' : World}
    (h : Remarks k change w w') (hk : k < w.analysis.sessions.length) :
    k < w'.analysis.sessions.length ∧ (w'.analysis.session k).diagnostics = change.1 := by
  refine ⟨by rw [h.sessions, List.length_modify]; exact hk, ?_⟩
  rw [Registry.session, h.sessions, List.getD_eq_getElem?_getD, List.getElem?_modify_eq, List.getElem?_eq_getElem hk]
  rfl

lemma remarks_applyAnalysisEvent (k : Nat) (w : World) (e : Channel.Event) :
    Remarks k ((w.analysis.session k).diagnostics.run (published [e])) w (applyAnalysisEvent k w e) := by
  unfold applyAnalysisEvent
  split
  · next hname =>
    have hone : published [e] = [e.body] := by simp [published, hname]
    have hrun : ∀ s : Diagnostics, s.run [e.body] = s.apply e.body := fun s => Prod.ext rfl (List.append_nil _)
    rw [hone, hrun, Diagnostics.apply]
    cases (w.analysis.session k).diagnostics.publishParams e.body with
    | some change => exact ⟨rfl, rfl⟩
    | none => exact remarks_refl k w
  · next hname =>
    have hnone : published [e] = [] := by simp [published, hname]
    rw [hnone]
    exact remarks_refl k w

/-- What a session hears from its server is stored, and told the editor, one publication after the other. -/
theorem remarks_applyAnalysisEvents {k : Nat} {w : World} (hk : k < w.analysis.sessions.length)
    (events : List Channel.Event) :
    Remarks k ((w.analysis.session k).diagnostics.run (published events)) w (events.foldl (applyAnalysisEvent k) w) := by
  induction events generalizing w with
  | nil => exact remarks_refl k w
  | cons e rest ih =>
    have hfirst := remarks_applyAnalysisEvent k w e
    obtain ⟨hk', hdiagnostics⟩ := hfirst.diagnostics hk
    have hrest := ih hk'
    have hall : published (e :: rest) = published [e] ++ published rest := by
      rw [published, ← List.singleton_append, List.filter_append, List.map_append]
      rfl
    rw [hdiagnostics] at hrest
    rw [hall, Diagnostics.run_append]
    exact hfirst.trans hrest

end Switchboard.World
