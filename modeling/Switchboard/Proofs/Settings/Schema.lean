import Switchboard.Proofs.Toml.Overlay
import Switchboard.Settings.Basic

/-!
# Where settings stand in a document

* `Schema`, `schema`: which paths of keys are sections, which are settings, and their defaults;
* `Sectioned`: where a document writes sections, it writes them as tables;
* `Settles`: what is left of a document when it is read and written again;
* `Settles.at?_of_states`: settings that are stated are kept;
* `Settles.unsaid`: settings of which nothing is said have their defaults, or belong to a section that is missing.
-/

namespace Switchboard.Settings

open Toml (table layered)

/-! ## Schemas -/

/-- What may stand under a key: a single setting, a value that is taken as it is, or a section with keys of its own.
A setting of which nothing is said has its default, if there is one. -/
inductive Schema where
  | single (default : Option Toml)
  | free (default : Option Toml)
  | record (field : String → Option Schema)

namespace Schema

/-- What stands at a path. -/
def at? : Schema → List String → Option Schema
  | S, [] => some S
  | record field, k :: path => (field k).bind (·.at? path)
  | free _, _ :: _ => some (free none)
  | single _, _ :: _ => none

/-- Fields by name. -/
def fields (l : List (String × Schema)) : Schema := record (l.lookup ·)

/-- The same under every key. -/
def named (S : Schema) : Schema := record fun _ => some S

end Schema

/-- An empty list. -/
def noTexts : Toml := .arr []

/-- A server entry. -/
def serverSchema : Schema :=
  .fields [("command", .single none), ("args", .single noTexts), ("initialization_options", .free none)]

/-- An adapter entry. -/
def adapterSchema : Schema :=
  .fields [("command", .single none), ("args", .single noTexts), ("adapter_id", .single none),
    ("configuration_done", .single none), ("initialize", .free none), ("launch", .free (table [])),
    ("attach", .free (table []))]

/-- A language entry. -/
def languageSchema : Schema :=
  .fields [("extensions", .single noTexts), ("analysis", serverSchema), ("debug", adapterSchema),
    ("capabilities", .free (table []))]

/-- A project entry. -/
def projectSchema : Schema := .fields [("root", .single none), ("language", .single none)]

/-- Log settings. -/
def logSchema : Schema := .fields [("level", .single (some (.str LogLevel.info.name)))]

/-- Protocol tuning. -/
def rpcSchema : Schema :=
  .fields [("request_timeout_secs", .single (some (.int 0))), ("prefetch_delay_ms", .single (some (.int 150))),
    ("deferred_workers", .single (some (.int 2)))]

/-- The sections that there are. -/
def sections : List (String × Schema) :=
  [("log", logSchema), ("rpc", rpcSchema), ("languages", .named languageSchema), ("projects", .named projectSchema)]

/-- All settings. -/
def schema : Schema := .fields sections

/-- Where something is written at the path of a section, it is a table. -/
def Sectioned (S : Schema) (x : Option Toml) : Prop :=
  ∀ path field v, S.at? path = some (.record field) → x.bind (·.at? path) = some v → v.isTable = true

namespace Sectioned

variable {S : Schema} {field : String → Option Schema} {x : Option Toml}

lemma table (h : Sectioned (.record field) x) {v : Toml} (hv : x = some v) : ∃ entries, v = table entries := by
  refine Toml.exists_of_isTable (h [] field v rfl ?_)
  rw [hv]
  cases v <;> rfl

lemma lookup {entries : List (String × Toml)} (h : Sectioned (.record field) (some (Toml.table entries))) {k : String}
    (hk : field k = some S) : Sectioned S (entries.lookup k) := by
  intro path inner v hS hv
  refine h (k :: path) inner v ?_ ?_
  · rw [Schema.at?, hk]
    exact hS
  · rw [Option.bind_some, Toml.at?_table]
    exact hv

lemma none (S : Schema) : Sectioned S none := by
  intro path field v _ hv
  cases hv

lemma single (d : Option Toml) (x : Option Toml) : Sectioned (.single d) x := by
  rintro (_ | ⟨k, path⟩) field v hS <;> cases hS

/-- A table with the sections of its fields. -/
lemma fields {l : List (String × Schema)} {entries : List (String × Toml)}
    (h : ∀ e ∈ l, Sectioned e.2 (entries.lookup e.1)) : Sectioned (.fields l) (some (Toml.table entries)) := by
  rintro (_ | ⟨k, path⟩) inner v hS hv
  · obtain rfl := Option.some.inj hv
    rfl
  · obtain ⟨S, hk, hS⟩ := Option.bind_eq_some_iff.mp hS
    rw [Option.bind_some, Toml.at?_table] at hv
    exact h (k, S) (Toml.mem_of_lookup hk) path inner v hS hv

/-- Where a document is laid over another one there are sections still. -/
lemma overlay {dates : Prop} {b t : Toml} (hb : Sectioned S (some b)) (ht : Sectioned S (some t)) (hordered : t.InOrder dates) :
    Sectioned S (some (b.overlay t)) := by
  intro path inner v hS hv
  rcases Toml.at?_overlay hordered hv with hnew | hold | ⟨old, new, hold, hnew, rfl⟩
  · exact ht path inner v hS hnew
  · exact hb path inner v hS hold
  · obtain ⟨l, rfl⟩ := Toml.exists_of_isTable (hb path inner old hS hold)
    obtain ⟨m, rfl⟩ := Toml.exists_of_isTable (ht path inner new hS hnew)
    rw [Toml.overlay_table_table]
    rfl

lemma layered {dates : Prop} {x p : Option Toml} (hx : Sectioned S x) (hp : Sectioned S p)
    (hordered : ∀ t, p = some t → t.InOrder dates) : Sectioned S (layered x p) := by
  cases p with
  | none => rwa [Toml.layered_none]
  | some t =>
    cases x with
    | none => exact hp
    | some b => exact hx.overlay hp (hordered t rfl)

end Sectioned

/-! ## What is kept -/

/-- What a part of a document is when it was read and is written again. -/
inductive Settles : Schema → Option Toml → Option Toml → Prop where
  | absent (S : Schema) : Settles S none none
  | single (d : Option Toml) (v : Toml) (h : v.isTable = false) : Settles (.single d) (some v) (some v)
  | free (d : Option Toml) (v : Toml) : Settles (.free d) (some v) (some v)
  | singleDefault (v : Toml) (h : v.isTable = false) : Settles (.single (some v)) none (some v)
  | freeDefault : Settles (.free (some (table []))) none (some (table []))
  /-- A name over nothing is the name. -/
  | name (d n : String) (v : Toml) : Settles (.single (some (.str d))) (some (table [(n, v)])) (some (.str n))
  /-- Only what has a meaning is left. -/
  | record {field : String → Option Schema} {l m : List (String × Toml)}
      (known : ∀ k S, field k = some S → Settles S (l.lookup k) (m.lookup k))
      (unknown : ∀ k, field k = none → m.lookup k = none) : Settles (.record field) (some (table l)) (some (table m))
  | recordDefault {field : String → Option Schema} {y : Option Toml} (h : Settles (.record field) (some (table [])) y) :
    Settles (.record field) none y

/-- What is written of a value that is written at the path of a setting: of a name over nothing, the name. -/
def kept : Toml → Toml
  | .table [(name, _)] => .str name
  | v => v

/-- A path at which there is a setting, with what is written at it: any value, or no table where values are taken as they
are. -/
def Schema.States (S : Schema) (path : List String) (v : Toml) : Prop :=
  (∃ d, S.at? path = some (.single d)) ∨ (∃ d, S.at? path = some (.free d)) ∧ v.isTable = false

/-- Nothing is said at the path of a setting, or its default is. -/
def Unsaid (S : Schema) (path : List String) (x : Option Toml) : Prop :=
  (∀ v, x = some v → v.Silent path) ∨
    ∃ v, (S.at? path = some (.single (some v)) ∨ S.at? path = some (.free (some v))) ∧ x.bind (·.at? path) = some v

/-- The path of a setting. -/
def Schema.IsSetting (S : Schema) (path : List String) : Prop :=
  ∃ d, S.at? path = some (.single d) ∨ S.at? path = some (.free d)

@[simp] lemma kept_of_not_table {v : Toml} (h : v.isTable = false) : kept v = v := by
  cases v with
  | table l => cases h
  | _ => rfl

namespace Settles

variable {S : Schema} {x y : Option Toml} {path : List String}

/-- What is stated is kept. -/
theorem at?_of_states (h : Settles S x y) {v : Toml} (hS : S.States path v) (hv : x.bind (·.at? path) = some v) :
    y.bind (·.at? path) = some (kept v) := by
  induction h generalizing path with
  | absent S => cases hv
  | single d w hleaf =>
    cases path with
    | nil =>
      obtain rfl := Option.some.inj hv
      rw [kept_of_not_table hleaf]
      exact hv
    | cons k rest => obtain ⟨d, hS⟩ | ⟨⟨d, hS⟩, -⟩ := hS <;> cases hS
  | free d w =>
    obtain ⟨d, hS⟩ | ⟨-, hleaf⟩ := hS
    · cases path <;> cases hS
    · rw [kept_of_not_table hleaf]
      exact hv
  | singleDefault w _ => cases hv
  | freeDefault => cases hv
  | name d n w =>
    cases path with
    | nil =>
      obtain rfl := Option.some.inj hv
      rfl
    | cons k rest => obtain ⟨d, hS⟩ | ⟨⟨d, hS⟩, -⟩ := hS <;> cases hS
  | recordDefault _ _ => cases hv
  | @record field l m hknown _ ih =>
    cases path with
    | nil => obtain ⟨d, hS⟩ | ⟨⟨d, hS⟩, -⟩ := hS <;> cases hS
    | cons k rest =>
      rw [Option.bind_some, Toml.at?_table] at hv ⊢
      cases hk : field k with
      | none => obtain ⟨d, hS⟩ | ⟨⟨d, hS⟩, -⟩ := hS <;> simp [Schema.at?, hk] at hS
      | some T =>
        refine ih k T hk ?_ hv
        simpa [Schema.States, Schema.at?, hk] using hS

/-- No single setting is written as a table. -/
lemma not_table (h : Settles S x y) {d : Option Toml} {v : Toml} (hS : S.at? path = some (.single d))
    (hv : y.bind (·.at? path) = some v) : v.isTable = false := by
  induction h generalizing path with
  | absent S => cases hv
  | single d w hleaf =>
    cases path with
    | nil => exact Option.some.inj hv ▸ hleaf
    | cons k rest => cases hS
  | singleDefault w hleaf =>
    cases path with
    | nil => exact Option.some.inj hv ▸ hleaf
    | cons k rest => cases hS
  | name d n w =>
    cases path with
    | nil => exact Option.some.inj hv ▸ rfl
    | cons k rest => cases hS
  | free d w => cases path <;> cases hS
  | freeDefault => cases path <;> cases hS
  | recordDefault _ ih => exact ih hS hv
  | @record field l m hknown hunknown ih =>
    cases path with
    | nil => cases hS
    | cons k rest =>
      rw [Option.bind_some, Toml.at?_table] at hv
      cases hk : field k with
      | none => simp [Schema.at?, hk] at hS
      | some T =>
        refine ih k T hk ?_ hv
        simpa [Schema.at?, hk] using hS

/-- All sections are written as tables. -/
lemma sectioned (h : Settles S x y) : Sectioned S y := by
  induction h with
  | absent S => rintro path field v - hv; cases hv
  | single d w _ => rintro (_ | ⟨k, rest⟩) field v hS hv <;> cases hS
  | singleDefault w _ => rintro (_ | ⟨k, rest⟩) field v hS hv <;> cases hS
  | name d n w => rintro (_ | ⟨k, rest⟩) field v hS hv <;> cases hS
  | free d w => rintro (_ | ⟨k, rest⟩) field v hS hv <;> cases hS
  | freeDefault => rintro (_ | ⟨k, rest⟩) field v hS hv <;> cases hS
  | recordDefault _ ih => exact ih
  | @record field l m hknown hunknown ih =>
    rintro (_ | ⟨k, rest⟩) inner v hS hv
    · obtain rfl := Option.some.inj hv
      rfl
    · rw [Option.bind_some, Toml.at?_table] at hv
      cases hk : field k with
      | none => simp [Schema.at?, hk] at hS
      | some T =>
        rw [Schema.at?, hk] at hS
        exact ih k T hk rest inner v hS hv

end Settles

lemma not_isSetting_record {field : String → Option Schema} : ¬ (Schema.record field).IsSetting [] := by
  rintro ⟨d, h | h⟩ <;> cases h

/-- Below a key there is what the field has there. -/
lemma isSetting_record_iff {field : String → Option Schema} {k : String} {path : List String} :
    (Schema.record field).IsSetting (k :: path) ↔ ∃ S, field k = some S ∧ S.IsSetting path := by
  cases hk : field k with
  | none => simp [Schema.IsSetting, Schema.at?, hk]
  | some S => simp [Schema.IsSetting, Schema.at?, hk]

lemma unsaid_record_iff {field : String → Option Schema} {S : Schema} {l : List (String × Toml)} {k : String}
    {path : List String} (hk : field k = some S) :
    Unsaid (.record field) (k :: path) (some (table l)) ↔ Unsaid S path (l.lookup k) := by
  have hsilent : (∀ v, some (table l) = some v → v.Silent (k :: path)) ↔ ∀ v, l.lookup k = some v → v.Silent path :=
    ⟨fun h => h _ rfl, fun h v hv => Option.some.inj hv ▸ h⟩
  rw [Unsaid, Unsaid, hsilent, Option.bind_some, Toml.at?_table]
  simp only [Schema.at?, hk, Option.bind_some]

lemma silent_empty (k : String) (path : List String) : (table []).Silent (k :: path) := by
  intro v hv
  cases hv

lemma unsaid_empty {field : String → Option Schema} {path : List String} (h : (Schema.record field).IsSetting path) :
    Unsaid (.record field) path (some (table [])) := by
  cases path with
  | nil => exact absurd h not_isSetting_record
  | cons k rest =>
    refine .inl fun v hv => ?_
    obtain rfl := Option.some.inj hv
    exact silent_empty k rest

/-- Of what nothing is said, the default is left, or nothing. -/
theorem Settles.unsaid {S : Schema} {x y : Option Toml} {path : List String} (h : Settles S x y) (hS : S.IsSetting path)
    (hx : Unsaid S path x) : Unsaid S path y := by
  induction h generalizing path with
  | absent S => exact hx
  | single d v _ => exact hx
  | free d v => exact hx
  | singleDefault v _ =>
    cases path with
    | nil => exact .inr ⟨v, .inl rfl, by rw [Option.bind_some, Toml.at?]⟩
    | cons k rest => obtain ⟨d, hS | hS⟩ := hS <;> cases hS
  | freeDefault =>
    cases path with
    | nil => exact .inr ⟨table [], .inr rfl, rfl⟩
    | cons k rest =>
      refine .inl fun v hv => ?_
      obtain rfl := Option.some.inj hv
      exact silent_empty k rest
  | name d n v =>
    cases path with
    | nil =>
      rcases hx with hsilent | ⟨w, hw | hw, hwritten⟩
      · exact (hsilent _ rfl).elim
      · -- the default is no table
        obtain rfl := Option.some.inj (Schema.single.inj (Option.some.inj hw))
        cases hwritten
      · cases hw
    | cons k rest => obtain ⟨d, hS | hS⟩ := hS <;> cases hS
  | @record field l m hknown _ ih =>
    cases path with
    | nil => exact absurd hS not_isSetting_record
    | cons k rest =>
      obtain ⟨T, hk, hT⟩ := isSetting_record_iff.mp hS
      exact (unsaid_record_iff hk).mpr (ih k T hk hT ((unsaid_record_iff hk).mp hx))
  | recordDefault _ ih => exact ih hS (unsaid_empty hS)

/-- Where a layer says nothing either, nothing is said after it. -/
lemma Unsaid.overlay {dates : Prop} {S : Schema} {path : List String} {b t : Toml} (h : Unsaid S path (some b))
    (ht : t.InOrder dates) (hsilent : t.Silent path) : Unsaid S path (some (b.overlay t)) := by
  rcases h with hb | ⟨v, hv, hb⟩
  · refine .inl fun w hw => ?_
    obtain rfl := Option.some.inj hw
    exact Toml.silent_overlay (hb b rfl) hsilent ht
  · refine .inr ⟨v, hv, ?_⟩
    rw [Option.bind_some, Toml.at?_overlay_of_silent b ht hsilent]
    exact hb

end Switchboard.Settings
