import Switchboard.Debug.Store
import Switchboard.Proofs.Json.Fields
import Switchboard.Proofs.Json.Reading
import Switchboard.Proofs.Keyed

/-!
# What is kept of breakpoints and launch configurations in files

* `Breakpoint.stored`, `Launch.stored`: a breakpoint without its anchor and verification, a configuration without its mark;
* `Breakpoint.shape_toJson`, `Launch.shape_toJson`: what is written of one reads back as what is kept of it;
* `Breakpoint.Fits`, `Launch.Fits`: the numbers and attributes of one are of their types.
-/

namespace Switchboard

namespace Json.Shape

lemma u64_nat {n : Nat} (h : n ≤ 0xFFFFFFFFFFFFFFFF) : u64 (.nat n) = .ok n := by
  have hrange : (0 : Int) ≤ n ∧ (n : Int) ≤ 0xFFFFFFFFFFFFFFFF := by omega
  simp only [u64, integer, hrange, and_self, if_true]
  rfl

lemma u32_nat {n : Nat} (h : n ≤ 0xFFFFFFFF) : u32 (.nat n) = .ok n := by
  have hrange : (0 : Int) ≤ n ∧ (n : Int) ≤ 0xFFFFFFFF := by omega
  simp only [u32, integer, hrange, and_self, if_true]
  rfl

end Json.Shape

namespace Debug

open Json (present)
open Json.Fields (Builds Honest honest_field honest_fieldD honest_fieldD? ofMembers_of_build)

/-! ## Breakpoints -/

namespace Breakpoint

/-- Where a breakpoint sits, without its anchor. -/
def Kind.stored : Kind → Kind
  | .line project path n column _ => .line project path n column none
  | .exception caught uncaught => .exception caught uncaught

/-- What is kept of a breakpoint in a file. -/
def stored (b : Breakpoint) : Breakpoint := { b with kind := b.kind.stored, verification := none }

/-- Lines and columns have 32 bits. -/
def Kind.Fits : Kind → Prop
  | .line _ _ n column _ => n ≤ 0xFFFFFFFF ∧ ∀ m ∈ column, m ≤ 0xFFFFFFFF
  | .exception _ _ => True

/-- The numbers of a breakpoint are of their types. -/
structure Fits (b : Breakpoint) : Prop where
  id : b.id ≤ 0xFFFFFFFFFFFFFFFF
  kind : b.kind.Fits

/-- The members that both kinds have. -/
def commonMembers (b : Breakpoint) : List (String × Option Json) :=
  [("id", some (.nat b.id)), ("enabled", some (.bool b.enabled)), ("condition", b.condition.map .str),
    ("condition_enabled", some (.bool b.conditionEnabled)), ("hit_condition", b.hitCondition.map .str),
    ("log_message", b.logMessage.map .str)]

/-- All members. -/
def members (b : Breakpoint) : List (String × Option Json) :=
  b.commonMembers ++ placeMembers b.kind ++ [("verification", none)]

lemma toJson_eq (b : Breakpoint) : { b with verification := none }.toJson = .obj (present b.members) := rfl

lemma nodup_members (b : Breakpoint) : (b.members.map (·.1)).Nodup := by
  unfold members placeMembers
  cases b.kind with
  | line project path line column anchor =>
    show List.Nodup ["id", "enabled", "condition", "condition_enabled", "hit_condition", "log_message", "type", "project",
      "path", "line", "column", "verification"]
    decide
  | exception caught uncaught =>
    show List.Nodup ["id", "enabled", "condition", "condition_enabled", "hit_condition", "log_message", "type", "caught",
      "uncaught", "verification"]
    decide

lemma nullable_str (s : String) : Json.Shape.nullable Json.Shape.string (.str s) = .ok (some s) := rfl

lemma honest_commonFields : commonFields.Honest := by
  unfold commonFields
  refine .seq (.seq (.seq (.seq (.seq (.map ?_ _) ?_) ?_) ?_) ?_) ?_
  · exact honest_field _ _
  · exact honest_field _ _
  · exact honest_fieldD? _ _
  · exact honest_fieldD _ _ _
  · exact honest_fieldD? _ _
  · exact honest_fieldD? _ _

/-- What both kinds have reads back. -/
lemma ofMembers_commonFields {b : Breakpoint} (hid : b.id ≤ 0xFFFFFFFFFFFFFFFF) :
    commonFields.ofMembers (present b.members) = .ok fun kind => { b with kind, verification := none } := by
  have hget : ∀ k, (present b.members).lookup k = (b.members.lookup k).join := Json.lookup_present b.nodup_members
  have hidBuilds : Builds ((present b.members).lookup ·) (.field "id" Json.Shape.u64) b.id :=
    .field (hget "id") (Json.Shape.u64_nat hid)
  have henabled : Builds ((present b.members).lookup ·) (.field "enabled" Json.Shape.bool) b.enabled :=
    .field (hget "enabled") rfl
  have hcondition : Builds ((present b.members).lookup ·) (.fieldD? "condition" Json.Shape.string) b.condition :=
    .fieldD? (hget "condition") nullable_str
  have hconditionEnabled : Builds ((present b.members).lookup ·) (.fieldD "condition_enabled" Json.Shape.bool true)
      b.conditionEnabled := .fieldD (hget "condition_enabled") rfl
  have hhit : Builds ((present b.members).lookup ·) (.fieldD? "hit_condition" Json.Shape.string) b.hitCondition :=
    .fieldD? (hget "hit_condition") nullable_str
  have hlog : Builds ((present b.members).lookup ·) (.fieldD? "log_message" Json.Shape.string) b.logMessage :=
    .fieldD? (hget "log_message") nullable_str
  have hbuilds : Builds ((present b.members).lookup ·) commonFields
      fun kind => { b with kind, verification := none } :=
    (((((hidBuilds.map _).seq henabled).seq hcondition).seq hconditionEnabled).seq hhit).seq hlog
  exact ofMembers_of_build honest_commonFields (Json.nodup_present b.nodup_members) hbuilds

lemma honest_lineFields : lineFields.Honest := by
  unfold lineFields
  refine .seq (.seq (.seq (.map ?_ _) ?_) ?_) ?_
  · exact honest_field _ _
  · exact honest_field _ _
  · exact honest_field _ _
  · exact honest_fieldD? _ _

/-- A number that may be left out. -/
lemma builds_column {get : String → Option Json} {column : Option Nat} (hget : get "column" = column.map .nat)
    (hfits : ∀ m ∈ column, m ≤ 0xFFFFFFFF) : Builds get (.fieldD? "column" Json.Shape.u32) column := by
  cases column with
  | none =>
    have hnone : get "column" = none := hget
    simp only [Builds, Json.Fields.fieldD?, Json.Fields.fieldD, hnone]
    rfl
  | some m =>
    have hread : Json.Shape.nullable Json.Shape.u32 (.nat m) = .ok (some m) := by
      show some <$> Json.Shape.u32 (.nat m) = _
      rw [Json.Shape.u32_nat (hfits m rfl)]
      rfl
    exact .fieldD hget hread

/-- Where a breakpoint sits reads back without the anchor. -/
lemma readKind_placeMembers {k : Kind} (h : k.Fits) : readKind (present (placeMembers k)) = .ok k.stored := by
  cases k with
  | line project path n column anchor =>
    obtain ⟨hline, hcolumn⟩ := h
    let rest : List (String × Option Json) :=
      [("project", some project), ("path", some path.text), ("line", some (.nat n)), ("column", column.map .nat)]
    have hnodup : (rest.map (·.1)).Nodup := by
      show List.Nodup ["project", "path", "line", "column"]
      decide
    have hget : ∀ k, (present rest).lookup k = (rest.lookup k).join := Json.lookup_present hnodup
    have hproject : Builds ((present rest).lookup ·) (.field "project" Json.Shape.string) project :=
      .field (hget "project") rfl
    have hpath : Builds ((present rest).lookup ·) (.field "path" Json.Shape.path) path.text := .field (hget "path") rfl
    have hn : Builds ((present rest).lookup ·) (.field "line" Json.Shape.u32) n :=
      .field (hget "line") (Json.Shape.u32_nat hline)
    have hbuilds : Builds ((present rest).lookup ·) lineFields (.line project path n column none) :=
      (((hproject.map _).seq hpath).seq hn).seq (builds_column (hget "column") hcolumn)
    have hread := ofMembers_of_build honest_lineFields (Json.nodup_present hnodup) hbuilds
    have htype : (present (placeMembers (.line project path n column anchor))).filter (·.1 = "type")
        = [("type", Json.str "line")] := by
      rw [Json.filter_present fun k => k = "type"]
      rfl
    have hothers : (present (placeMembers (.line project path n column anchor))).filter (·.1 ≠ "type")
        = present rest := by
      rw [Json.filter_present fun k => k ≠ "type"]
      rfl
    unfold readKind
    simp only [htype, hothers]
    exact hread
  | exception caught uncaught => rfl

/-- The members that both kinds have. -/
lemma fields_commonFields : commonFields.fields.map (·.name)
    = ["id", "enabled", "condition", "condition_enabled", "hit_condition", "log_message"] := rfl

/-- What is written of a breakpoint reads back as what is kept of it. -/
theorem shape_toJson {b : Breakpoint} (h : b.Fits) : shape { b with verification := none }.toJson = .ok b.stored := by
  have hplace : (present b.members).filter
      (fun m => !(commonFields.fields.map (·.name)).contains m.1) = present (placeMembers b.kind) := by
    rw [Json.filter_present fun k => !(commonFields.fields.map (·.name)).contains k, fields_commonFields]
    unfold members placeMembers
    cases b.kind with
    | line project path n column anchor => rfl
    | exception caught uncaught => rfl
  rw [toJson_eq, shape, ofMembers_commonFields h.id]
  simp only [hplace]
  show (do
    let kind ← readKind (present (placeMembers b.kind))
    return { b with kind, verification := none } : Except Json.Fault Breakpoint) = _
  rw [readKind_placeMembers h.kind]
  rfl

/-- It is kept by writing and reading. -/
lemma kept_toJson {b : Breakpoint} (h : b.Fits) : Json.Kept 1 { b with verification := none }.toJson := by
  have hnat : ∀ n ≤ 0xFFFFFFFFFFFFFFFF, Json.Kept 0 (.nat n) :=
    fun n hn => .int n (by omega) (Int.ofNat_le.mpr hn)
  have hstr : ∀ (o : Option String) (v : Json), o.map .str = some v → Json.Kept 0 v := by
    intro o v hv
    obtain ⟨s, -, rfl⟩ := Option.map_eq_some_iff.mp hv
    exact .str s
  rw [toJson_eq]
  refine .obj _ ?_
  intro m hm
  obtain ⟨⟨k, v⟩, hmem, hv⟩ := List.mem_filterMap.mp hm
  obtain ⟨value, hvalue, rfl⟩ := Option.map_eq_some_iff.mp hv
  replace hvalue : v = some value := hvalue
  subst hvalue
  show Json.Kept 0 value
  unfold members at hmem
  rw [List.mem_append, List.mem_append] at hmem
  rcases hmem with (hmem | hmem) | hmem
  · simp only [commonMembers, List.mem_cons, Prod.mk.injEq, Option.some.injEq, List.not_mem_nil, or_false] at hmem
    rcases hmem with ⟨-, rfl⟩ | ⟨-, rfl⟩ | ⟨-, hs⟩ | ⟨-, rfl⟩ | ⟨-, hs⟩ | ⟨-, hs⟩
    · exact hnat b.id h.id
    · exact .bool _
    · exact hstr _ _ hs.symm
    · exact .bool _
    · exact hstr _ _ hs.symm
    · exact hstr _ _ hs.symm
  · have hkind := h.kind
    cases hk : b.kind with
    | line project path n column anchor =>
      rw [hk] at hkind hmem
      obtain ⟨hline, hcolumn⟩ := hkind
      simp only [placeMembers, List.mem_cons, Prod.mk.injEq, Option.some.injEq, List.not_mem_nil, or_false] at hmem
      rcases hmem with ⟨-, rfl⟩ | ⟨-, rfl⟩ | ⟨-, rfl⟩ | ⟨-, rfl⟩ | ⟨-, hn⟩
      · exact .str _
      · exact .str _
      · exact .str _
      · exact hnat n (by omega)
      · obtain ⟨c, hc, rfl⟩ := Option.map_eq_some_iff.mp hn.symm
        have hle := hcolumn c hc
        exact hnat c (by omega)
    | exception caught uncaught =>
      rw [hk] at hmem
      simp only [placeMembers, List.mem_cons, Prod.mk.injEq, Option.some.injEq, List.not_mem_nil, or_false] at hmem
      rcases hmem with ⟨-, rfl⟩ | ⟨-, rfl⟩ | ⟨-, rfl⟩
      · exact .str _
      · exact .bool _
      · exact .bool _
  · cases List.mem_singleton.mp hmem

end Breakpoint

/-! ## Launch configurations -/

namespace Launch

/-- Attributes in their order, each at most once. -/
def Ordered (attributes : List (Attribute × String)) : Prop := attributes.Pairwise (·.1.rank < ·.1.rank)

/-- What is kept of a configuration in a file: all but the mark that it is saved. -/
def stored (l : Launch) : Launch := { l with saved := false }

/-- The id of a configuration is of its type, and the attributes are in their order. -/
structure Fits (l : Launch) : Prop where
  id : l.id ≤ 0xFFFFFFFFFFFFFFFF
  attributes : Ordered l.attributes

lemma rank_inj {a b : Attribute} (h : a.rank = b.rank) : a = b := by
  cases a <;> cases b <;> first | rfl | exact absurd h (by decide)

/-- Attributes are put in by their ranks. -/
lemma inserts_attributes :
    Keyed.Inserts (fun x : Attribute × String => x.1.rank) fun x l => insertAttribute x.1 x.2 l where
  nil _ := rfl
  before hlt := if_pos hlt
  instead heq := by rw [insertAttribute, if_neg heq.not_lt, if_pos (rank_inj heq)]
  after hgt := by rw [insertAttribute, if_neg (lt_asymm hgt), if_neg fun heq => hgt.ne' (congrArg _ heq)]

/-- Attributes that are in their order stay as they are. -/
lemma sortAttributes_eq {l : List (Attribute × String)} (h : Ordered l) : sortAttributes l = l := by
  have hfold : ∀ acc : List (Attribute × String), Ordered (acc ++ l) →
      l.foldl (fun acc x => insertAttribute x.1 x.2 acc) acc = acc ++ l := by
    clear h
    induction l with
    | nil =>
      intro acc _
      exact (List.append_nil acc).symm
    | cons x rest ih =>
      intro acc hacc
      have hlast : ∀ y ∈ acc, y.1.rank < x.1.rank :=
        fun y hy => (List.pairwise_append.mp hacc).2.2 y hy x List.mem_cons_self
      have hsplit : acc ++ x :: rest = (acc ++ [x]) ++ rest := by simp
      rw [List.foldl_cons, inserts_attributes.last (x := x) hlast, hsplit]
      exact ih (acc ++ [x]) (hsplit ▸ hacc)
  exact hfold [] h

lemma variantName_byName (a : Attribute) : Json.Shape.variantName Attribute.byName a.name = .ok a := by
  cases a <;> rfl

/-- Attributes read back. -/
lemma attributesShape_attributesJson {l : List (Attribute × String)} (h : Ordered l) :
    attributesShape (attributesJson l) = .ok l := by
  have hentries : Json.Shape.entries (Json.Shape.variantName Attribute.byName) Json.Shape.string (attributesJson l)
      = .ok l := by
    show (l.map fun x => (x.1.name, Json.str x.2)).mapM _ = _
    clear h
    induction l with
    | nil => rfl
    | cons x rest ih =>
      rw [List.map_cons, List.mapM_cons]
      simp only [variantName_byName] at ih ⊢
      rw [ih]
      rfl
  unfold attributesShape
  rw [hentries]
  show Except.ok (sortAttributes l) = _
  rw [sortAttributes_eq h]

lemma shape_mode (m : Mode) : Mode.shape (.str m.name) = .ok m := by
  cases m <;> rfl

/-- The members of a configuration. -/
def members (l : Launch) : List (String × Json) :=
  [("id", .nat l.id), ("name", l.name), ("language", l.language), ("type", l.type),
    ("mode", l.mode.name), ("project", l.project), ("attributes", attributesJson l.attributes)]

lemma honest_fields : fields.Honest := by
  unfold fields
  refine .seq (.seq (.seq (.seq (.seq (.seq (.map ?_ _) ?_) ?_) ?_) ?_) ?_) ?_
  · exact honest_field _ _
  · exact honest_field _ _
  · exact honest_field _ _
  · exact honest_fieldD _ _ _
  · exact honest_fieldD _ _ _
  · exact honest_field _ _
  · exact honest_fieldD _ _ _

/-- What is written of a configuration reads back as what is kept of it. -/
theorem shape_toJson {l : Launch} (h : l.Fits) : shape l.toJson = .ok l.stored := by
  have hnodup : (l.members.map (·.1)).Nodup := by
    show List.Nodup ["id", "name", "language", "type", "mode", "project", "attributes"]
    decide
  have hid : Builds (l.members.lookup ·) (.field "id" Json.Shape.u64) l.id := .field rfl (Json.Shape.u64_nat h.id)
  have hname : Builds (l.members.lookup ·) (.field "name" Json.Shape.string) l.name := .field rfl rfl
  have hlanguage : Builds (l.members.lookup ·) (.field "language" Json.Shape.string) l.language := .field rfl rfl
  have htype : Builds (l.members.lookup ·) (.fieldD "type" Json.Shape.string "") l.type := .fieldD rfl rfl
  have hmode : Builds (l.members.lookup ·) (.fieldD "mode" Mode.shape .launch) l.mode :=
    .fieldD rfl (shape_mode l.mode)
  have hproject : Builds (l.members.lookup ·) (.field "project" Json.Shape.string) l.project := .field rfl rfl
  have hattributes : Builds (l.members.lookup ·) (.fieldD "attributes" attributesShape []) l.attributes :=
    .fieldD rfl (attributesShape_attributesJson h.attributes)
  have hbuilds : Builds (l.members.lookup ·) fields l.stored :=
    ((((((hid.map _).seq hname).seq hlanguage).seq htype).seq hmode).seq hproject).seq hattributes
  exact ofMembers_of_build honest_fields hnodup hbuilds

/-- It is kept by writing and reading. -/
lemma kept_toJson {l : Launch} (h : l.Fits) : Json.Kept 2 l.toJson := by
  have hattributes : Json.Kept 1 (attributesJson l.attributes) := by
    refine .obj _ ?_
    intro m hm
    obtain ⟨x, -, rfl⟩ := List.mem_map.mp hm
    exact .str x.2
  refine .obj _ ?_
  intro m hm
  simp only [List.mem_cons, List.not_mem_nil, or_false] at hm
  rcases hm with rfl | rfl | rfl | rfl | rfl | rfl | rfl
  · have hid := h.id
    exact .int l.id (by omega) (Int.ofNat_le.mpr hid)
  · exact .str l.name
  · exact .str l.language
  · exact .str l.type
  · exact .str l.mode.name
  · exact .str l.project
  · exact hattributes

end Launch

end Debug

end Switchboard
