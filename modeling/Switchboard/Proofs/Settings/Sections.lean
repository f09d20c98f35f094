import Switchboard.Proofs.Settings.Reading
import Switchboard.Proofs.Settings.Schema

/-!
# Sections read and written

* `Layer`: what was read is written so that it settles what was read, and further layers are read over it as over that;
* `Layer.named`, `Layer.record`: sections by name, and with fields;
* `layer_server`, `layer_adapter` and so on: the sections;
* `reads_level`, `Clash`: levels are names, or names over nothing, and two names over nothing are no level;
* `level_absorbs`, `level_clash`: levels that are read over the name of a level and over what it was read from;
* `encoded`: settings as they are written before a layer is laid over them, and `Origin`: what they were read from;
* `settles_encoded`, `absorbs_encoded`: they settle what they were read from, and are like that under a further layer.
-/

namespace Switchboard.Settings

open Json (Shape Fields)
open Toml (table layered)

variable {α β : Type}

/-! ## Layers -/

/-- What may be missing is in order, without dates. -/
def PlainIfAny (x : Option Toml) : Prop := ∀ v, x = some v → v.Plain

/-- What was read is written so that it settles what was read, and further layers are read over it as over that. -/
structure Layer (S : Schema) (read : Option Toml → Option α) (write : α → Option Toml) : Prop where
  settles : ∀ {x a}, PlainIfAny x → Sectioned S x → read x = some a → Settles S x (write a) ∧ PlainIfAny (write a)
  absorbs : ∀ {x a p}, PlainIfAny x → Sectioned S x → PlainIfAny p → read x = some a →
    read (layered (write a) p) = read (layered x p)

lemma plain_empty : (table []).Plain := ⟨List.Pairwise.nil, trivial⟩

lemma plainIfAny_some {v : Toml} (h : v.Plain) : PlainIfAny (some v) := fun _ hw => Option.some.inj hw ▸ h

lemma plainIfAny_lookup {l : List (String × Toml)} (h : (table l).Plain) (k : String) : PlainIfAny (l.lookup k) :=
  fun _ hv => h.of_lookup hv

lemma sectioned_empty (field : String → Option Schema) : Sectioned (.record field) (some (table [])) := by
  rintro (_ | ⟨k, path⟩) inner v hS hv
  · obtain rfl := Option.some.inj hv
    rfl
  · cases hv

/-- A value over the empty table is that value. -/
lemma layered_empty {p : Option Toml} (hp : PlainIfAny p) (hsome : p.isSome = true) : layered (some (table [])) p = p := by
  cases p with
  | none => cases hsome
  | some t =>
    cases ht : t.isTable with
    | true =>
      obtain ⟨l, rfl⟩ := Toml.exists_of_isTable ht
      exact congrArg some (Toml.overlay_empty (hp _ rfl))
    | false => exact congrArg some (Toml.overlay_of_not_table (.inr ht))

lemma valueD_layered (shape : Shape α) (d : α) (b : Toml) (p : Option Toml) :
    valueD shape d (layered (some b) p) = value shape (layered (some b) p) := by
  cases p <;> rfl

lemma map_reads_layered (shape : Shape α) (b : Toml) (p : Option Toml) :
    (layered (some b) p).map (reads shape) = some (value shape (layered (some b) p)) := by
  cases p <;> rfl

namespace Layer

variable {S : Schema} {shape : Shape α} {w : α → Toml} {x : Option Toml} {d : α}

/-- What is written as it was read is the same. -/
lemma eq_of_exact (h : Exact shape w) {a : α} (hx : PlainIfAny x) (hread : value shape x = some a) : x = some (w a) := by
  obtain ⟨v, rfl, hv⟩ := Option.bind_eq_some_iff.mp hread
  rw [h v a (hx v rfl) hv]

lemma of_exact (h : Exact shape w) (hS : ∀ a, Settles S (some (w a)) (some (w a))) :
    Layer S (value shape) fun a => some (w a) where
  settles hx _ hread := by
    obtain rfl := eq_of_exact h hx hread
    exact ⟨hS _, hx⟩
  absorbs hx _ _ hread := by rw [← eq_of_exact h hx hread]

lemma single (h : Exact shape w) (hleaf : ∀ a, (w a).isTable = false) (d : Option Toml) :
    Layer (.single d) (value shape) fun a => some (w a) :=
  of_exact h fun a => .single d (w a) (hleaf a)

lemma free (h : Exact shape w) (d : Option Toml) : Layer (.free d) (value shape) fun a => some (w a) :=
  of_exact h fun a => .free d (w a)

/-- A single setting with a default. -/
lemma singleD (h : Exact shape w) (hleaf : ∀ a, (w a).isTable = false) (hd : reads shape (w d) = some d)
    (hplain : (w d).Plain) : Layer (.single (some (w d))) (valueD shape d) fun a => some (w a) where
  settles {x a} hx hsections hread := by
    cases x with
    | none =>
      obtain rfl := Option.some.inj hread
      exact ⟨.singleDefault _ (hleaf d), plainIfAny_some hplain⟩
    | some v => exact (single h hleaf (some (w d))).settles hx hsections hread
  absorbs {x a p} hx hsections hp hread := by
    cases x with
    | none =>
      obtain rfl := Option.some.inj hread
      cases p with
      | none => exact hd
      | some t => exact congrArg (valueD shape d) (congrArg some (Toml.overlay_of_not_table (.inl (hleaf d))))
    | some v => rw [← eq_of_exact h hx hread]

/-- A layer is read over the default as over nothing, if it is over the empty table. -/
lemma absorbs_default (h : Layer S (value shape) fun a => some (w a)) (hS : Sectioned S (some (table [])))
    (hd : reads shape (table []) = some d) {p : Option Toml} (hp : PlainIfAny p) :
    valueD shape d (layered (some (w d)) p) = valueD shape d p := by
  rw [valueD_layered, h.absorbs (plainIfAny_some plain_empty) hS hp hd]
  cases p with
  | none => exact hd
  | some t =>
    rw [layered_empty hp rfl]
    rfl

/-- A value that is taken as it is, and is empty if it is missing. -/
lemma freeD (h : Exact shape w) (hd : reads shape (table []) = some d) :
    Layer (.free (some (table []))) (valueD shape d) fun a => some (w a) where
  settles {x a} hx hsections hread := by
    cases x with
    | none =>
      obtain rfl := Option.some.inj hread
      rw [h (table []) d plain_empty hd]
      exact ⟨.freeDefault, plainIfAny_some plain_empty⟩
    | some v => exact (free h (some (table []))).settles hx hsections hread
  absorbs {x a p} hx hsections hp hread := by
    cases x with
    | none =>
      obtain rfl := Option.some.inj hread
      have hfree : Sectioned (.free none) (some (table [])) := by
        rintro (_ | ⟨k, path⟩) inner v hS hv <;> cases hS
      exact (absorbs_default (free h none) hfree hd hp).trans (by rw [Toml.none_layered])
    | some v => rw [← eq_of_exact h hx hread]

/-- A section that is as one without entries if it is missing. -/
lemma recordD {field : String → Option Schema} (h : Layer (.record field) (value shape) fun a => some (w a))
    (hd : reads shape (table []) = some d) : Layer (.record field) (valueD shape d) fun a => some (w a) where
  settles {x a} hx hsections hread := by
    cases x with
    | none =>
      obtain rfl := Option.some.inj hread
      obtain ⟨hsettles, hplain⟩ := h.settles (plainIfAny_some plain_empty) (sectioned_empty field) hd
      exact ⟨.recordDefault hsettles, hplain⟩
    | some v => exact h.settles hx hsections hread
  absorbs {x a p} hx hsections hp hread := by
    cases x with
    | none =>
      obtain rfl := Option.some.inj hread
      exact (absorbs_default h (sectioned_empty field) hd hp).trans (by rw [Toml.none_layered])
    | some v => rw [valueD_layered, valueD_layered, h.absorbs hx hsections hp hread]

lemma reads_nullable (shape : Shape α) (v : Toml) : reads (Shape.nullable shape) v = (reads shape v).map some := by
  have hnull : Shape.nullable shape v.toJson = some <$> shape v.toJson := by
    cases v <;> rfl
  rw [reads, hnull, reads]
  cases shape v.toJson <;> rfl

lemma value_nullable (shape : Shape α) (x : Option Toml) : value (Shape.nullable shape) x = (value shape x).map some := by
  cases x with
  | none => rfl
  | some v => exact reads_nullable shape v

/-- What may be missing, and then is. -/
lemma optional (h : Layer S (value shape) fun a => some (w a)) :
    Layer S (valueD (Shape.nullable shape) none) fun a => a.map w where
  settles {x a} hx hsections hread := by
    cases x with
    | none =>
      obtain rfl := Option.some.inj hread
      exact ⟨.absent S, nofun⟩
    | some v =>
      rw [valueD, reads_nullable] at hread
      obtain ⟨b, hb, rfl⟩ := Option.map_eq_some_iff.mp hread
      exact h.settles hx hsections hb
  absorbs {x a p} hx hsections hp hread := by
    cases x with
    | none =>
      obtain rfl := Option.some.inj hread
      rfl
    | some v =>
      rw [valueD, reads_nullable] at hread
      obtain ⟨b, hb, rfl⟩ := Option.map_eq_some_iff.mp hread
      rw [Option.map_some, valueD_layered, valueD_layered, value_nullable, value_nullable, h.absorbs hx hsections hp hb]

end Layer

/-! ## Entries -/

/-- Over tables there is what is no table, or there are further entries. -/
lemma table_layered {p : Option Toml} (hp : PlainIfAny p) : (∀ l, layered (some (table l)) p = p) ∨
    ∃ q, (table q).Plain ∧ ∀ l, layered (some (table l)) p = some (table (Toml.overlayEntries l q)) := by
  cases p with
  | none => exact .inr ⟨[], plain_empty, fun l => by rw [← Toml.overlay_table_table, Toml.overlay_nil]; rfl⟩
  | some t =>
    cases ht : t.isTable with
    | true =>
      obtain ⟨q, rfl⟩ := Toml.exists_of_isTable ht
      exact .inr ⟨q, hp _ rfl, fun l => congrArg some Toml.overlay_table_table⟩
    | false => exact .inl fun l => congrArg some (Toml.overlay_of_not_table (.inr ht))

/-- Sections by name. -/
lemma Layer.named {S : Schema} {shape : Shape α} {w : α → Toml} (h : Layer S (value shape) fun a => some (w a)) :
    Layer (.named S) (value (named shape)) fun m => some (table (m.map fun e => (e.1, w e.2))) where
  settles {x m} hx hsections hread := by
    obtain ⟨v, rfl, hv⟩ := Option.bind_eq_some_iff.mp hread
    obtain ⟨l, rfl⟩ := hsections.table rfl
    have hplain := hx _ rfl
    rw [reads_named hplain.sorted] at hv
    have hentry (k : String) : Settles S (l.lookup k) ((m.lookup k).map w) ∧ PlainIfAny ((m.lookup k).map w) := by
      rcases lookup_readAll hv k with ⟨hl, hm⟩ | ⟨u, a, hl, hm, hu⟩
      · rw [hl, hm]
        exact ⟨.absent S, nofun⟩
      · rw [hl, hm]
        exact h.settles (plainIfAny_some (hplain.of_lookup hl)) (hl ▸ hsections.lookup rfl) hu
    have hsorted : (m.map fun e => (e.1, w e.2)).Pairwise (·.1 < ·.1) :=
      List.pairwise_map.mpr (sorted_readAll hplain.sorted hv)
    constructor
    · refine .record (fun k T hT => ?_) nofun
      obtain rfl := Option.some.inj hT
      rw [Toml.lookup_map]
      exact (hentry k).1
    · refine plainIfAny_some (Toml.inOrder_table_iff.mpr ⟨hsorted, fun e he => ?_⟩)
      have hlookup := Toml.lookup_of_mem hsorted he
      rw [Toml.lookup_map] at hlookup
      exact (hentry e.1).2 e.2 hlookup
  absorbs {x m p} hx hsections hp hread := by
    obtain ⟨v, rfl, hv⟩ := Option.bind_eq_some_iff.mp hread
    obtain ⟨l, rfl⟩ := hsections.table rfl
    have hplain := hx _ rfl
    rw [reads_named hplain.sorted] at hv
    rcases table_layered hp with hover | ⟨q, hq, hover⟩
    · rw [hover, hover]
    · have hsorted : (m.map fun e => (e.1, w e.2)).Pairwise (·.1 < ·.1) :=
        List.pairwise_map.mpr (sorted_readAll hplain.sorted hv)
      have hnew := Toml.sorted_overlayEntries hsorted q
      have hold := Toml.sorted_overlayEntries hplain.sorted q
      rw [hover, hover]
      show reads _ _ = reads _ _
      rw [reads_named hnew, reads_named hold]
      refine readAll_congr hnew hold fun k => ?_
      rw [Toml.lookup_overlayEntries hq.nodup, Toml.lookup_overlayEntries hq.nodup, Toml.lookup_map]
      rcases lookup_readAll hv k with ⟨hl, hm⟩ | ⟨u, a, hl, hm, hu⟩
      · rw [hl, hm, Option.map_none]
      · rw [hl, hm, Option.map_some]
        rw [map_reads_layered, map_reads_layered,
          h.absorbs (plainIfAny_some (hplain.of_lookup hl)) (hl ▸ hsections.lookup rfl)
            (plainIfAny_lookup hq k) hu]

/-! ## Fields -/

/-- What is under a key when values that are there are put in one after the other. -/
lemma lookup_foldl {put : List (String × Toml) → String × Option Toml → List (String × Toml)}
    (hsome : ∀ acc k v, put acc (k, some v) = Toml.insertEntry k v acc) (hnone : ∀ acc k, put acc (k, none) = acc)
    {l : List (String × Option Toml)} (h : (l.map (·.1)).Nodup) {acc : List (String × Toml)}
    (hacc : acc.Pairwise (·.1 < ·.1)) :
    (l.foldl put acc).Pairwise (·.1 < ·.1) ∧ ∀ k, (l.foldl put acc).lookup k = (l.lookup k).join.or (acc.lookup k) := by
  induction l generalizing acc with
  | nil => exact ⟨hacc, fun k => rfl⟩
  | cons x rest ih =>
    obtain ⟨key, v⟩ := x
    obtain ⟨hnot, hrest⟩ := List.nodup_cons.mp h
    rw [List.foldl_cons]
    cases v with
    | none =>
      rw [hnone]
      obtain ⟨hsorted, hlookup⟩ := ih hrest hacc
      refine ⟨hsorted, fun k => ?_⟩
      rw [hlookup k, List.lookup_cons]
      by_cases hk : k = key
      · subst hk
        rw [Json.lookup_eq_none hnot, beq_self_eq_true]
        rfl
      · rw [beq_eq_false_iff_ne.mpr hk]
    | some v =>
      rw [hsome]
      obtain ⟨hsorted, hlookup⟩ := ih hrest (Toml.sorted_insertEntry key v hacc)
      refine ⟨hsorted, fun k => ?_⟩
      rw [hlookup k, Toml.lookup_insertEntry, List.lookup_cons]
      by_cases hk : k = key
      · subst hk
        rw [Json.lookup_eq_none hnot, beq_self_eq_true, if_pos rfl]
        rfl
      · rw [beq_eq_false_iff_ne.mpr hk, if_neg (Ne.symm hk)]

lemma exists_entries {l : List (String × Option Toml)} (h : (l.map (·.1)).Nodup) :
    ∃ m, entries l = table m ∧ m.Pairwise (·.1 < ·.1) ∧ ∀ k, m.lookup k = (l.lookup k).join := by
  refine ⟨_, rfl, (lookup_foldl ?_ ?_ h List.Pairwise.nil).imp_right fun hlookup k => (hlookup k).trans (Option.or_none ..)⟩
  · exact fun _ _ _ => rfl
  · exact fun _ _ => rfl

/-- Values by name, from which a record is read and over which others are laid: in order, with the sections of a schema. -/
structure Given (l : List (String × Schema)) (get p : String → Option Toml) : Prop where
  plain : ∀ k, PlainIfAny (get k)
  sections : ∀ {k S}, l.lookup k = some S → Sectioned S (get k)
  layer : ∀ k, PlainIfAny (p k)

lemma Given.of_tables {l : List (String × Schema)} {m q : List (String × Toml)} (hm : (table m).Plain)
    (hsections : Sectioned (.fields l) (some (table m))) (hq : (table q).Plain) : Given l (m.lookup ·) (q.lookup ·) where
  plain := plainIfAny_lookup hm
  sections hk := hsections.lookup hk
  layer := plainIfAny_lookup hq

/-- What became of values that a record was read from, and what is read when others are laid over them. -/
structure Kept (l : List (String × Schema)) (r : Fields α) (get out p : String → Option Toml) : Prop where
  settles : ∀ e ∈ l, Settles e.2 (get e.1) (out e.1) ∧ PlainIfAny (out e.1)
  absorbs : readFields r (fun k => layered (out k) (p k)) = readFields r fun k => layered (get k) (p k)

namespace Kept

variable {S : Schema} {l l' : List (String × Schema)} {get out p : String → Option Toml} {name : String} {shape : Shape α}
  {a d : α} {w : α → Option Toml}

lemma map {r : Fields α} (h : Kept l r get out p) (f : α → β) : Kept l (f <$> r) get out p where
  settles := h.settles
  absorbs := by rw [readFields_map, readFields_map, h.absorbs]

lemma seq {f : Fields (α → β)} {r : Fields α} (hf : Kept l f get out p) (hr : Kept l' r get out p) :
    Kept (l ++ l') (f <*> r) get out p where
  settles := List.forall_mem_append.mpr ⟨hf.settles, hr.settles⟩
  absorbs := by rw [readFields_seq, readFields_seq, hf.absorbs, hr.absorbs]

lemma field (h : Given l get p) (hname : l.lookup name = some S) (hlayer : Layer S (value shape) w)
    (hread : value shape (get name) = some a) (hout : out name = w a) :
    Kept [(name, S)] (Fields.field name shape) get out p where
  settles := by
    rw [List.forall_mem_singleton, hout]
    exact hlayer.settles (h.plain name) (h.sections hname) hread
  absorbs := by
    rw [readFields_field, readFields_field, hout]
    exact hlayer.absorbs (h.plain name) (h.sections hname) (h.layer name) hread

lemma fieldD (h : Given l get p) (hname : l.lookup name = some S) (hlayer : Layer S (valueD shape d) w)
    (hread : valueD shape d (get name) = some a) (hout : out name = w a) :
    Kept [(name, S)] (Fields.fieldD name shape d) get out p where
  settles := by
    rw [List.forall_mem_singleton, hout]
    exact hlayer.settles (h.plain name) (h.sections hname) hread
  absorbs := by
    rw [readFields_fieldD, readFields_fieldD, hout]
    exact hlayer.absorbs (h.plain name) (h.sections hname) (h.layer name) hread

end Kept

/-- What is written under a key. -/
def written (l : List (String × Option Toml)) (k : String) : Option Toml := (l.lookup k).join.map Toml.marked

lemma exists_written {l : List (String × Option Toml)} (h : (l.map (·.1)).Nodup) :
    ∃ m, (entries l).marked = table m ∧ m.Pairwise (·.1 < ·.1) ∧ (m.lookup ·) = written l := by
  obtain ⟨m, hm, hsorted, hlookup⟩ := exists_entries h
  refine ⟨m.map fun e => (e.1, e.2.marked), hm ▸ marked_table m, List.pairwise_map.mpr hsorted, funext fun k => ?_⟩
  rw [Toml.lookup_map, hlookup k, written]

section Record

variable {l : List (String × Schema)} {r : Fields α} {w : List (String × Option Toml)} {old m q : List (String × Toml)}

/-- What is written of a section settles it, if each field does. -/
lemma Kept.settles_table (hkeys : w.map (·.1) = l.map (·.1)) (hsorted : m.Pairwise (·.1 < ·.1))
    (hlookup : (m.lookup ·) = written w) {get p : String → Option Toml} (hget : (old.lookup ·) = get)
    (h : Kept l r get (written w) p) :
    Settles (.fields l) (some (table old)) (some (table m)) ∧ (table m).Plain := by
  have hunknown {k : String} (hk : l.lookup k = none) : m.lookup k = none := by
    have hnot : k ∉ w.map (·.1) := by
      rw [hkeys, List.mem_map]
      rintro ⟨e, he, rfl⟩
      simpa using List.lookup_eq_none_iff.mp hk e he
    rw [congrFun hlookup k, written, Json.lookup_eq_none hnot]
    rfl
  refine ⟨.record (fun k S hk => ?_) fun k hk => hunknown hk, Toml.inOrder_table_iff.mpr ⟨hsorted, fun e he => ?_⟩⟩
  · rw [congrFun hlookup k, congrFun hget k]
    exact (h.settles (k, S) (Toml.mem_of_lookup hk)).1
  · have hfound := Toml.lookup_of_mem hsorted he
    cases hk : l.lookup e.1 with
    | none =>
      rw [hunknown hk] at hfound
      cases hfound
    | some S =>
      rw [congrFun hlookup e.1] at hfound
      exact (h.settles (e.1, S) (Toml.mem_of_lookup hk)).2 e.2 hfound

/-- Over what is written of a section the same is read as over the section, if it is so field by field. -/
lemma Kept.absorbs_table (hr : r.Honest) (name : String) (hm : (table m).Plain) (hold : (table old).Plain)
    (hq : (table q).Plain) (h : Kept l r (old.lookup ·) (m.lookup ·) (q.lookup ·)) :
    reads (recordShape .layers name r) ((table m).overlay (table q))
      = reads (recordShape .layers name r) ((table old).overlay (table q)) := by
  have hlookup (b : List (String × Toml)) :
      ((Toml.overlayEntries b q).lookup ·) = fun k => layered (b.lookup k) (q.lookup k) :=
    funext (Toml.lookup_overlayEntries hq.nodup)
  have hnew := hm.overlay hq
  have hnew' := hold.overlay hq
  rw [Toml.overlay_table_table] at hnew hnew' ⊢
  rw [Toml.overlay_table_table, reads_record hr name hnew, reads_record hr name hnew', hlookup, hlookup]
  exact h.absorbs

end Record

/-- A section whose fields are kept. -/
lemma Layer.record {l : List (String × Schema)} {r : Fields α} {w : α → List (String × Option Toml)} (name : String)
    (hr : r.Honest) (hkeys : ∀ a, (w a).map (·.1) = l.map (·.1)) (hnodup : (l.map (·.1)).Nodup)
    (h : ∀ {get out p a}, Given l get p → (∀ k, out k = written (w a) k) → readFields r get = some a → Kept l r get out p) :
    Layer (.fields l) (value (recordShape .layers name r)) fun a => some (entries (w a)).marked where
  settles {x a} hx hsections hread := by
    obtain ⟨v, rfl, hv⟩ := Option.bind_eq_some_iff.mp hread
    obtain ⟨old, rfl⟩ := hsections.table rfl
    have hplain := hx _ rfl
    rw [reads_record hr name hplain] at hv
    obtain ⟨m, hm, hsorted, hlookup⟩ := exists_written (hkeys a ▸ hnodup)
    have hkept := h (Given.of_tables hplain hsections plain_empty) (fun _ => rfl) hv
    rw [hm]
    exact (hkept.settles_table (hkeys a) hsorted hlookup rfl).imp_right plainIfAny_some
  absorbs {x a p} hx hsections hp hread := by
    obtain ⟨v, rfl, hv⟩ := Option.bind_eq_some_iff.mp hread
    obtain ⟨old, rfl⟩ := hsections.table rfl
    have hplain := hx _ rfl
    rw [reads_record hr name hplain] at hv
    obtain ⟨m, hm, hsorted, hlookup⟩ := exists_written (hkeys a ▸ hnodup)
    rw [hm]
    rcases table_layered hp with hover | ⟨q, hq, hover⟩
    · rw [hover, hover]
    · have hkept := h (Given.of_tables hplain hsections hq) (fun _ => rfl) hv
      have hplain' := (hkept.settles_table (hkeys a) hsorted hlookup rfl).2
      rw [hover, hover, ← Toml.overlay_table_table, ← Toml.overlay_table_table]
      exact Kept.absorbs_table hr name hplain' hplain hq (hlookup ▸ hkept)

/-! ## The sections -/

lemma marked_texts (l : List String) : (texts l).marked = texts l := by
  rw [texts, marked_arr, List.map_map]
  rfl

lemma layer_texts : Layer (.single (some noTexts)) (valueD (Shape.list Shape.string) []) fun l => some (texts l) :=
  have hplain : (texts []).Plain := Toml.inOrder_arr_iff.mpr (List.forall_mem_nil _)
  .singleD exact_texts (fun _ => rfl) rfl hplain

lemma layer_table : Layer (.free (some (table []))) (valueD Toml.tableShape []) fun t => some (table t).marked :=
  .freeD exact_table rfl

section Sections

open Json.Fields (Honest honest_field honest_fieldD honest_fieldD?)

lemma honest_server : serverFields.Honest :=
  (((honest_field _ _).map _).seq (honest_fieldD _ _ _)).seq (honest_fieldD? _ _)

lemma honest_adapter : adapterFields.Honest :=
  ((((((honest_field _ _).map _).seq (honest_fieldD _ _ _)).seq (honest_field _ _)).seq (honest_fieldD? _ _)).seq
    (honest_fieldD? _ _) |>.seq (honest_fieldD _ _ _)).seq (honest_fieldD _ _ _)

lemma honest_language (form : Form) : (languageFields form).Honest :=
  ((((honest_fieldD _ _ _).map _).seq (honest_fieldD? _ _)).seq (honest_fieldD? _ _)).seq (honest_fieldD _ _ _)

lemma honest_project : projectFields.Honest := ((honest_field _ _).map _).seq (honest_fieldD? _ _)

lemma honest_rpc : rpcFields.Honest :=
  (((honest_fieldD _ _ _).map _).seq (honest_fieldD _ _ _)).seq (honest_fieldD _ _ _)

lemma layer_server : Layer serverSchema (value (recordShape .layers "AnalysisServerEntry" serverFields))
    fun s => some s.toToml.marked := by
  refine Layer.record _ honest_server (fun _ => rfl) (by decide) fun {get out p s} given hout hread => ?_
  simp only [serverFields, readFields_seq, readFields_map, readFields_field, readFields_fieldD, readFields_fieldD?,
    Option.bind_eq_some_iff, Option.map_eq_some_iff] at hread
  obtain ⟨_, ⟨_, ⟨command, hcommand, rfl⟩, args, hargs, rfl⟩, options, hoptions, rfl⟩ := hread
  have hcommand := Kept.field given rfl (.single exact_string (fun _ => rfl) none) hcommand (hout _)
  have hargs := Kept.fieldD given rfl layer_texts hargs ((hout _).trans (congrArg some (marked_texts args)))
  have hoptions := Kept.fieldD given rfl (.optional (.free exact_value none)) hoptions (hout _)
  exact ((hcommand.map Server.mk).seq hargs).seq hoptions

lemma layer_adapter : Layer adapterSchema (value (recordShape .layers "DebugAdapterEntry" adapterFields))
    fun a => some a.toToml.marked := by
  refine Layer.record _ honest_adapter (fun _ => rfl) (by decide) fun {get out p a} given hout hread => ?_
  simp only [adapterFields, readFields_seq, readFields_map, readFields_field, readFields_fieldD, readFields_fieldD?,
    Option.bind_eq_some_iff, Option.map_eq_some_iff] at hread
  obtain ⟨_, ⟨_, ⟨_, ⟨_, ⟨_, ⟨_, ⟨command, hcommand, rfl⟩, args, hargs, rfl⟩, id, hid, rfl⟩, done, hdone, rfl⟩,
    arguments, harguments, rfl⟩, launch, hlaunch, rfl⟩, attach, hattach, rfl⟩ := hread
  have hcommand := Kept.field given rfl (.single exact_string (fun _ => rfl) none) hcommand (hout _)
  have hargs := Kept.fieldD given rfl layer_texts hargs ((hout _).trans (congrArg some (marked_texts args)))
  have hid := Kept.field given rfl (.single exact_string (fun _ => rfl) none) hid (hout _)
  have hdone := Kept.fieldD given rfl (.optional (.single exact_bool (fun _ => rfl) none)) hdone ((hout _).trans (Option.map_map ..))
  have harguments := Kept.fieldD given rfl (.optional (.free exact_table none)) harguments
    ((hout _).trans (Option.map_map ..))
  have hlaunch := Kept.fieldD given rfl layer_table hlaunch (hout _)
  have hattach := Kept.fieldD given rfl layer_table hattach (hout _)
  exact ((((((hcommand.map Adapter.mk).seq hargs).seq hid).seq hdone).seq harguments).seq hlaunch).seq hattach

lemma layer_language : Layer languageSchema (value (recordShape .layers "LanguageConfig" (languageFields .layers)))
    fun l => some l.toToml.marked := by
  refine Layer.record _ (honest_language _) (fun _ => rfl) (by decide) fun {get out p l} given hout hread => ?_
  simp only [languageFields, readFields_seq, readFields_map, readFields_fieldD, readFields_fieldD?,
    Option.bind_eq_some_iff, Option.map_eq_some_iff] at hread
  obtain ⟨_, ⟨_, ⟨_, ⟨extensions, hextensions, rfl⟩, analysis, hanalysis, rfl⟩, debug, hdebug, rfl⟩,
    capabilities, hcapabilities, rfl⟩ := hread
  have hextensions := Kept.fieldD given rfl layer_texts hextensions
    ((hout _).trans (congrArg some (marked_texts extensions)))
  have hanalysis := Kept.fieldD given rfl (.optional layer_server) hanalysis ((hout _).trans (Option.map_map ..))
  have hdebug := Kept.fieldD given rfl (.optional layer_adapter) hdebug ((hout _).trans (Option.map_map ..))
  have hcapabilities := Kept.fieldD given rfl layer_table hcapabilities (hout _)
  exact (((hextensions.map Language.mk).seq hanalysis).seq hdebug).seq hcapabilities

lemma layer_project : Layer projectSchema (value (recordShape .layers "ProjectEntry" projectFields))
    fun p => some p.toToml.marked := by
  refine Layer.record _ honest_project (fun _ => rfl) (by decide) fun {get out p project} given hout hread => ?_
  simp only [projectFields, readFields_seq, readFields_map, readFields_field, readFields_fieldD?,
    Option.bind_eq_some_iff, Option.map_eq_some_iff] at hread
  obtain ⟨_, ⟨root, hroot, rfl⟩, language, hlanguage, rfl⟩ := hread
  have hroot := Kept.field given rfl (.single exact_path (fun _ => rfl) none) hroot (hout _)
  have hlanguage := Kept.fieldD given rfl (.optional (.single exact_string (fun _ => rfl) none)) hlanguage
    ((hout _).trans (Option.map_map ..))
  exact (hroot.map fun root language => (⟨⟨root⟩, language⟩ : Project)).seq hlanguage

/-- What protocol tuning is written as. -/
def Rpc.toToml (r : Rpc) : Toml :=
  entries [("request_timeout_secs", some (.int r.requestTimeoutSecs)), ("prefetch_delay_ms", some (.int r.prefetchDelayMs)),
    ("deferred_workers", some (.int r.deferredWorkers))]

lemma layer_rpc : Layer rpcSchema (value (recordShape .layers "RpcConfig" rpcFields)) fun r => some r.toToml.marked := by
  refine Layer.record _ honest_rpc (fun _ => rfl) (by decide) fun {get out p r} given hout hread => ?_
  simp only [rpcFields, readFields_seq, readFields_map, readFields_fieldD, Option.bind_eq_some_iff,
    Option.map_eq_some_iff] at hread
  obtain ⟨_, ⟨_, ⟨timeout, htimeout, rfl⟩, delay, hdelay, rfl⟩, workers, hworkers, rfl⟩ := hread
  have htimeout := Kept.fieldD given rfl (.singleD (exact_natural _ _) (fun _ => rfl) rfl trivial) htimeout (hout _)
  have hdelay := Kept.fieldD given rfl (.singleD (exact_natural _ _) (fun _ => rfl) rfl trivial) hdelay (hout _)
  have hworkers := Kept.fieldD given rfl (.singleD (exact_natural _ _) (fun _ => rfl) rfl trivial) hworkers (hout _)
  exact ((htimeout.map Rpc.mk).seq hdelay).seq hworkers

end Sections

/-! ## Levels -/

lemma name_of_lookup {name : String} {level : LogLevel} (h : LogLevel.byName.lookup name = some level) : level.name = name := by
  have hmem := Toml.mem_of_lookup h
  simp only [LogLevel.byName, List.mem_cons, Prod.mk.injEq, List.not_mem_nil, or_false] at hmem
  rcases hmem with ⟨rfl, rfl⟩ | ⟨rfl, rfl⟩ | ⟨rfl, rfl⟩ | ⟨rfl, rfl⟩ | ⟨rfl, rfl⟩ <;> rfl

lemma name_of_variantName {name : String} {level : LogLevel}
    (h : (Shape.variantName LogLevel.byName name).toOption = some level) : level.name = name := by
  rw [Shape.variantName] at h
  cases hfind : LogLevel.byName.lookup name with
  | none =>
    rw [hfind] at h
    cases h
  | some found =>
    rw [hfind] at h
    obtain rfl := Option.some.inj h
    exact name_of_lookup hfind

/-- Nothing, as a name may stand over it. -/
def IsNothing (v : Toml) : Prop := v = table [] ∨ v = .arr []

lemma reads_name (level : LogLevel) : reads (levelShape .layers) (.str level.name) = some level := by
  cases level <;> rfl

lemma reads_name_over {content : Toml} (h : IsNothing content) (level : LogLevel) :
    reads (levelShape .layers) (table [(level.name, content)]) = some level := by
  rcases h with rfl | rfl <;> cases level <;> rfl

lemma isNothing_of_reads {name : String} {content : Toml} {level : LogLevel} (hcontent : content.Plain)
    (h : reads (levelShape .layers) (table [(name, content)]) = some level) : IsNothing content ∧ level.name = name := by
  cases content with
  | table l =>
    cases l with
    | nil => exact ⟨.inl rfl, name_of_variantName h⟩
    | cons e rest => cases h
  | arr items =>
    cases items with
    | nil => exact ⟨.inr rfl, name_of_variantName h⟩
    | cons v rest => cases h
  | datetime t => cases hcontent
  | _ => cases h

/-- A level is a name, or a name over nothing. -/
lemma reads_level {v : Toml} (hv : v.Plain) {level : LogLevel} (h : reads (levelShape .layers) v = some level) :
    v = .str level.name ∨ ∃ content, v = table [(level.name, content)] ∧ IsNothing content := by
  cases v with
  | str s => exact .inl (congrArg Toml.str (name_of_variantName h).symm)
  | table l =>
    match l with
    | [] => cases h
    | [(name, content)] =>
      obtain ⟨hcontent, rfl⟩ := isNothing_of_reads (hv.of_mem List.mem_cons_self) h
      exact .inr ⟨content, rfl, hcontent⟩
    | _ :: _ :: _ => cases h
  | datetime t => cases hv
  | _ => cases h

/-- The level of a section that may be missing. -/
abbrev readLevel : Option Toml → Option LogLevel := valueD (levelShape .layers) .info

/-- Both are names over nothing, and not the same ones. -/
def Clash (x p : Option Toml) : Prop :=
  ∃ name content name' content', x = some (table [(name, content)]) ∧ p = some (table [(name', content')]) ∧ name ≠ name'

section Levels

variable {x p : Option Toml} {a b : LogLevel}

lemma textual_name_eq {v : Toml} {name : String} {content : Toml} (h : v.textual = table [(name, content)]) :
    ∃ inner, v = table [(name, inner)] := by
  obtain ⟨l, rfl⟩ := Toml.exists_of_isTable ((Toml.isTable_textual v).symm.trans (congrArg Toml.isTable h))
  have htable : (table l).textual = table (l.map fun e => (e.1, e.2.textual)) := Toml.mapDates_table _ l
  rw [htable] at h
  obtain ⟨e, rfl, he⟩ := List.map_eq_singleton_iff.mp (Toml.table.inj h)
  obtain ⟨rfl, -⟩ := Prod.mk.inj he
  exact ⟨e.2, rfl⟩

/-- Dates do not matter. -/
lemma clash_textual : Clash (x.map Toml.textual) (p.map Toml.textual) ↔ Clash x p := by
  constructor
  · rintro ⟨name, content, name', content', hx, hp, hne⟩
    obtain ⟨v, rfl, hv⟩ := Option.map_eq_some_iff.mp hx
    obtain ⟨t, rfl, ht⟩ := Option.map_eq_some_iff.mp hp
    obtain ⟨inner, rfl⟩ := textual_name_eq hv
    obtain ⟨inner', rfl⟩ := textual_name_eq ht
    exact ⟨name, inner, name', inner', rfl, rfl, hne⟩
  · rintro ⟨name, content, name', content', rfl, rfl, hne⟩
    exact ⟨name, content.textual, name', content'.textual, congrArg some (Toml.mapDates_table _ _),
      congrArg some (Toml.mapDates_table _ _), hne⟩

lemma settles_level (hx : PlainIfAny x) (h : readLevel x = some a) :
    Settles (.single (some (.str LogLevel.info.name))) x (some (.str a.name)) := by
  cases x with
  | none =>
    obtain rfl := Option.some.inj h
    exact .singleDefault _ rfl
  | some v =>
    rcases reads_level (hx v rfl) h with rfl | ⟨content, rfl, -⟩
    · exact .single _ _ rfl
    · exact .name _ _ _

/-- A name gives way to anything. -/
lemma name_overlay (name : String) (v : Toml) : (Toml.str name).overlay v = v := Toml.overlay_of_not_table (.inl rfl)

lemma clash_over_name {name : String} : Clash (layered (some (.str name)) x) p ↔ Clash x p := by
  cases x with
  | none =>
    constructor
    · rintro ⟨_, _, _, _, hx, -⟩
      cases hx
    · rintro ⟨_, _, _, _, hx, -⟩
      cases hx
  | some v => rw [layered, name_overlay]

lemma overlay_same_name (name : String) (v w : Toml) :
    (table [(name, v)]).overlay (table [(name, w)]) = table [(name, v.overlay w)] := by
  rw [Toml.overlay_table_table, Toml.overlayEntries, List.lookup_cons_self, Toml.overlayEntries, Toml.insertEntry,
    if_neg (lt_irrefl name), if_pos rfl]

lemma overlay_other_name {name name' : String} (v w : Toml) (h : name ≠ name') :
    ∃ e e', (table [(name, v)]).overlay (table [(name', w)]) = table [e, e'] := by
  have hmissing : [(name, v)].lookup name' = none := by
    rw [List.lookup_cons, beq_eq_false_iff_ne.mpr h.symm, List.lookup_nil]
  rw [Toml.overlay_table_table, Toml.overlayEntries, hmissing, Toml.overlayEntries, Toml.insertEntry, if_neg h.symm]
  split
  · exact ⟨_, _, rfl⟩
  · exact ⟨_, _, rfl⟩

lemma IsNothing.overlay {v w : Toml} (hv : IsNothing v) (hw : IsNothing w) : IsNothing (v.overlay w) := by
  rcases hw with rfl | rfl
  · rcases hv with rfl | rfl
    · exact .inl (Toml.overlay_nil ..)
    · exact .inl (Toml.overlay_of_not_table (.inl rfl))
  · exact .inr (Toml.overlay_of_not_table (.inr rfl))

/-- A level that is read over the one that was read is read over that which it was read from. -/
theorem level_absorbs (hx : PlainIfAny x) (hp : PlainIfAny p) (ha : readLevel x = some a)
    (hb : readLevel (layered (some (.str a.name)) p) = some b) (hclash : ¬ Clash x p) : readLevel (layered x p) = some b := by
  cases p with
  | none =>
    rw [Toml.layered_none, ha]
    exact (reads_name a).symm.trans hb
  | some t =>
    have ht : reads (levelShape .layers) t = some b := by
      rw [layered, name_overlay] at hb
      exact hb
    cases x with
    | none => exact ht
    | some v =>
      show reads (levelShape .layers) (v.overlay t) = some b
      rcases reads_level (hx v rfl) ha with rfl | ⟨content, rfl, hcontent⟩
      · rwa [name_overlay]
      · rcases reads_level (hp t rfl) ht with rfl | ⟨content', rfl, hcontent'⟩
        · rwa [Toml.overlay_of_not_table (.inr rfl)]
        · by_cases hname : a.name = b.name
          · have hover : (table [(a.name, content)]).overlay (table [(b.name, content')])
                = table [(b.name, content.overlay content')] := by
              rw [hname]
              exact overlay_same_name _ _ _
            rw [hover]
            exact reads_name_over (hcontent.overlay hcontent') b
          · exact absurd ⟨_, _, _, _, rfl, rfl, hname⟩ hclash

/-- Two names are no level. -/
theorem level_clash (h : Clash x p) : readLevel (layered x p) = none := by
  obtain ⟨name, content, name', content', rfl, rfl, hne⟩ := h
  obtain ⟨e, e', hover⟩ := overlay_other_name content content' hne
  show reads (levelShape .layers) _ = none
  rw [hover]
  rfl

end Levels

/-! ## Log settings -/

/-- What is under a key of what may be a table. -/
def under (x : Option Toml) (k : String) : Option Toml := x.bind (·.at? [k])

lemma under_table (l : List (String × Toml)) (k : String) : under (some (table l)) k = l.lookup k := by
  rw [under, Option.bind_some, Toml.at?_table]
  cases l.lookup k with
  | none => rfl
  | some v => rw [Option.bind_some, Toml.at?]

/-- The log section, if there is one. -/
abbrev readLog : Option Toml → Option LogLevel := valueD (recordShape .layers "LogConfig" (logFields .layers)) .info

section Log

variable {x p : Option Toml} {a : LogLevel}

lemma under_layered {field : String → Option Schema} (hp : PlainIfAny p) (hx : Sectioned (.record field) x)
    (hsections : Sectioned (.record field) p) (k : String) : under (layered x p) k = layered (under x k) (under p k) := by
  cases p with
  | none => rw [Toml.layered_none, under, under, Option.bind_none, Toml.layered_none]
  | some t =>
    cases x with
    | none => rw [Toml.none_layered, under, under, Option.bind_none, Toml.none_layered]
    | some v =>
      obtain ⟨l, rfl⟩ := hx.table rfl
      obtain ⟨q, rfl⟩ := hsections.table rfl
      show under (some ((table l).overlay (table q))) k = _
      rw [Toml.overlay_table_table, under_table, under_table, under_table, Toml.lookup_overlayEntries (hp _ rfl).nodup]

lemma readLog_eq (hx : PlainIfAny x) (hsections : Sectioned logSchema x) : readLog x = readLevel (under x "level") := by
  cases x with
  | none => rfl
  | some v =>
    obtain ⟨l, rfl⟩ := hsections.table rfl
    rw [under_table]
    exact (reads_record (Fields.honest_fieldD _ _ _) "LogConfig" (hx _ rfl)).trans (readFields_fieldD ..)

/-- What the level of log settings is written as. -/
def levelTable (level : LogLevel) : Toml := (entries [("level", some (.str level.name))]).marked

lemma readLog_levelTable (level : LogLevel) : readLog (some (levelTable level)) = some level := by
  cases level <;> rfl

lemma settles_log (hx : PlainIfAny x) (hsections : Sectioned logSchema x) (h : readLog x = some a) :
    Settles logSchema x (some (levelTable a)) ∧ (levelTable a).Plain := by
  have htable {l : List (String × Toml)} (h : readLevel (l.lookup "level") = some a) (hl : (table l).Plain) :
      Settles logSchema (some (table l)) (some (levelTable a)) ∧ (levelTable a).Plain := by
    obtain ⟨m, hm, hsorted, hlookup⟩ := exists_written (l := [("level", some (.str a.name))]) (List.nodup_singleton _)
    have hkept : Kept [("level", .single (some (.str LogLevel.info.name)))] (logFields .layers) (l.lookup ·)
        (written [("level", some (.str a.name))]) fun _ => none :=
      { settles := by
          rw [List.forall_mem_singleton]
          exact ⟨settles_level (plainIfAny_lookup hl _) h, plainIfAny_some trivial⟩
        absorbs := by
          simp only [Toml.layered_none, logFields, readFields_fieldD]
          exact (reads_name a).trans h.symm }
    rw [levelTable, hm]
    exact hkept.settles_table rfl hsorted hlookup rfl
  cases x with
  | none => exact (htable (l := []) h plain_empty).imp_left .recordDefault
  | some v =>
    obtain ⟨l, rfl⟩ := hsections.table rfl
    rw [readLog_eq hx hsections, under_table] at h
    exact htable h (hx _ rfl)

end Log

/-! ## All settings -/

/-- What is written of settings, by section. -/
def parts (s : Settings) : List (String × Option Toml) :=
  [("log", some (entries [("level", some (.str s.level.name))])), ("rpc", some s.rpc.toToml),
    ("languages", some (table (s.languages.map fun x => (x.1, x.2.toToml)))),
    ("projects", some (table (s.projects.map fun x => (x.1, x.2.toToml))))]

/-- Settings as they are written before a layer is laid over them. -/
def encoded (s : Settings) : Toml := s.toToml.marked

lemma honest_fields (form : Form) : (fields form).Honest :=
  ((((Fields.honest_fieldD _ _ _).map _).seq (Fields.honest_fieldD _ _ _)).seq (Fields.honest_fieldD _ _ _)).seq
    (Fields.honest_fieldD _ _ _)

lemma marked_named {α : Type} (w : α → Toml) (m : List (String × α)) :
    (table (m.map fun e => (e.1, w e.2))).marked = table (m.map fun e => (e.1, (w e.2).marked)) := by
  rw [marked_table, List.map_map]
  rfl

/-- All sections are kept, log settings if the level is. -/
lemma kept_settings {get out p : String → Option Toml} {s : Settings} (given : Given sections get p)
    (hout : ∀ k, out k = written s.parts k) (hread : readFields (fields .layers) get = some s)
    (hlog : readLog (layered (out "log") (p "log")) = readLog (layered (get "log") (p "log"))) :
    Kept sections (fields .layers) get out p := by
  simp only [fields, readFields_seq, readFields_map, readFields_fieldD, Option.bind_eq_some_iff,
    Option.map_eq_some_iff] at hread
  obtain ⟨_, ⟨_, ⟨_, ⟨level, hlevel, rfl⟩, rpc, hrpc, rfl⟩, languages, hlanguages, rfl⟩, projects, hprojects, rfl⟩ := hread
  have hlog : Kept [("log", logSchema)] (Fields.fieldD "log" _ _) get out p :=
    { settles := by
        rw [List.forall_mem_singleton, hout]
        exact (settles_log (given.plain _) (given.sections rfl) hlevel).imp_right plainIfAny_some
      absorbs := by
        rw [readFields_fieldD, readFields_fieldD]
        exact hlog }
  have hrpc := Kept.fieldD given rfl (.recordD layer_rpc rfl) hrpc (hout _)
  have hlanguages := Kept.fieldD given rfl (.recordD (.named layer_language) rfl) hlanguages
    ((hout _).trans (congrArg some (marked_named Language.toToml languages)))
  have hprojects := Kept.fieldD given rfl (.recordD (.named layer_project) rfl) hprojects
    ((hout _).trans (congrArg some (marked_named Project.toToml projects)))
  exact (((hlog.map Settings.mk).seq hrpc).seq hlanguages).seq hprojects

/-- A value in order whose sections are tables. -/
structure Fit (x : Toml) : Prop where
  plain : x.Plain
  sections : Sectioned schema (some x)

/-- A value that settings are read from. -/
structure Origin (s : Settings) (x : Toml) : Prop extends Fit x where
  exact : reads (shape .layers) x = some s

section Settings

variable {x t : Toml} {s : Settings} {l q : List (String × Toml)}

lemma fit_empty : Fit (table []) := ⟨plain_empty, sectioned_empty _⟩

lemma Fit.exists_table (h : Fit x) : ∃ l, x = table l := h.sections.table rfl

lemma Fit.overlay (hx : Fit x) (ht : Fit t) : Fit (x.overlay t) :=
  ⟨hx.plain.overlay ht.plain, hx.sections.overlay ht.sections ht.plain⟩

lemma keys_parts (s : Settings) : s.parts.map (·.1) = sections.map (·.1) := rfl

lemma exists_encoded (s : Settings) :
    ∃ m, s.encoded = table m ∧ m.Pairwise (·.1 < ·.1) ∧ (m.lookup ·) = written s.parts := by
  have hnodup : (sections.map (·.1)).Nodup := by decide
  exact exists_written (keys_parts s ▸ hnodup)

lemma Origin.fields (h : Origin s (table l)) : readFields (fields .layers) (l.lookup ·) = some s :=
  (reads_record (honest_fields _) "Config" h.plain).symm.trans h.exact

lemma Origin.log (h : Origin s (table l)) : readLog (l.lookup "log") = some s.level := by
  have hread := h.fields
  simp only [Settings.fields, readFields_seq, readFields_map, readFields_fieldD, Option.bind_eq_some_iff,
    Option.map_eq_some_iff] at hread
  obtain ⟨_, ⟨_, ⟨_, ⟨level, hlevel, rfl⟩, rpc, -, rfl⟩, languages, -, rfl⟩, projects, -, rfl⟩ := hread
  exact hlevel

/-- What settings are written as settles what they were read from. -/
theorem settles_encoded (h : Origin s x) : Settles schema (some x) (some s.encoded) ∧ s.encoded.Plain := by
  obtain ⟨l, rfl⟩ := h.exists_table
  obtain ⟨m, hm, hsorted, hlookup⟩ := exists_encoded s
  have hlog : readLog (layered (written s.parts "log") none) = readLog (layered (l.lookup "log") none) := by
    rw [Toml.layered_none, Toml.layered_none, h.log]
    exact readLog_levelTable s.level
  have hkept := kept_settings (Given.of_tables h.plain h.sections plain_empty) (fun _ => rfl) h.fields hlog
  rw [hm]
  exact hkept.settles_table (keys_parts s) hsorted hlookup rfl

lemma Origin.fit_encoded (h : Origin s x) : Fit s.encoded := ⟨(settles_encoded h).2, (settles_encoded h).1.sectioned⟩

/-- The level that is written, if there is one. -/
def levelAt (v : Toml) : Option Toml := v.at? ["log", "level"]

lemma levelAt_table (l : List (String × Toml)) : levelAt (table l) = under (l.lookup "log") "level" := Toml.at?_table ..

lemma readLog_lookup (h : Fit (table l)) : readLog (l.lookup "log") = readLevel (levelAt (table l)) := by
  rw [levelAt_table]
  exact readLog_eq (plainIfAny_lookup h.plain _) (h.sections.lookup rfl)

lemma Origin.level (h : Origin s x) : readLevel (levelAt x) = some s.level := by
  obtain ⟨l, rfl⟩ := h.exists_table
  rw [← readLog_lookup h.toFit]
  exact h.log

lemma levelAt_overlay (hx : Fit x) (ht : Fit t) : levelAt (x.overlay t) = layered (levelAt x) (levelAt t) := by
  obtain ⟨l, rfl⟩ := hx.exists_table
  obtain ⟨q, rfl⟩ := ht.exists_table
  rw [Toml.overlay_table_table, levelAt_table, levelAt_table, levelAt_table, Toml.lookup_overlayEntries ht.plain.nodup]
  exact under_layered (plainIfAny_lookup ht.plain _) (hx.sections.lookup (S := logSchema) rfl)
    (ht.sections.lookup rfl) _

@[simp] lemma levelAt_encoded (s : Settings) : levelAt s.encoded = some (.str s.level.name) := by
  obtain ⟨m, hm, -, hlookup⟩ := exists_encoded s
  rw [hm, levelAt_table, congrFun hlookup "log"]
  rfl

/-- What is read of log settings when tables are laid over each other. -/
lemma readLog_over (hl : Fit (table l)) (hq : Fit (table q)) :
    readLog (layered (l.lookup "log") (q.lookup "log")) = readLevel (layered (levelAt (table l)) (levelAt (table q))) := by
  have hover := hl.overlay hq
  rw [Toml.overlay_table_table] at hover
  rw [← levelAt_overlay hl hq, ← Toml.lookup_overlayEntries hq.plain.nodup, Toml.overlay_table_table]
  exact readLog_lookup hover

/-- Over what is written of settings the same is read as over what they were read from, if the same level is. -/
theorem absorbs_encoded (h : Origin s x) (ht : Fit t)
    (hlevel : readLevel (layered (some (.str s.level.name)) (levelAt t)) = readLevel (layered (levelAt x) (levelAt t))) :
    reads (shape .layers) (s.encoded.overlay t) = reads (shape .layers) (x.overlay t) := by
  have hencoded := h.fit_encoded
  have hname := levelAt_encoded s
  obtain ⟨l, rfl⟩ := h.exists_table
  obtain ⟨q, rfl⟩ := ht.exists_table
  obtain ⟨m, hm, hsorted, hlookup⟩ := exists_encoded s
  rw [hm] at hencoded hname ⊢
  have hlog : readLog (layered (m.lookup "log") (q.lookup "log")) = readLog (layered (l.lookup "log") (q.lookup "log")) := by
    rw [readLog_over hencoded ht, readLog_over h.toFit ht, hname]
    exact hlevel
  have hkept := kept_settings (Given.of_tables h.plain h.sections ht.plain) (congrFun hlookup) h.fields hlog
  exact Kept.absorbs_table (honest_fields _) "Config" hencoded.plain h.plain ht.plain hkept

end Settings

end Switchboard.Settings
