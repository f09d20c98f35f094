import Switchboard.Proofs.Json.Fields
import Switchboard.Proofs.Keyed
import Switchboard.Toml.Basic

/-!
# Values laid over each other

* `InOrder`: values whose tables are in order of their keys, everywhere inside;
* `mapDates`: what becomes of a value when its dates are replaced;
* `layered`, `lookup_overlayEntries`: what is under a key when a table is laid over another one;
* `overlay_overlay_self`: laying a value over twice is laying it over once;
* `at?`, `Silent`: what a value says at a path of keys, and where it says nothing;
* `at?_overlay_of_leaf`, `at?_overlay_of_silent`: what is said at a path when a value is laid over another one.
-/

namespace Switchboard.Toml

/-! ## Values in order -/

mutual

/-- Tables are in order of their keys; there may be dates, or not. -/
def InOrder (dates : Prop) : Toml → Prop
  | datetime _ => dates
  | arr items => ItemsInOrder dates items
  | table entries => entries.Pairwise (·.1 < ·.1) ∧ EntriesInOrder dates entries
  | _ => True

/-- `InOrder` of elements. -/
def ItemsInOrder (dates : Prop) : List Toml → Prop
  | [] => True
  | v :: rest => InOrder dates v ∧ ItemsInOrder dates rest

/-- `InOrder` of entries. -/
def EntriesInOrder (dates : Prop) : List (String × Toml) → Prop
  | [] => True
  | (_, v) :: rest => InOrder dates v ∧ EntriesInOrder dates rest

end

/-- In order, perhaps with dates. -/
abbrev Ordered (v : Toml) : Prop := v.InOrder True

/-- In order, without dates. -/
abbrev Plain (v : Toml) : Prop := v.InOrder False

variable {dates : Prop} {entries base top : List (String × Toml)} {k : String}

lemma inOrder_arr_iff {items : List Toml} : (arr items).InOrder dates ↔ ∀ v ∈ items, v.InOrder dates := by
  rw [InOrder]
  induction items with
  | nil => exact ⟨fun _ => List.forall_mem_nil _, fun _ => trivial⟩
  | cons v rest ih => rw [ItemsInOrder, ih, List.forall_mem_cons]

lemma entriesInOrder_iff : EntriesInOrder dates entries ↔ ∀ e ∈ entries, e.2.InOrder dates := by
  induction entries with
  | nil => exact ⟨fun _ => List.forall_mem_nil _, fun _ => trivial⟩
  | cons e rest ih => rw [EntriesInOrder, ih, List.forall_mem_cons]

lemma inOrder_table_iff :
    (table entries).InOrder dates ↔ entries.Pairwise (·.1 < ·.1) ∧ ∀ e ∈ entries, e.2.InOrder dates := by
  rw [InOrder, entriesInOrder_iff]

lemma mem_of_lookup {α : Type} {l : List (String × α)} {v : α} (h : l.lookup k = some v) : (k, v) ∈ l := by
  rw [Keyed.lookup_eq_find?, Option.map_eq_some_iff] at h
  obtain ⟨e, he, rfl⟩ := h
  obtain rfl : e.1 = k := by simpa using List.find?_some he
  exact List.mem_of_find?_eq_some he

lemma lookup_of_mem {α : Type} {l : List (String × α)} (hl : l.Pairwise (·.1 < ·.1)) {e : String × α} (he : e ∈ l) :
    l.lookup e.1 = some e.2 := by
  rw [Keyed.lookup_eq_find?, Keyed.find?_of_mem hl he]
  rfl

/-- Two tables in order with the same under every key are the same. -/
lemma eq_of_lookup {α : Type} {l m : List (String × α)} (hl : l.Pairwise (·.1 < ·.1)) (hm : m.Pairwise (·.1 < ·.1))
    (h : ∀ k, l.lookup k = m.lookup k) : l = m := by
  have hfind (l : List (String × α)) (k : String) : l.find? (·.1 = k) = (l.lookup k).map (k, ·) := by
    rw [Keyed.lookup_eq_find?, Option.map_map]
    cases he : l.find? (·.1 = k) with
    | none => rfl
    | some e =>
      obtain rfl : e.1 = k := by simpa using List.find?_some he
      rfl
  refine Keyed.eq_of_find? hl hm fun k => ?_
  rw [hfind, hfind, h]

namespace InOrder

lemma sorted (h : (table entries).InOrder dates) : entries.Pairwise (·.1 < ·.1) := (inOrder_table_iff.mp h).1

lemma nodup (h : (table entries).InOrder dates) : (entries.map (·.1)).Nodup :=
  List.pairwise_map.mpr (h.sorted.imp ne_of_lt)

lemma of_mem (h : (table entries).InOrder dates) {e : String × Toml} (he : e ∈ entries) : e.2.InOrder dates :=
  (inOrder_table_iff.mp h).2 e he

lemma of_lookup (h : (table entries).InOrder dates) {v : Toml} (hv : entries.lookup k = some v) : v.InOrder dates :=
  h.of_mem (mem_of_lookup hv)

end InOrder

/-- Is it a table? -/
def isTable : Toml → Bool
  | table _ => true
  | _ => false

lemma exists_of_isTable {v : Toml} (h : v.isTable = true) : ∃ entries, v = table entries := by
  cases v with
  | table entries => exact ⟨entries, rfl⟩
  | _ => cases h

/-- What holds of single values, and of arrays and tables if it holds inside of them, holds of every value. -/
theorem nested {motive : Toml → Prop} (single : ∀ v, (∀ items, v ≠ arr items) → (∀ entries, v ≠ table entries) → motive v)
    (array : ∀ items, (∀ v ∈ items, motive v) → motive (arr items))
    (entries : ∀ l, (∀ e ∈ l, motive e.2) → motive (table l)) (v : Toml) : motive v :=
  match v with
  | arr items => array items fun v hv =>
    have := List.sizeOf_lt_of_mem hv
    nested single array entries v
  | table l => entries l fun e he =>
    have := List.sizeOf_lt_of_mem he
    nested single array entries e.2
  | str _ | int _ | float _ | bool _ | datetime _ => single _ nofun nofun
termination_by sizeOf v
decreasing_by
  · simp only [arr.sizeOf_spec]
    omega
  · cases e
    simp only [table.sizeOf_spec, Prod.mk.sizeOf_spec] at *
    omega

/-! ## Entries -/

lemma inserts_entries : Keyed.Inserts (fun x : String × Toml => x.1) fun x l => insertEntry x.1 x.2 l where
  nil _ := rfl
  before hlt := if_pos hlt
  instead heq := by rw [insertEntry, if_neg heq.not_lt, if_pos heq]
  after hgt := by rw [insertEntry, if_neg (lt_asymm hgt), if_neg hgt.ne']

lemma lookup_insertEntry (key : String) (v : Toml) (l : List (String × Toml)) (other : String) :
    (insertEntry key v l).lookup other = if key = other then some v else l.lookup other := by
  rw [Keyed.lookup_eq_find?, inserts_entries.find? (key, v) l other, Keyed.lookup_eq_find?]
  split <;> rfl

lemma sorted_insertEntry (key : String) (v : Toml) {l : List (String × Toml)} (hl : l.Pairwise (·.1 < ·.1)) :
    (insertEntry key v l).Pairwise (·.1 < ·.1) :=
  inserts_entries.pairwise (key, v) hl

/-- An entry that comes before all others is put at the front. -/
lemma insertEntry_first {key : String} {v : Toml} {l : List (String × Toml)} (hl : ∀ e ∈ l, key < e.1) :
    insertEntry key v l = (key, v) :: l := by
  cases l with
  | nil => rfl
  | cons e rest => exact if_pos (hl e List.mem_cons_self)

/-! ## Other dates -/

lemma itemsMapDates_eq (f : String → Toml) (items : List Toml) : itemsMapDates f items = items.map (mapDates f) := by
  induction items with
  | nil => rfl
  | cons v rest ih => rw [itemsMapDates, ih, List.map_cons]

lemma entriesMapDates_eq (f : String → Toml) (l : List (String × Toml)) :
    entriesMapDates f l = l.map fun e => (e.1, e.2.mapDates f) := by
  induction l with
  | nil => rfl
  | cons e rest ih => rw [entriesMapDates, ih, List.map_cons]

lemma mapDates_arr (f : String → Toml) (items : List Toml) : (arr items).mapDates f = arr (items.map (mapDates f)) := by
  rw [mapDates, itemsMapDates_eq]

lemma mapDates_table (f : String → Toml) (l : List (String × Toml)) :
    (table l).mapDates f = table (l.map fun e => (e.1, e.2.mapDates f)) := by
  rw [mapDates, entriesMapDates_eq]

lemma lookup_map {α β : Type} (f : α → β) (l : List (String × α)) (k : String) :
    (l.map fun e => (e.1, f e.2)).lookup k = (l.lookup k).map f := by
  induction l with
  | nil => rfl
  | cons e rest ih =>
    rw [List.map_cons, List.lookup_cons, List.lookup_cons, ih]
    cases k == e.1 <;> rfl

lemma insertEntry_map (f : Toml → Toml) (key : String) (v : Toml) (l : List (String × Toml)) :
    insertEntry key (f v) (l.map fun e => (e.1, f e.2)) = (insertEntry key v l).map fun e => (e.1, f e.2) := by
  induction l with
  | nil => rfl
  | cons e rest ih =>
    rw [List.map_cons, insertEntry, insertEntry, ih]
    split
    · rfl
    · split <;> rfl

/-- With other dates a value is in order as it was, if what takes their place is. -/
lemma InOrder.mapDates {other : Prop} {f : String → Toml} (hf : ∀ t, (f t).InOrder other) {v : Toml}
    (h : v.InOrder dates) : (v.mapDates f).InOrder other := by
  induction v using nested with
  | single v hitems hentries =>
    cases v with
    | datetime t => exact hf t
    | arr items => exact absurd rfl (hitems items)
    | table l => exact absurd rfl (hentries l)
    | _ => exact trivial
  | array items ih =>
    rw [mapDates_arr, inOrder_arr_iff, List.forall_mem_map]
    exact fun v hv => ih v hv (inOrder_arr_iff.mp h v hv)
  | entries l ih =>
    rw [mapDates_table, inOrder_table_iff, List.pairwise_map, List.forall_mem_map]
    exact ⟨h.sorted, fun e he => ih e he (h.of_mem he)⟩

/-- Dates are replaced one time after another. -/
lemma mapDates_mapDates (f g : String → Toml) (v : Toml) : (v.mapDates g).mapDates f = v.mapDates fun t => (g t).mapDates f := by
  induction v using nested with
  | single v hitems hentries =>
    cases v with
    | arr items => exact absurd rfl (hitems items)
    | table l => exact absurd rfl (hentries l)
    | _ => rfl
  | array items ih =>
    rw [mapDates_arr, mapDates_arr, mapDates_arr, List.map_map]
    exact congrArg arr (List.map_congr_left ih)
  | entries l ih =>
    rw [mapDates_table, mapDates_table, mapDates_table, List.map_map]
    exact congrArg table (List.map_congr_left fun e he => congrArg (e.1, ·) (ih e he))

lemma plain_textual {v : Toml} (h : v.InOrder dates) : v.textual.Plain := by
  have hstr : ∀ t, (str t).Plain := fun _ => trivial
  exact h.mapDates hstr

@[simp] lemma textual_textual (v : Toml) : v.textual.textual = v.textual := mapDates_mapDates ..

@[simp] lemma textual_marked (v : Toml) : v.marked.textual = v.marked := mapDates_mapDates ..

@[simp] lemma marked_textual (v : Toml) : v.textual.marked = v.textual := mapDates_mapDates ..

/-! ## Tables over tables -/

@[simp] lemma overlay_table_table : (table base).overlay (table top) = table (overlayEntries base top) := by
  rw [overlay]

lemma overlay_of_not_table {b t : Toml} (h : b.isTable = false ∨ t.isTable = false) : b.overlay t = t := by
  rw [overlay]
  rintro l m rfl rfl
  rcases h with h | h <;> cases h

/-- One value that may be missing over another one. -/
def layered : Option Toml → Option Toml → Option Toml
  | some b, some t => some (b.overlay t)
  | none, some t => some t
  | b, none => b

@[simp] lemma layered_none (b : Option Toml) : layered b none = b := by
  cases b <;> rfl

@[simp] lemma none_layered (t : Option Toml) : layered none t = t := by
  cases t <;> rfl

lemma overlayEntries_cons (base : List (String × Toml)) (k : String) (v : Toml) (rest : List (String × Toml)) :
    ∃ w, some w = layered (base.lookup k) (some v) ∧
      overlayEntries base ((k, v) :: rest) = overlayEntries (insertEntry k w base) rest := by
  rw [overlayEntries]
  cases base.lookup k with
  | none => exact ⟨v, rfl, rfl⟩
  | some old => exact ⟨old.overlay v, rfl, rfl⟩

/-- Under every key there is what was there with what is new over it. -/
lemma lookup_overlayEntries (h : (top.map (·.1)).Nodup) (k : String) :
    (overlayEntries base top).lookup k = layered (base.lookup k) (top.lookup k) := by
  induction top generalizing base with
  | nil => rw [overlayEntries, List.lookup_nil, layered_none]
  | cons e rest ih =>
    obtain ⟨key, v⟩ := e
    obtain ⟨hnot, hrest⟩ := List.nodup_cons.mp h
    obtain ⟨w, hw, hrec⟩ := overlayEntries_cons base key v rest
    rw [hrec, ih hrest, lookup_insertEntry, List.lookup_cons]
    by_cases hk : key = k
    · subst hk
      have hmissing : rest.lookup key = none := Json.lookup_eq_none hnot
      rw [if_pos rfl, beq_self_eq_true, hmissing, layered_none, hw]
    · rw [if_neg hk, beq_eq_false_iff_ne.mpr (Ne.symm hk)]

lemma sorted_overlayEntries (hbase : base.Pairwise (·.1 < ·.1)) (top : List (String × Toml)) :
    (overlayEntries base top).Pairwise (·.1 < ·.1) := by
  induction top generalizing base with
  | nil =>
    rw [overlayEntries]
    exact hbase
  | cons e rest ih =>
    obtain ⟨w, -, hrec⟩ := overlayEntries_cons base e.1 e.2 rest
    rw [hrec]
    exact ih (sorted_insertEntry _ _ hbase)

/-- A value over another one is in order if both are. -/
lemma InOrder.overlay {b t : Toml} (hb : b.InOrder dates) (ht : t.InOrder dates) : (b.overlay t).InOrder dates := by
  induction t using nested generalizing b with
  | entries l ih =>
    cases b with
    | table m =>
      rw [overlay_table_table, inOrder_table_iff]
      have hsorted := sorted_overlayEntries hb.sorted l
      refine ⟨hsorted, fun e he => ?_⟩
      have hlookup := lookup_of_mem hsorted he
      rw [lookup_overlayEntries ht.nodup] at hlookup
      cases hm : m.lookup e.1 with
      | none =>
        rw [hm, none_layered] at hlookup
        exact ht.of_lookup hlookup
      | some old =>
        cases hl : l.lookup e.1 with
        | none =>
          rw [hm, hl] at hlookup
          obtain rfl := Option.some.inj hlookup
          exact hb.of_lookup hm
        | some new =>
          rw [hm, hl] at hlookup
          obtain hsame : old.overlay new = e.2 := Option.some.inj hlookup
          rw [← hsame]
          exact ih (e.1, new) (mem_of_lookup hl) (hb.of_lookup hm) (ht.of_lookup hl)
    | _ => rwa [overlay_of_not_table (.inl rfl)]
  | single v _ hentries =>
    cases v with
    | table l => exact absurd rfl (hentries l)
    | _ => rwa [overlay_of_not_table (.inr rfl)]
  | array items _ => rwa [overlay_of_not_table (.inr rfl)]

/-- A table over the empty one is that table. -/
lemma overlay_empty (h : (table top).InOrder dates) : (table []).overlay (table top) = table top := by
  rw [overlay_table_table]
  refine congrArg table (eq_of_lookup (sorted_overlayEntries List.Pairwise.nil top) h.sorted fun k => ?_)
  rw [lookup_overlayEntries h.nodup, List.lookup_nil, none_layered]

/-- The empty table over a value that is one leaves it as it was. -/
@[simp] lemma overlay_nil : (table base).overlay (table []) = table base := by
  rw [overlay_table_table, overlayEntries]

lemma isTable_eq_false {v : Toml} (h : ∀ entries, v ≠ table entries) : v.isTable = false := by
  cases v with
  | table l => exact absurd rfl (h l)
  | _ => rfl

lemma overlay_self {t : Toml} (h : t.InOrder dates) : t.overlay t = t := by
  induction t using nested with
  | single v _ hentries => exact overlay_of_not_table (.inr (isTable_eq_false hentries))
  | array items _ => exact overlay_of_not_table (.inr rfl)
  | entries l ih =>
    rw [overlay_table_table]
    refine congrArg table (eq_of_lookup (sorted_overlayEntries h.sorted l) h.sorted fun k => ?_)
    rw [lookup_overlayEntries h.nodup]
    cases hl : l.lookup k with
    | none => rfl
    | some v => exact congrArg some (ih (k, v) (mem_of_lookup hl) (h.of_lookup hl))

/-- To lay a value over another one twice is to do it once. -/
theorem overlay_overlay_self {b t : Toml} (hb : b.InOrder dates) (ht : t.InOrder dates) :
    (b.overlay t).overlay t = b.overlay t := by
  induction t using nested generalizing b with
  | single v _ hentries =>
    have hnot := isTable_eq_false hentries
    rw [overlay_of_not_table (.inr hnot), overlay_of_not_table (.inr hnot)]
  | array items _ => rw [overlay_of_not_table (.inr rfl), overlay_of_not_table (.inr rfl)]
  | entries l ih =>
    by_cases hb' : b.isTable = false
    · rw [overlay_of_not_table (.inl hb'), overlay_self ht]
    · obtain ⟨m, rfl⟩ := exists_of_isTable (Bool.eq_true_of_not_eq_false hb')
      rw [overlay_table_table, overlay_table_table]
      have hsorted := sorted_overlayEntries hb.sorted l
      refine congrArg table (eq_of_lookup (sorted_overlayEntries hsorted l) hsorted fun k => ?_)
      rw [lookup_overlayEntries ht.nodup, lookup_overlayEntries ht.nodup]
      cases hl : l.lookup k with
      | none => rw [layered_none, layered_none]
      | some v =>
        cases hm : m.lookup k with
        | none => exact congrArg some (overlay_self (ht.of_lookup hl))
        | some old => exact congrArg some (ih (k, v) (mem_of_lookup hl) (hb.of_lookup hm) (ht.of_lookup hl))

/-- Dates become texts before a value is laid over another one, or after that. -/
theorem textual_overlay (b t : Toml) : (b.overlay t).textual = b.textual.overlay t.textual := by
  induction t using nested generalizing b with
  | single v hitems hentries =>
    have hnot : v.textual.isTable = false := by
      cases v with
      | arr items => exact absurd rfl (hitems items)
      | table l => exact absurd rfl (hentries l)
      | _ => rfl
    rw [overlay_of_not_table (.inr (isTable_eq_false hentries)), overlay_of_not_table (.inr hnot)]
  | array items _ =>
    have hnot : (arr items).textual.isTable = false := rfl
    rw [overlay_of_not_table (.inr rfl), overlay_of_not_table (.inr hnot)]
  | entries l ih =>
    cases b with
    | table m =>
      have htable (l : List (String × Toml)) : (table l).textual = table (l.map fun e => (e.1, e.2.textual)) :=
        mapDates_table str l
      rw [overlay_table_table, htable, htable, htable, overlay_table_table]
      refine congrArg table ?_
      clear htable
      induction l generalizing m with
      | nil => rw [overlayEntries, List.map_nil, overlayEntries]
      | cons e rest ihrest =>
        obtain ⟨hfirst, hrest⟩ := List.forall_mem_cons.mp ih
        obtain ⟨k, v⟩ := e
        rw [overlayEntries, ihrest hrest, List.map_cons, overlayEntries, lookup_map textual]
        cases m.lookup k with
        | none => rw [← insertEntry_map textual]; rfl
        | some old => rw [← insertEntry_map textual, hfirst]; rfl
    | _ =>
      rw [overlay_of_not_table (.inl rfl)]
      exact (overlay_of_not_table (.inl rfl)).symm

/-! ## Paths -/

/-- What is at a path of keys. -/
def at? : Toml → List String → Option Toml
  | v, [] => some v
  | table l, k :: path => (l.lookup k).bind (·.at? path)
  | _, _ :: _ => none

/-- Nothing is said at the path, nor above it: some table on the way lacks the next key. -/
def Silent : Toml → List String → Prop
  | table l, k :: path => ∀ v, l.lookup k = some v → v.Silent path
  | _, _ => False

section Paths

variable {b t v : Toml} {path : List String}

lemma at?_table (l : List (String × Toml)) (k : String) (path : List String) :
    (table l).at? (k :: path) = (l.lookup k).bind (·.at? path) := by
  rw [at?]

lemma at?_cons_of_not_table (h : v.isTable = false) (k : String) (path : List String) : v.at? (k :: path) = none := by
  cases v with
  | table l => cases h
  | _ => rfl

/-- Below a key there is only a table. -/
lemma exists_of_at? (h : t.at? (k :: path) = some v) : ∃ l u, t = table l ∧ l.lookup k = some u ∧ u.at? path = some v := by
  cases ht : t.isTable with
  | false =>
    rw [at?_cons_of_not_table ht] at h
    cases h
  | true =>
    obtain ⟨l, rfl⟩ := exists_of_isTable ht
    rw [at?_table] at h
    obtain ⟨u, hu, hv⟩ := Option.bind_eq_some_iff.mp h
    exact ⟨l, u, rfl, hu, hv⟩

lemma exists_of_silent (h : t.Silent path) :
    ∃ l k rest, t = table l ∧ path = k :: rest ∧ ∀ u, l.lookup k = some u → u.Silent rest := by
  cases path with
  | nil => cases t <;> cases h
  | cons k rest =>
    cases t with
    | table l => exact ⟨l, k, rest, rfl, rfl, h⟩
    | _ => cases h

lemma InOrder.at? (h : t.InOrder dates) (hv : t.at? path = some v) : v.InOrder dates := by
  induction path generalizing t with
  | nil =>
    obtain rfl : t = v := Option.some.inj (by rwa [Toml.at?] at hv)
    exact h
  | cons k rest ih =>
    obtain ⟨l, u, rfl, hl, hu⟩ := exists_of_at? hv
    exact ih (h.of_lookup hl) hu

lemma at?_of_silent (h : t.Silent path) : t.at? path = none := by
  induction path generalizing t with
  | nil => cases t <;> cases h
  | cons k rest ih =>
    obtain ⟨l, k, rest, rfl, heq, hrest⟩ := exists_of_silent h
    obtain ⟨rfl, rfl⟩ := List.cons.inj heq
    rw [at?_table, Option.bind_eq_none_iff]
    exact fun u hu => ih (hrest u hu)

lemma at?_textual (v : Toml) (path : List String) : v.textual.at? path = (v.at? path).map textual := by
  induction path generalizing v with
  | nil => cases v <;> rfl
  | cons k rest ih =>
    cases hv : v.isTable with
    | false =>
      have hnot : v.textual.isTable = false := by
        cases v with
        | table l => cases hv
        | _ => rfl
      rw [at?_cons_of_not_table hv, at?_cons_of_not_table hnot]
      rfl
    | true =>
      obtain ⟨l, rfl⟩ := exists_of_isTable hv
      have htable : (table l).textual = table (l.map fun e => (e.1, e.2.textual)) := mapDates_table str l
      rw [htable, at?_table, at?_table, lookup_map textual, Option.map_bind, Option.bind_map]
      exact congrArg (Option.bind _) (funext fun u => ih u)

lemma isTable_textual (v : Toml) : v.textual.isTable = v.isTable := by
  cases v <;> rfl

lemma silent_textual (h : t.Silent path) : t.textual.Silent path := by
  induction path generalizing t with
  | nil => cases t <;> cases h
  | cons k rest ih =>
    obtain ⟨l, k, rest, rfl, heq, hrest⟩ := exists_of_silent h
    obtain ⟨rfl, rfl⟩ := List.cons.inj heq
    have htable : (table l).textual = table (l.map fun e => (e.1, e.2.textual)) := mapDates_table str l
    rw [htable]
    intro v hv
    rw [lookup_map textual, Option.map_eq_some_iff] at hv
    obtain ⟨u, hu, rfl⟩ := hv
    exact ih (hrest u hu)

/-- What is at a path of a value over another one: what was there, what is new, or this over that. -/
lemma at?_overlay (ht : t.InOrder dates) (h : (b.overlay t).at? path = some v) :
    t.at? path = some v ∨ b.at? path = some v ∨
      ∃ old new, b.at? path = some old ∧ t.at? path = some new ∧ v = old.overlay new := by
  induction path generalizing b t with
  | nil => exact .inr (.inr ⟨b, t, by rw [at?], by rw [at?], (Option.some.inj (by rwa [at?] at h)).symm⟩)
  | cons k rest ih =>
    by_cases hboth : b.isTable = false ∨ t.isTable = false
    · rw [overlay_of_not_table hboth] at h
      exact .inl h
    · obtain ⟨hb', ht'⟩ := not_or.mp hboth
      obtain ⟨m, rfl⟩ := exists_of_isTable (Bool.eq_true_of_not_eq_false hb')
      obtain ⟨l, rfl⟩ := exists_of_isTable (Bool.eq_true_of_not_eq_false ht')
      rw [overlay_table_table, at?_table, lookup_overlayEntries ht.nodup] at h
      rw [at?_table, at?_table]
      cases hl : l.lookup k with
      | none =>
        rw [hl, layered_none] at h
        exact .inr (.inl h)
      | some new =>
        cases hm : m.lookup k with
        | none =>
          rw [hl, hm] at h
          exact .inl h
        | some old =>
          rw [hl, hm] at h
          exact ih (ht.of_lookup hl) h

/-- What a value says at a path, where it is no table or there was none, is there when it is laid over another one. -/
theorem at?_overlay_of_leaf (b : Toml) (ht : t.InOrder dates) (hv : t.at? path = some v)
    (hleaf : v.isTable = false ∨ ∀ u, b.at? path = some u → u.isTable = false) : (b.overlay t).at? path = some v := by
  induction path generalizing b t with
  | nil =>
    obtain rfl : t = v := Option.some.inj (by rwa [at?] at hv)
    rw [overlay_of_not_table (hleaf.symm.imp_left fun h => h b (by rw [at?])), hv]
  | cons k rest ih =>
    obtain ⟨l, u, rfl, hl, hu⟩ := exists_of_at? hv
    by_cases hb : b.isTable = false
    · rw [overlay_of_not_table (.inl hb), hv]
    · obtain ⟨m, rfl⟩ := exists_of_isTable (Bool.eq_true_of_not_eq_false hb)
      rw [overlay_table_table, at?_table, lookup_overlayEntries ht.nodup, hl]
      cases hm : m.lookup k with
      | none => exact hu
      | some old =>
        refine ih old (ht.of_lookup hl) hu (hleaf.imp_right fun h w hw => h w ?_)
        rw [at?_table, hm]
        exact hw

/-- Where a value says nothing, what was there stays when it is laid over another one. -/
theorem at?_overlay_of_silent (b : Toml) (ht : t.InOrder dates) (h : t.Silent path) :
    (b.overlay t).at? path = b.at? path := by
  induction path generalizing b t with
  | nil => cases t <;> cases h
  | cons k rest ih =>
    have hmissing := at?_of_silent h
    obtain ⟨l, k, rest, rfl, heq, hrest⟩ := exists_of_silent h
    obtain ⟨rfl, rfl⟩ := List.cons.inj heq
    by_cases hb : b.isTable = false
    · rw [overlay_of_not_table (.inl hb), hmissing, at?_cons_of_not_table hb]
    · obtain ⟨m, rfl⟩ := exists_of_isTable (Bool.eq_true_of_not_eq_false hb)
      rw [overlay_table_table, at?_table, at?_table, lookup_overlayEntries ht.nodup]
      cases hl : l.lookup k with
      | none => rw [layered_none]
      | some u =>
        have hsilent := hrest u hl
        cases m.lookup k with
        | none => exact at?_of_silent hsilent
        | some old => exact ih old (ht.of_lookup hl) hsilent

lemma silent_overlay (hb : b.Silent path) (ht : t.Silent path) (hordered : t.InOrder dates) : (b.overlay t).Silent path := by
  induction path generalizing b t with
  | nil => cases t <;> cases ht
  | cons k rest ih =>
    obtain ⟨m, _, _, rfl, heq, hm⟩ := exists_of_silent hb
    obtain ⟨rfl, rfl⟩ := List.cons.inj heq
    obtain ⟨l, _, _, rfl, heq, hl⟩ := exists_of_silent ht
    obtain ⟨rfl, rfl⟩ := List.cons.inj heq
    rw [overlay_table_table]
    intro v hv
    rw [lookup_overlayEntries hordered.nodup] at hv
    cases hold : m.lookup k with
    | none =>
      rw [hold, none_layered] at hv
      exact hl v hv
    | some old =>
      cases hnew : l.lookup k with
      | none =>
        rw [hold, hnew] at hv
        obtain rfl := Option.some.inj hv
        exact hm _ hold
      | some new =>
        rw [hold, hnew] at hv
        obtain rfl := Option.some.inj hv
        exact ih (hm old hold) (hl new hnew) (hordered.of_lookup hnew)

end Paths

end Switchboard.Toml
