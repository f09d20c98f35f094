import Switchboard.Proofs.Toml.Overlay
import Switchboard.Settings.Basic

/-!
# Settings read off values

* `reads`, `value`, `valueD`: what is read off a value that is there, has to be there or may be missing;
* `readFields`, `reads_record`: a record is read field by field;
* `reads_named`: sections by name are read one by one;
* `Exact`: shapes whose values are written as they were read, whole tables among them.
-/

namespace Switchboard.Settings

open Json (Shape Fields)
open Toml (table)

variable {α β : Type}

/-! ## Reading -/

/-- What a shape reads off a value. -/
def reads (shape : Shape α) (v : Toml) : Option α := (shape v.toJson).toOption

/-- What is read off a value that has to be there. -/
def value (shape : Shape α) (x : Option Toml) : Option α := x.bind (reads shape)

/-- What is read off a value that may be missing. -/
def valueD (shape : Shape α) (d : α) : Option Toml → Option α
  | none => some d
  | some v => reads shape v

/-- The record that is built from values by name. -/
def readFields (r : Fields α) (get : String → Option Toml) : Option α :=
  (r.build fun k => (get k).map Toml.toJson).toOption

section Fields

variable (get : String → Option Toml)

@[simp] lemma readFields_map (f : α → β) (r : Fields α) : readFields (f <$> r) get = (readFields r get).map f := by
  show (f <$> r.build _).toOption = _
  rw [readFields]
  cases r.build _ <;> rfl

@[simp] lemma readFields_seq (f : Fields (α → β)) (r : Fields α) :
    readFields (f <*> r) get = (readFields f get).bind fun g => (readFields r get).map g := by
  show (f.build _ >>= fun g => r.build _ >>= fun a => pure (g a)).toOption = _
  rw [readFields, readFields]
  cases f.build _ with
  | error e => rfl
  | ok g => cases r.build _ <;> rfl

@[simp] lemma readFields_field (name : String) (shape : Shape α) :
    readFields (Fields.field name shape) get = value shape (get name) := by
  simp only [readFields, Fields.field]
  cases get name <;> rfl

@[simp] lemma readFields_fieldD (name : String) (shape : Shape α) (d : α) :
    readFields (Fields.fieldD name shape d) get = valueD shape d (get name) := by
  simp only [readFields, Fields.fieldD]
  cases get name <;> rfl

@[simp] lemma readFields_fieldD? (name : String) (shape : Shape α) :
    readFields (Fields.fieldD? name shape) get = valueD (Shape.nullable shape) none (get name) :=
  readFields_fieldD get name _ none

end Fields

lemma entriesToJson_eq (l : List (String × Toml)) : Toml.entriesToJson l = l.map fun e => (e.1, e.2.toJson) := by
  induction l with
  | nil => rfl
  | cons e rest ih => rw [Toml.entriesToJson, ih, List.map_cons]

lemma toJson_table (l : List (String × Toml)) : (table l).toJson = .obj (l.map fun e => (e.1, e.2.toJson)) := by
  rw [Toml.toJson, entriesToJson_eq]

/-- A record is read off a table in order field by field. -/
lemma reads_record {dates : Prop} {r : Fields α} (hr : r.Honest) (name : String) {l : List (String × Toml)}
    (h : (table l).InOrder dates) : reads (recordShape .layers name r) (table l) = readFields r (l.lookup ·) := by
  have hkeys : ((l.map fun e => (e.1, e.2.toJson)).map (·.1)).Nodup := by
    rw [List.map_map]
    exact h.nodup
  have hlookup : (fun k => (l.map fun e => (e.1, e.2.toJson)).lookup k) = fun k => (l.lookup k).map Toml.toJson :=
    funext fun k => Toml.lookup_map Toml.toJson l k
  rw [reads, toJson_table]
  show (r.ofMembers _).toOption = _
  rw [readFields, ← hlookup]
  cases hbuild : r.build fun k => (l.map fun e => (e.1, e.2.toJson)).lookup k with
  | ok a => rw [Fields.ofMembers_of_build hr hkeys hbuild]
  | error e =>
    rw [Fields.ofMembers]
    cases Fields.visit r.fields (l.map fun e => (e.1, e.2.toJson)) [] with
    | error e' => rfl
    | ok _ => exact congrArg Except.toOption hbuild

/-! ## Values that are written as they were read -/

/-- Whatever is read is written as it was. -/
def Exact (shape : Shape α) (write : α → Toml) : Prop := ∀ v a, v.Plain → reads shape v = some a → write a = v

lemma exact_string : Exact Shape.string .str := by
  intro v a _ h
  cases v <;> cases h
  rfl

lemma exact_path : Exact Shape.path .str := by
  intro v a _ h
  cases v <;> cases h
  rfl

lemma exact_bool : Exact Shape.bool .bool := by
  intro v a _ h
  cases v <;> cases h
  rfl

/-- A number from zero on. -/
lemma exact_natural (type : String) (high : Int) :
    Exact (fun v => Int.toNat <$> Shape.integer type 0 high v) (.int ·) := by
  intro v a _ h
  cases v with
  | int i =>
    by_cases hi : 0 ≤ i ∧ i ≤ high
    · have hread : reads (fun v => Int.toNat <$> Shape.integer type 0 high v) (.int i) = some i.toNat := by
        show (Int.toNat <$> (if 0 ≤ i ∧ i ≤ high then pure i else throw _ : Except Json.Fault Int)).toOption = _
        rw [if_pos hi]
        rfl
      obtain rfl := Option.some.inj (hread.symm.trans h)
      exact congrArg Toml.int (Int.toNat_of_nonneg hi.1)
    · have hread : reads (fun v => Int.toNat <$> Shape.integer type 0 high v) (.int i) = none := by
        show (Int.toNat <$> (if 0 ≤ i ∧ i ≤ high then pure i else throw _ : Except Json.Fault Int)).toOption = _
        rw [if_neg hi]
        rfl
      rw [hread] at h
      cases h
  | _ => cases h

lemma itemsToJson_eq (items : List Toml) : Toml.itemsToJson items = items.map Toml.toJson := by
  induction items with
  | nil => rfl
  | cons v rest ih => rw [Toml.itemsToJson, ih, List.map_cons]

/-- A list is read element by element. -/
lemma mapM_eq_ok {ε γ : Type} {f : α → Except ε β} {write : β → γ} {back : α → γ} {l : List α} {m : List β}
    (h : ∀ x ∈ l, ∀ y, f x = .ok y → write y = back x) (hm : l.mapM f = .ok m) : m.map write = l.map back := by
  induction l generalizing m with
  | nil =>
    cases hm
    rfl
  | cons x rest ih =>
    obtain ⟨hx, hrest⟩ := List.forall_mem_cons.mp h
    rw [List.mapM_cons] at hm
    cases hfirst : f x with
    | error e =>
      rw [hfirst] at hm
      cases hm
    | ok y =>
      cases hlast : rest.mapM f with
      | error e =>
        rw [hfirst, hlast] at hm
        cases hm
      | ok ys =>
        rw [hfirst, hlast] at hm
        cases hm
        rw [List.map_cons, List.map_cons, hx y hfirst, ih hrest hlast]

lemma toOption_eq_some {ε : Type} {e : Except ε α} {a : α} : e.toOption = some a ↔ e = .ok a := by
  cases e with
  | error e => exact ⟨nofun, nofun⟩
  | ok b => exact ⟨fun h => congrArg _ (Option.some.inj h), fun h => by rw [h]; rfl⟩

lemma exact_texts : Exact (Shape.list Shape.string) texts := by
  intro v l hv h
  cases v with
  | arr items =>
    have hread : (items.map Toml.toJson).mapM Shape.string = .ok l := by
      rw [← itemsToJson_eq]
      exact toOption_eq_some.mp h
    rw [List.mapM_map] at hread
    have hback : ∀ v ∈ items, ∀ s, Shape.string v.toJson = .ok s → Toml.str s = id v := fun v hmem s hs =>
      exact_string v s (Toml.inOrder_arr_iff.mp hv v hmem) (toOption_eq_some.mpr hs)
    have hitems := mapM_eq_ok hback hread
    rw [List.map_id] at hitems
    exact congrArg Toml.arr hitems
  | _ => cases h

section Free

variable {l : List (String × Toml)} {k : String} {v : Toml}

/-- Entries are read back in their order. -/
lemma entriesOfJson_exact (hsorted : l.Pairwise (·.1 < ·.1))
    (h : ∀ e ∈ l, ∀ y, Toml.ofJson e.2.toJson = .ok y → y.marked = e.2) {m : List (String × Toml)}
    (hm : Toml.entriesOfJson (l.map fun e => (e.1, e.2.toJson)) = .ok m) : (m.map fun e => (e.1, e.2.marked)) = l := by
  induction l generalizing m with
  | nil =>
    cases hm
    rfl
  | cons e rest ih =>
    obtain ⟨hfirst, hrest⟩ := List.pairwise_cons.mp hsorted
    obtain ⟨he, h⟩ := List.forall_mem_cons.mp h
    rw [List.map_cons, Toml.entriesOfJson] at hm
    cases hread : Toml.ofJson e.2.toJson with
    | error e =>
      rw [hread] at hm
      cases hm
    | ok y =>
      cases hlast : Toml.entriesOfJson (rest.map fun e => (e.1, e.2.toJson)) with
      | error e =>
        rw [hread, hlast] at hm
        cases hm
      | ok ys =>
        rw [hread, hlast] at hm
        cases hm
        have hback := ih hrest h hlast
        -- keys are read as they are, so the first one still comes before all others
        have hbefore : ∀ x ∈ ys, e.1 < x.1 := by
          intro x hx
          have hmem : (x.1, x.2.marked) ∈ rest := hback ▸ List.mem_map_of_mem hx
          exact hfirst (x.1, x.2.marked) hmem
        rw [Toml.insertEntry_first hbefore, List.map_cons, hback, he y hread]

/-- So are elements. -/
lemma itemsOfJson_exact {items m : List Toml} (h : ∀ v ∈ items, ∀ y, Toml.ofJson v.toJson = .ok y → y.marked = v)
    (hm : Toml.itemsOfJson (items.map Toml.toJson) = .ok m) : m.map Toml.marked = items := by
  induction items generalizing m with
  | nil =>
    cases hm
    rfl
  | cons v rest ih =>
    obtain ⟨hv, h⟩ := List.forall_mem_cons.mp h
    rw [List.map_cons, Toml.itemsOfJson] at hm
    cases hread : Toml.ofJson v.toJson with
    | error e =>
      rw [hread] at hm
      cases hm
    | ok y =>
      cases hlast : Toml.itemsOfJson (rest.map Toml.toJson) with
      | error e =>
        rw [hread, hlast] at hm
        cases hm
      | ok ys =>
        rw [hread, hlast] at hm
        cases hm
        rw [List.map_cons, hv y hread, ih h hlast]

lemma marked_arr (items : List Toml) : (Toml.arr items).marked = .arr (items.map Toml.marked) := Toml.mapDates_arr _ items

lemma marked_table (l : List (String × Toml)) : (table l).marked = table (l.map fun e => (e.1, e.2.marked)) :=
  Toml.mapDates_table _ l

/-- A table that is read as it is, unless its first key is the mark of a date. -/
lemma ofJson_cons (k : String) (v : Toml) (l : List (String × Toml)) {y : Toml}
    (h : Toml.ofJson (table ((k, v) :: l)).toJson = .ok y) :
    (∃ t, y = .datetime t ∧ k = Toml.dateKey ∧ v.toJson = .str t ∧ l = []) ∨
      ∃ m, y = table m ∧ Toml.entriesOfJson (((k, v) :: l).map fun e => (e.1, e.2.toJson)) = .ok m := by
  rw [toJson_table, List.map_cons, Toml.ofJson.eq_def] at h
  dsimp only at h
  split at h
  · next hk =>
    split at h
    · next t hv hl =>
      cases h
      exact .inl ⟨t, rfl, hk, hv, List.map_eq_nil_iff.mp hl⟩
    · cases h
    · cases h
  · cases hread : Toml.ofJson v.toJson with
    | error e =>
      rw [hread] at h
      cases h
    | ok first =>
      cases hlast : Toml.entriesOfJson (l.map fun e => (e.1, e.2.toJson)) with
      | error e =>
        rw [hread, hlast] at h
        cases h
      | ok rest =>
        rw [hread, hlast] at h
        cases h
        refine .inr ⟨_, rfl, ?_⟩
        rw [List.map_cons, Toml.entriesOfJson, hread, hlast]
        rfl

/-- A value that is taken as it is is written as it was. -/
lemma marked_of_ofJson (hv : v.Plain) {y : Toml} (h : Toml.ofJson v.toJson = .ok y) : y.marked = v := by
  induction v using Toml.nested generalizing y with
  | single v hitems hentries =>
    cases v with
    | int i =>
      rw [Toml.toJson, Toml.ofJson] at h
      split at h <;> cases h
      rfl
    | datetime t => cases hv
    | arr items => exact absurd rfl (hitems items)
    | table l => exact absurd rfl (hentries l)
    | _ =>
      cases h
      rfl
  | array items ih =>
    rw [Toml.toJson, Toml.ofJson, itemsToJson_eq] at h
    cases hread : Toml.itemsOfJson (items.map Toml.toJson) with
    | error e =>
      rw [hread] at h
      cases h
    | ok m =>
      rw [hread] at h
      cases h
      have hback := itemsOfJson_exact (fun v hmem y hy => ih v hmem (Toml.inOrder_arr_iff.mp hv v hmem) hy) hread
      rw [marked_arr, hback]
  | entries l ih =>
    have hback {m : List (String × Toml)} (hm : Toml.entriesOfJson (l.map fun e => (e.1, e.2.toJson)) = .ok m) :
        (table m).marked = table l := by
      rw [marked_table, entriesOfJson_exact hv.sorted (fun e he y hy => ih e he (hv.of_mem he) hy) hm]
    cases l with
    | nil =>
      cases h
      rfl
    | cons e rest =>
      obtain ⟨k, v⟩ := e
      rcases ofJson_cons k v rest h with ⟨t, rfl, rfl, hv', rfl⟩ | ⟨m, rfl, hm⟩
      · -- what is marked as a date is written with its mark
        cases v <;> cases hv'
        rfl
      · exact hback hm

lemma exact_value : Exact Toml.ofJson Toml.marked := fun _ _ hv h => marked_of_ofJson hv (toOption_eq_some.mp h)

lemma exact_table : Exact Toml.tableShape fun t => (table t).marked := by
  intro v t hv h
  cases v with
  | table l =>
    have hread : Toml.entriesOfJson (l.map fun e => (e.1, e.2.toJson)) = .ok t := by
      rw [← entriesToJson_eq]
      exact toOption_eq_some.mp h
    show (table t).marked = table l
    rw [marked_table, entriesOfJson_exact hv.sorted (fun e he y hy => marked_of_ofJson (hv.of_mem he) hy) hread]
  | datetime t => cases hv
  | _ => cases h

end Free

/-! ## Sections by name -/

section Named

variable {shape : Shape α} {l l' : List (String × Toml)} {m : List (String × α)}

lemma inserts_named : Keyed.Inserts (fun x : String × α => x.1) fun x l => insertNamed x.1 x.2 l where
  nil _ := rfl
  before hlt := if_pos hlt
  instead heq := by rw [insertNamed, if_neg heq.not_lt, if_pos heq]
  after hgt := by rw [insertNamed, if_neg (lt_asymm hgt), if_neg hgt.ne']

/-- What is in order is put in at the end, one after the other. -/
lemma foldl_insertNamed {before : List (String × α)} (h : (before ++ m).Pairwise (·.1 < ·.1)) :
    m.foldl (fun acc x => insertNamed x.1 x.2 acc) before = before ++ m := by
  induction m generalizing before with
  | nil => rw [List.foldl_nil, List.append_nil]
  | cons x rest ih =>
    have hlast : insertNamed x.1 x.2 before = before ++ [x] :=
      inserts_named.last fun y hy => (List.pairwise_append.mp h).2.2 y hy x List.mem_cons_self
    rw [List.append_cons] at h
    rw [List.foldl_cons, hlast, ih h, List.append_assoc, List.singleton_append]

/-- The readings of all entries, if there are. -/
def readAll (shape : Shape α) (l : List (String × Toml)) : Option (List (String × α)) :=
  l.mapM fun e => (reads shape e.2).map (e.1, ·)

lemma readAll_cons (e : String × Toml) (rest : List (String × Toml)) :
    readAll shape (e :: rest) = (reads shape e.2).bind fun a => (readAll shape rest).map ((e.1, a) :: ·) := by
  rw [readAll, List.mapM_cons]
  cases reads shape e.2 with
  | none => rfl
  | some a => cases h : rest.mapM fun e => (reads shape e.2).map (e.1, ·) <;> simp [readAll, h]

lemma keys_readAll (h : readAll shape l = some m) : m.map (·.1) = l.map (·.1) := by
  induction l generalizing m with
  | nil =>
    cases h
    rfl
  | cons e rest ih =>
    rw [readAll_cons] at h
    obtain ⟨a, -, h⟩ := Option.bind_eq_some_iff.mp h
    obtain ⟨m, hm, rfl⟩ := Option.map_eq_some_iff.mp h
    exact congrArg (e.1 :: ·) (ih hm)

/-- Every name has its reading, and no other name has one. -/
lemma lookup_readAll (h : readAll shape l = some m) (k : String) :
    (l.lookup k = none ∧ m.lookup k = none) ∨
      ∃ v a, l.lookup k = some v ∧ m.lookup k = some a ∧ reads shape v = some a := by
  induction l generalizing m with
  | nil =>
    cases h
    exact .inl ⟨rfl, rfl⟩
  | cons e rest ih =>
    rw [readAll_cons] at h
    obtain ⟨a, ha, h⟩ := Option.bind_eq_some_iff.mp h
    obtain ⟨m, hm, rfl⟩ := Option.map_eq_some_iff.mp h
    rw [List.lookup_cons, List.lookup_cons]
    cases k == e.1 with
    | true => exact .inr ⟨e.2, a, rfl, rfl, ha⟩
    | false => exact ih hm

lemma sorted_readAll (hl : l.Pairwise (·.1 < ·.1)) (h : readAll shape l = some m) : m.Pairwise (·.1 < ·.1) := by
  have hkeys : (m.map (·.1)).Pairwise (· < ·) := by
    rw [keys_readAll h]
    exact List.pairwise_map.mpr hl
  exact List.pairwise_map.mp hkeys

/-- Tables are read alike if what is under every key is. -/
lemma readAll_congr (hl : l.Pairwise (·.1 < ·.1)) (hl' : l'.Pairwise (·.1 < ·.1))
    (h : ∀ k, (l.lookup k).map (reads shape) = (l'.lookup k).map (reads shape)) : readAll shape l = readAll shape l' := by
  have hmap (l : List (String × Toml)) : readAll shape l =
      (l.map fun e => (e.1, reads shape e.2)).mapM fun e : String × Option α => e.2.map (e.1, ·) := by
    rw [List.mapM_map]
    rfl
  have hsorted {l : List (String × Toml)} (hl : l.Pairwise (·.1 < ·.1)) :
      (l.map fun e => (e.1, reads shape e.2)).Pairwise (·.1 < ·.1) := List.pairwise_map.mpr hl
  rw [hmap, hmap]
  congr 1
  refine Toml.eq_of_lookup (hsorted hl) (hsorted hl') fun k => ?_
  rw [Toml.lookup_map, Toml.lookup_map, h]

lemma toOption_mapM {ε γ δ : Type} (f : γ → Except ε δ) (l : List γ) :
    (l.mapM f).toOption = l.mapM fun x => (f x).toOption := by
  induction l with
  | nil => rfl
  | cons x rest ih =>
    rw [List.mapM_cons, List.mapM_cons, ← ih]
    cases f x with
    | error e => rfl
    | ok y => cases rest.mapM f <;> rfl

lemma reads_named (hl : l.Pairwise (·.1 < ·.1)) : reads (named shape) (table l) = readAll shape l := by
  have hentries : (Shape.entries pure shape (table l).toJson).toOption = readAll shape l := by
    have hread (e : String × Json) : (do return (← pure e.1, ← shape e.2) : Except Json.Fault (String × α)).toOption
        = (shape e.2).toOption.map (e.1, ·) := by
      show (shape e.2 >>= fun a => pure (e.1, a)).toOption = _
      cases shape e.2 <;> rfl
    rw [toJson_table, Shape.entries, toOption_mapM, List.mapM_map, readAll]
    exact congrArg (List.mapM · l) (funext fun e => hread (e.1, e.2.toJson))
  have hnamed : reads (named shape) (table l)
      = ((Shape.entries pure shape (table l).toJson).toOption).map fun m =>
          m.foldl (fun acc x => insertNamed x.1 x.2 acc) [] := by
    rw [reads, named]
    cases Shape.entries pure shape (table l).toJson <;> rfl
  rw [hnamed, hentries]
  cases hread : readAll shape l with
  | none => rfl
  | some m =>
    have hm : (([] : List (String × α)) ++ m).Pairwise (·.1 < ·.1) := sorted_readAll hl hread
    rw [Option.map_some, foldl_insertNamed hm, List.nil_append]

end Named

end Switchboard.Settings
