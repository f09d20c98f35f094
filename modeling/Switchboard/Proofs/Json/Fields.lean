import Switchboard.Json.Shape
import Mathlib

/-!
# Records read back

* `lookup_present`: what is under a key of a record some of whose members are left out;
* `Members`: what a value has under the names of fields;
* `Fields.Honest`: a record that is built from values is built from values that its fields take;
* `Fields.ofMembers_of_build`: members without a repeated key are read as the record that is built from them;
* `Fields.Builds`: what a record is built as, field by field;
* `Fields.shape_eq_ok_iff`: which values are read as a record;
* `Shape.list_map`: a list of values that read back.
-/

namespace Switchboard.Json

/-! ## Members that are left out -/

/-- The members with a value. -/
def present (members : List (String × Option Json)) : List (String × Json) :=
  members.filterMap fun m => m.2.map (m.1, ·)

lemma keys_present (members : List (String × Option Json)) :
    (present members).map (·.1) = (members.filter (·.2.isSome)).map (·.1) := by
  induction members with
  | nil => rfl
  | cons m rest ih =>
    obtain ⟨k, v⟩ := m
    cases v with
    | none => exact ih
    | some v => exact congrArg (k :: ·) ih

/-- No key is there twice. -/
lemma nodup_present {members : List (String × Option Json)} (h : (members.map (·.1)).Nodup) :
    ((present members).map (·.1)).Nodup := by
  rw [keys_present]
  exact (List.filter_sublist.map _).nodup h

lemma lookup_eq_none {α : Type} {members : List (String × α)} {k : String} (h : k ∉ members.map (·.1)) :
    members.lookup k = none := by
  rw [List.lookup_eq_none_iff]
  intro m hm
  have hne : k ≠ m.1 := fun heq => h (heq ▸ List.mem_map_of_mem hm)
  simpa using hne

lemma lookup_present {members : List (String × Option Json)} (h : (members.map (·.1)).Nodup) (k : String) :
    (present members).lookup k = (members.lookup k).join := by
  induction members with
  | nil => rfl
  | cons m rest ih =>
    obtain ⟨key, v⟩ := m
    obtain ⟨hnot, hrest⟩ := List.nodup_cons.mp h
    have ih := ih hrest
    by_cases hk : k = key
    · subst hk
      cases v with
      | none =>
        have hmissing : k ∉ (present rest).map (·.1) := by
          rw [keys_present]
          exact fun hk => hnot ((List.filter_sublist.map _).subset hk)
        show (present rest).lookup k = _
        rw [lookup_eq_none hmissing, List.lookup_cons_self]
        rfl
      | some v =>
        show ((k, v) :: present rest).lookup k = _
        rw [List.lookup_cons_self, List.lookup_cons_self]
        rfl
    · have hbeq : (k == key) = false := by simpa using hk
      have hskip : ((key, v) :: rest).lookup k = rest.lookup k := by rw [List.lookup_cons, hbeq]
      rw [hskip, ← ih]
      cases v with
      | none => rfl
      | some v =>
        show ((key, v) :: present rest).lookup k = _
        rw [List.lookup_cons, hbeq]

/-- Members are chosen by their keys before some are left out, or after that. -/
lemma filter_present (p : String → Bool) (members : List (String × Option Json)) :
    (present members).filter (fun m => p m.1) = present (members.filter fun m => p m.1) := by
  induction members with
  | nil => rfl
  | cons m rest ih =>
    obtain ⟨k, v⟩ := m
    rw [List.filter_cons]
    cases v with
    | none =>
      have hnone : present ((k, none) :: rest) = present rest := rfl
      rw [hnone, ih]
      split
      · rfl
      · rfl
    | some v =>
      have hsome : present ((k, some v) :: rest) = (k, v) :: present rest := rfl
      rw [hsome, List.filter_cons, ih]
      split
      · rfl
      · rfl

/-! ## Records -/

/-- What a field takes: a value that passes its check, or no value if an array may end before it. -/
def Field.Takes (f : Field) : Option Json → Prop
  | some v => f.check v = .ok ()
  | none => f.optional = true

/-- What a value has under names: an object has its members, none of them twice, and an array its elements in the order of
the names. -/
inductive Members (names : List String) : Json → (String → Option Json) → Prop
  | obj {members : List (String × Json)} (hkeys : ((members.map (·.1)).filter (· ∈ names)).Nodup) :
    Members names (.obj members) (members.lookup ·)
  | arr {items : List Json} (hlength : items.length ≤ names.length) :
    Members names (.arr items) ((names.zip items).lookup ·)

lemma lookup_of_mem {names : List String} {members : List (String × Json)}
    (hkeys : ((members.map (·.1)).filter (· ∈ names)).Nodup) {m : String × Json} (hm : m ∈ members)
    (hname : m.1 ∈ names) : members.lookup m.1 = some m.2 := by
  obtain ⟨before, after, rfl⟩ := List.append_of_mem hm
  have hbefore : m.1 ∉ before.map (·.1) := by
    intro hmem
    rw [List.map_append, List.map_cons, List.filter_append] at hkeys
    have hleft : m.1 ∈ (before.map (·.1)).filter (· ∈ names) := List.mem_filter.mpr ⟨hmem, decide_eq_true hname⟩
    have hright : m.1 ∈ (m.1 :: after.map (·.1)).filter (· ∈ names) :=
      List.mem_filter.mpr ⟨List.mem_cons_self, decide_eq_true hname⟩
    exact (List.nodup_append.mp hkeys).2.2 _ hleft _ hright rfl
  rw [List.lookup_append, lookup_eq_none hbefore, Option.none_or]
  exact List.lookup_cons_self

namespace Fields

variable {α β : Type}

/-- The names of the fields. -/
def names (r : Fields α) : List String := r.fields.map (·.name)

/-- What a record is built from is taken by its fields. -/
def Honest (r : Fields α) : Prop :=
  ∀ get a, r.build get = .ok a → ∀ f ∈ r.fields, f.Takes (get f.name)

lemma check_of_ok {shape : Shape α} {v : Json} {a : α} (h : shape v = .ok a) :
    (do let _ ← shape v : Except Fault Unit) = .ok () := by
  rw [h]
  rfl

lemma honest_field (name : String) (shape : Shape α) : (field name shape).Honest := by
  intro get a hbuild f hf
  obtain rfl := List.mem_singleton.mp hf
  simp only [field] at hbuild ⊢
  cases hget : get name with
  | none =>
    rw [hget] at hbuild
    cases hbuild
  | some v =>
    rw [hget] at hbuild
    exact check_of_ok hbuild

lemma honest_fieldD (name : String) (shape : Shape α) (default : α) : (fieldD name shape default).Honest := by
  intro get a hbuild f hf
  obtain rfl := List.mem_singleton.mp hf
  simp only [fieldD] at hbuild ⊢
  cases hget : get name with
  | none => rfl
  | some v =>
    rw [hget] at hbuild
    exact check_of_ok hbuild

lemma honest_fieldD? (name : String) (shape : Shape α) : (fieldD? name shape).Honest :=
  honest_fieldD name (Shape.nullable shape) none

lemma Honest.map {r : Fields α} (h : r.Honest) (f : α → β) : (f <$> r).Honest := by
  intro get b hbuild
  replace hbuild : f <$> r.build get = .ok b := hbuild
  cases hr : r.build get with
  | error e =>
    rw [hr] at hbuild
    cases hbuild
  | ok a => exact h get a hr

lemma Honest.seq {f : Fields (α → β)} {r : Fields α} (hf : f.Honest) (hr : r.Honest) : (f <*> r).Honest := by
  intro get b hbuild g hg
  replace hbuild : (do
    let g ← f.build get
    let a ← r.build get
    return g a : Except Fault β) = .ok b := hbuild
  cases hfirst : f.build get with
  | error e =>
    rw [hfirst] at hbuild
    cases hbuild
  | ok first =>
    cases hsecond : r.build get with
    | error e =>
      rw [hfirst, hsecond] at hbuild
      cases hbuild
    | ok second =>
      rcases List.mem_append.mp hg with hg | hg
      · exact hf get first hfirst g hg
      · exact hr get second hsecond g hg

/-- Members are visited without a fault if those that fields name are there once and pass the checks. -/
lemma visit_eq_ok_iff {fields : List Field} {members : List (String × Json)} {seen : List String} :
    visit fields members seen = .ok () ↔
      ((members.map (·.1)).filter (· ∈ fields.map (·.name))).Nodup ∧
        ∀ m ∈ members, ∀ f, fields.find? (·.name == m.1) = some f → m.1 ∉ seen ∧ f.check m.2 = .ok () := by
  induction members generalizing seen with
  | nil => exact iff_of_true rfl ⟨List.nodup_nil, nofun⟩
  | cons m rest ih =>
    obtain ⟨key, v⟩ := m
    rw [List.forall_mem_cons, List.map_cons]
    unfold visit
    cases hfind : fields.find? (·.name == key) with
    | none =>
      have hunknown : key ∉ fields.map (·.name) := by
        rintro hmem
        obtain ⟨f, hf, rfl⟩ := List.mem_map.mp hmem
        simpa using List.find?_eq_none.mp hfind f hf
      rw [List.filter_cons_of_neg (by simpa using hunknown)]
      exact ih.trans (and_congr_right fun _ => (and_iff_right nofun).symm)
    | some f =>
      have hknown : key ∈ fields.map (·.name) := by
        have hname : f.name = key := by simpa using List.find?_some hfind
        exact hname ▸ List.mem_map_of_mem (List.mem_of_find?_eq_some hfind)
      rw [List.filter_cons_of_pos (by simpa using hknown), List.nodup_cons]
      by_cases hseen : key ∈ seen
      · have hcontains : seen.contains key = true := by simpa using hseen
        rw [hcontains]
        exact iff_of_false nofun fun h => (h.2.1 f rfl).1 hseen
      · have hcontains : seen.contains key = false := by simpa using hseen
        rw [hcontains]
        show (f.check v >>= fun _ => visit fields rest (key :: seen)) = .ok () ↔ _
        cases hcheck : f.check v with
        | error e => exact iff_of_false nofun fun h => nomatch hcheck.symm.trans (h.2.1 f rfl).2
        | ok u =>
          refine ih.trans ?_
          constructor
          · rintro ⟨hnodup, hrest⟩
            refine ⟨⟨fun hmem => ?_, hnodup⟩, fun g hg => ?_, fun m hm g hg => ?_⟩
            · obtain ⟨m, hm, rfl⟩ := List.mem_map.mp (List.mem_of_mem_filter hmem)
              exact (hrest m hm f hfind).1 List.mem_cons_self
            · obtain rfl := Option.some.inj hg
              exact ⟨hseen, hcheck⟩
            · obtain ⟨hnot, hok⟩ := hrest m hm g hg
              exact ⟨fun hin => hnot (List.mem_cons_of_mem _ hin), hok⟩
          · rintro ⟨⟨hnot, hnodup⟩, -, hrest⟩
            refine ⟨hnodup, fun m hm g hg => ⟨fun hin => ?_, (hrest m hm g hg).2⟩⟩
            rcases List.mem_cons.mp hin with heq | hin
            · have hmem : key ∈ rest.map (·.1) := heq ▸ List.mem_map_of_mem hm
              exact hnot (List.mem_filter.mpr ⟨hmem, decide_eq_true hknown⟩)
            · exact (hrest m hm g hg).1 hin

/-- The members of an object are read as the record that is built from them, if none that a field names is there twice. -/
lemma ofMembers_eq_ok_iff {r : Fields α} (hr : r.Honest) {members : List (String × Json)} {a : α} :
    r.ofMembers members = .ok a ↔
      ((members.map (·.1)).filter (· ∈ r.names)).Nodup ∧ r.build (members.lookup ·) = .ok a := by
  rw [ofMembers]
  cases hvisit : visit r.fields members [] with
  | error e =>
    refine iff_of_false nofun fun ⟨hkeys, hbuild⟩ => ?_
    have hok : visit r.fields members [] = .ok () := by
      refine visit_eq_ok_iff.mpr ⟨hkeys, fun m hm f hf => ⟨List.not_mem_nil, ?_⟩⟩
      have hname : f.name = m.1 := by simpa using List.find?_some hf
      have hmem : f ∈ r.fields := List.mem_of_find?_eq_some hf
      have htakes := hr _ a hbuild f hmem
      rwa [hname, lookup_of_mem hkeys hm (hname ▸ List.mem_map_of_mem hmem)] at htakes
    exact nomatch hvisit.symm.trans hok
  | ok u => exact (and_iff_right (visit_eq_ok_iff.mp hvisit).1).symm

/-- Members without a repeated key are read as the record that is built from them. -/
lemma ofMembers_of_build {r : Fields α} (hr : r.Honest) {members : List (String × Json)}
    (hkeys : (members.map (·.1)).Nodup) {a : α} (h : r.build (members.lookup ·) = .ok a) :
    r.ofMembers members = .ok a :=
  (ofMembers_eq_ok_iff hr).mpr ⟨hkeys.filter _, h⟩

/-- Elements are paired with the names of the fields. -/
lemma place_eq_ok {name : String} {count i : Nat} {fields : List Field} {items : List Json}
    {members : List (String × Json)} (h : place name count fields i items = .ok members) :
    members = (fields.map (·.name)).zip items := by
  induction fields generalizing i items members with
  | nil => exact (Except.ok.inj h).symm
  | cons f rest ih =>
    cases items with
    | nil =>
      rw [place] at h
      split at h
      · exact (ih h).trans List.zip_nil_right
      · cases h
    | cons v items =>
      rw [place] at h
      cases hcheck : f.check v with
      | error e =>
        rw [hcheck] at h
        cases h
      | ok u =>
        rw [hcheck] at h
        replace h : (do
          let rest ← place name count rest (i + 1) items
          return (f.name, v) :: rest : Except Fault (List (String × Json))) = .ok members := h
        cases hrest : place name count rest (i + 1) items with
        | error e =>
          rw [hrest] at h
          cases h
        | ok later =>
          rw [hrest] at h
          rw [← Except.ok.inj h, ih hrest]
          rfl

lemma place_of_takes {name : String} {count i : Nat} {fields : List Field} {items : List Json}
    (hnames : (fields.map (·.name)).Nodup)
    (htakes : ∀ f ∈ fields, f.Takes (((fields.map (·.name)).zip items).lookup f.name)) :
    place name count fields i items = .ok ((fields.map (·.name)).zip items) := by
  induction fields generalizing i items with
  | nil => rfl
  | cons f rest ih =>
    obtain ⟨hnot, hnames⟩ := List.nodup_cons.mp hnames
    obtain ⟨hfirst, hrest⟩ := List.forall_mem_cons.mp htakes
    cases items with
    | nil =>
      have hoptional : f.optional = true := hfirst
      rw [place, if_pos hoptional, ih hnames ?_, List.zip_nil_right, List.zip_nil_right]
      intro g hg
      rw [List.zip_nil_right]
      exact hrest g hg
    | cons v items =>
      have hcheck : f.check v = .ok () := by
        rwa [List.map_cons, List.zip_cons_cons, List.lookup_cons_self] at hfirst
      have hlater : place name count rest (i + 1) items = .ok ((rest.map (·.name)).zip items) := by
        refine ih hnames fun g hg => ?_
        have hne : (g.name == f.name) = false := by
          rw [beq_eq_false_iff_ne]
          intro heq
          have hmem : f.name ∈ rest.map (·.name) := heq ▸ List.mem_map_of_mem (f := (·.name)) hg
          exact hnot hmem
        have htakes := hrest g hg
        rwa [List.map_cons, List.zip_cons_cons, List.lookup_cons, hne] at htakes
      rw [place, hcheck]
      show (do
        let rest ← place name count rest (i + 1) items
        return (f.name, v) :: rest : Except Fault (List (String × Json))) = _
      rw [hlater]
      rfl

/-- The elements of an array are read as the record that is built from them, if there are not too many. -/
lemma ofItems_eq_ok_iff {r : Fields α} (hr : r.Honest) (hnames : r.names.Nodup) {name : String} {items : List Json}
    {a : α} : r.ofItems name items = .ok a ↔
      items.length ≤ r.names.length ∧ r.build ((r.names.zip items).lookup ·) = .ok a := by
  have hlength : r.names.length = r.fields.length := List.length_map _
  rw [ofItems]
  cases hplace : place name r.fields.length r.fields 0 items with
  | error e =>
    refine iff_of_false nofun fun ⟨_, hbuild⟩ => ?_
    have hok : place name r.fields.length r.fields 0 items = .ok (r.names.zip items) :=
      place_of_takes hnames (hr _ a hbuild)
    exact nomatch hplace.symm.trans hok
  | ok members =>
    obtain rfl := place_eq_ok hplace
    by_cases hmany : r.fields.length < items.length
    · refine iff_of_false ?_ fun h => by omega
      show ¬ (if _ then _ else _) = _
      rw [if_pos hmany]
      nofun
    · refine Iff.trans ?_ (and_iff_right (by omega)).symm
      show (if _ then _ else _) = _ ↔ _
      rw [if_neg hmany]
      rfl

/-! ## Field by field -/

/-- From these values the record is built as `a`. -/
def Builds (get : String → Option Json) (r : Fields α) (a : α) : Prop := r.build get = .ok a

section Builds

variable {get : String → Option Json}

lemma Builds.field {name : String} {shape : Shape α} {v : Json} {a : α} (hget : get name = some v)
    (hshape : shape v = .ok a) : Builds get (field name shape) a := by
  simp only [Builds, Fields.field, hget]
  exact hshape

lemma Builds.fieldD {name : String} {shape : Shape α} {default : α} {v : Json} {a : α} (hget : get name = some v)
    (hshape : shape v = .ok a) : Builds get (fieldD name shape default) a := by
  simp only [Builds, Fields.fieldD, hget]
  exact hshape

/-- A field that is left out when there is no value. -/
lemma Builds.fieldD? {name : String} {shape : Shape α} {write : α → Json} {a : Option α}
    (hget : get name = a.map write) (hshape : ∀ x, Shape.nullable shape (write x) = .ok (some x)) :
    Builds get (fieldD? name shape) a := by
  cases a with
  | none =>
    have hnone : get name = none := hget
    simp only [Builds, Fields.fieldD?, Fields.fieldD, hnone]
    rfl
  | some x => exact .fieldD hget (hshape x)

lemma Builds.map {r : Fields α} {a : α} (h : Builds get r a) (f : α → β) : Builds get (f <$> r) (f a) := by
  show f <$> r.build get = .ok (f a)
  rw [show r.build get = .ok a from h]
  rfl

lemma Builds.seq {f : Fields (α → β)} {r : Fields α} {g : α → β} {a : α} (hf : Builds get f g) (hr : Builds get r a) :
    Builds get (f <*> r) (g a) := by
  show (do
    let g ← f.build get
    let a ← r.build get
    return g a : Except Fault β) = .ok (g a)
  rw [show f.build get = .ok g from hf, show r.build get = .ok a from hr]
  rfl

lemma builds_field {name : String} {shape : Shape α} {a : α} :
    Builds get (field name shape) a ↔ ∃ v, get name = some v ∧ shape v = .ok a := by
  refine ⟨fun h => ?_, fun ⟨v, hget, hshape⟩ => .field hget hshape⟩
  simp only [Builds, Fields.field] at h
  split at h
  · next v hget => exact ⟨v, hget, h⟩
  · cases h

lemma builds_fieldD? {name : String} {shape : Shape α} {a : Option α} :
    Builds get (Fields.fieldD? name shape) a ↔ Shape.nullable shape ((get name).getD .null) = .ok a := by
  simp only [Builds, Fields.fieldD?, Fields.fieldD]
  cases get name with
  | none => rfl
  | some v => rfl

lemma builds_map {r : Fields α} {f : α → β} {b : β} : Builds get (f <$> r) b ↔ ∃ a, Builds get r a ∧ f a = b := by
  refine ⟨fun h => ?_, fun ⟨a, ha, hb⟩ => hb ▸ ha.map f⟩
  replace h : f <$> r.build get = .ok b := h
  cases ha : r.build get with
  | error e =>
    rw [ha] at h
    cases h
  | ok a =>
    rw [ha] at h
    exact ⟨a, ha, Except.ok.inj h⟩

lemma builds_seq {f : Fields (α → β)} {r : Fields α} {b : β} :
    Builds get (f <*> r) b ↔ ∃ g a, Builds get f g ∧ Builds get r a ∧ g a = b := by
  refine ⟨fun h => ?_, fun ⟨g, a, hg, ha, hb⟩ => hb ▸ hg.seq ha⟩
  replace h : (do
    let g ← f.build get
    let a ← r.build get
    return g a : Except Fault β) = .ok b := h
  cases hg : f.build get with
  | error e =>
    rw [hg] at h
    cases h
  | ok g =>
    cases ha : r.build get with
    | error e =>
      rw [hg, ha] at h
      cases h
    | ok a =>
      rw [hg, ha] at h
      exact ⟨g, a, hg, ha, Except.ok.inj h⟩

/-- A value is read as what is built from its members, and is refused if nothing is. -/
lemma shape_eq_ok_iff {r : Fields α} (hr : r.Honest) (hnames : r.names.Nodup) {name : String} {v : Json} {a : α} :
    r.shape name v = .ok a ↔ ∃ get, Members r.names v get ∧ Builds get r a := by
  cases v with
  | obj members =>
    refine (ofMembers_eq_ok_iff hr).trans ⟨fun ⟨hkeys, hbuild⟩ => ⟨_, .obj hkeys, hbuild⟩, ?_⟩
    rintro ⟨_, ⟨hkeys⟩, hbuild⟩
    exact ⟨hkeys, hbuild⟩
  | arr items =>
    refine (ofItems_eq_ok_iff hr hnames).trans ⟨fun ⟨hlength, hbuild⟩ => ⟨_, .arr hlength, hbuild⟩, ?_⟩
    rintro ⟨_, ⟨⟩ | ⟨hlength⟩, hbuild⟩
    exact ⟨hlength, hbuild⟩
  | _ =>
    refine iff_of_false nofun ?_
    rintro ⟨_, ⟨⟩, _⟩

end Builds

end Fields

/-! ## Lists -/

/-- A list of values that read back as others. -/
lemma Shape.list_map {α β : Type} {shape : Shape β} {write : α → Json} {back : α → β} {l : List α}
    (h : ∀ x ∈ l, shape (write x) = .ok (back x)) : Shape.list shape (.arr (l.map write)) = .ok (l.map back) := by
  show (l.map write).mapM shape = _
  induction l with
  | nil => rfl
  | cons x rest ih =>
    have hrest := ih fun y hy => h y (List.mem_cons_of_mem x hy)
    rw [List.map_cons, List.mapM_cons, h x List.mem_cons_self, hrest]
    rfl

end Switchboard.Json
