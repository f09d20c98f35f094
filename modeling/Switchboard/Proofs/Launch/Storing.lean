import Switchboard.Proofs.Breakpoint.Invariant
import Switchboard.Proofs.Debug.Stored

/-!
# Launch catalogs in files

* `Catalog.entries_ofList`: configurations in order of their ids are taken in as they are, all of them saved;
* `Catalog.Storable`: a catalog all of whose configurations can be written;
* `Catalog.edit_cases`, `commit_cases`: what an edit and a commit do;
* `Storable.add`, `edit`, `commit`, `save`, `delete`: operations keep it, and which of them leave alone what is saved.
-/

namespace Switchboard.Debug.Launch

/-! ## Attributes -/

lemma ordered_setAttribute {l : Launch} (h : Ordered l.attributes) (a : Attribute) (v : String) :
    Ordered (l.setAttribute a v).attributes := by
  unfold setAttribute
  split
  · exact List.Pairwise.filter _ h
  · exact inserts_attributes.pairwise (a, v) h

/-- A change of a configuration that leaves its id, whether it is saved, and the order of its attributes. -/
structure Mild (f : Launch → Launch) : Prop where
  id : ∀ l, (f l).id = l.id
  saved : ∀ l, (f l).saved = l.saved
  attributes : ∀ l, Ordered l.attributes → Ordered (f l).attributes

lemma mild_apply (e : Editing.LaunchEdit) : Mild e.apply := by
  have hfold : ∀ (changes : List (Attribute × String)) (l : Launch),
      let r := changes.foldl (fun l x => l.setAttribute x.1 x.2) l
      r.id = l.id ∧ r.saved = l.saved ∧ (Ordered l.attributes → Ordered r.attributes) := by
    intro changes
    induction changes with
    | nil => exact fun l => ⟨rfl, rfl, fun h => h⟩
    | cons x rest ih =>
      intro l
      have hset : (l.setAttribute x.1 x.2).id = l.id ∧ (l.setAttribute x.1 x.2).saved = l.saved := by
        unfold setAttribute
        split
        · exact ⟨rfl, rfl⟩
        · exact ⟨rfl, rfl⟩
      obtain ⟨hid, hsaved, hordered⟩ := ih (l.setAttribute x.1 x.2)
      exact ⟨hid.trans hset.1, hsaved.trans hset.2, fun h => hordered (ordered_setAttribute h x.1 x.2)⟩
  refine ⟨?_, ?_, ?_⟩
  · intro l
    exact (hfold e.attributes _).1
  · intro l
    exact (hfold e.attributes _).2.1
  · intro l h
    exact (hfold e.attributes _).2.2 h

namespace Catalog

/-! ## Taking in what was stored -/

/-- Configurations are put in by their ids. -/
lemma inserts : Keyed.Inserts Launch.id insertOrdered where
  nil _ := rfl
  before hlt := if_pos hlt
  instead heq := by rw [insertOrdered, if_neg heq.not_lt, if_pos heq]
  after hgt := by rw [insertOrdered, if_neg (lt_asymm hgt), if_neg hgt.ne']

lemma get?_eq_none {c : Catalog} {id : Nat} (h : ∀ l ∈ c.entries, l.id < id) : c.get? id = none := by
  rw [get?, List.find?_eq_none]
  intro l hl heq
  have hlt := h l hl
  have hid : l.id = id := by simpa using heq
  omega

/-- Configurations in order of their ids are taken in as they are, all of them saved. -/
theorem entries_ofList {stored : List Launch} (h : stored.Pairwise (·.id < ·.id)) :
    (ofList stored).entries = stored.map (fun l => { l with saved := true }) ∧ (ofList stored).working = [] := by
  have hfold : ∀ (rest : List Launch) (c : Catalog), (c.entries ++ rest).Pairwise (·.id < ·.id) →
      (rest.foldl restore c).entries = c.entries ++ rest.map (fun l => { l with saved := true }) ∧
        (rest.foldl restore c).working = c.working := by
    intro rest
    induction rest with
    | nil =>
      intro c _
      exact ⟨(List.append_nil _).symm, rfl⟩
    | cons l rest ih =>
      intro c hordered
      have hid : ∀ x ∈ c.entries, x.id < l.id :=
        fun x hx => (List.pairwise_append.mp hordered).2.2 x hx l List.mem_cons_self
      have hget : c.get? l.id = none := get?_eq_none hid
      have hentries : (c.restore l).entries = c.entries ++ [{ l with saved := true }] := by
        rw [← inserts.last (x := { l with saved := true }) hid]
        simp [restore, hget]
      have hworking : (c.restore l).working = c.working := by simp [restore, hget]
      have hnext : ((c.restore l).entries ++ rest).Pairwise (·.id < ·.id) := by
        rw [hentries, List.append_assoc]
        rw [← List.pairwise_map (f := Launch.id) (R := (· < ·))] at hordered ⊢
        simpa using hordered
      obtain ⟨hrest, hkept⟩ := ih (c.restore l) hnext
      rw [List.foldl_cons]
      refine ⟨?_, hkept.trans hworking⟩
      rw [hrest, hentries, List.append_assoc]
      rfl
  exact hfold stored {} h

/-! ## Single steps -/

section Steps

variable {c d : Catalog} {id : Nat} {l : Launch}

lemma mem_of_lookup {copy : Launch} (h : c.working.lookup id = some copy) : (id, copy) ∈ c.working := by
  obtain ⟨before, after, heq, -⟩ := List.lookup_eq_some_iff.mp h
  rw [heq]
  exact List.mem_append_right _ List.mem_cons_self

lemma get?_of_require (h : c.require id = .ok l) : c.get? id = some l := by
  unfold require at h
  split at h
  · next found hget => exact (Except.ok.inj h) ▸ hget
  · cases h

/-- A configuration that is not saved is its own working copy; one that is saved has another one. -/
lemma workingCopy_cases {copy : Launch} (h : c.workingCopy id = .ok (copy, d)) :
    ∃ found, c.get? id = some found ∧ (found.saved = false ∧ copy = found ∧ d = c ∨
      found.saved = true ∧ (copy ∈ c.entries ∨ (id, copy) ∈ c.working) ∧ ∃ working, d = { c with working } ∧
        working.any (·.1 = id) = true ∧ ∀ x ∈ working, x.1 = id ∨ x ∈ c.working) := by
  unfold workingCopy at h
  obtain ⟨found, hrequire, h⟩ := Breakpoint.ok_of_bind_eq_ok h
  have hget := get?_of_require hrequire
  refine ⟨found, hget, ?_⟩
  cases hsaved : found.saved with
  | false =>
    rw [hsaved] at h
    obtain ⟨rfl, rfl⟩ := Prod.mk.inj (Except.ok.inj h)
    exact .inl ⟨rfl, rfl, rfl⟩
  | true =>
    rw [hsaved, if_neg (show ¬ (!true) = true by decide)] at h
    cases hlookup : c.working.lookup id with
    | some known =>
      rw [hlookup] at h
      obtain ⟨rfl, rfl⟩ := Prod.mk.inj (Except.ok.inj h)
      have hmem := mem_of_lookup hlookup
      exact .inr ⟨rfl, .inr hmem, c.working, rfl, List.any_eq_true.mpr ⟨_, hmem, by simp⟩, fun x hx => .inr hx⟩
    | none =>
      rw [hlookup] at h
      obtain ⟨rfl, rfl⟩ := Prod.mk.inj (Except.ok.inj h)
      refine .inr ⟨rfl, .inl (List.mem_of_find?_eq_some hget), _, rfl, by simp, ?_⟩
      intro x hx
      rcases List.mem_append.mp hx with hx | hx
      · exact .inr hx
      · exact .inl (congrArg Prod.fst (List.mem_singleton.mp hx))

/-- An edit changes a configuration that is not saved, or else its working copy alone. -/
lemma edit_cases {f : Launch → Launch} {w : Launch} (h : c.edit id f = .ok (w, d)) :
    (∃ found, c.get? id = some found ∧ found.saved = false ∧ d = c.modify id fun _ => f found) ∨
      ∃ copy working, (copy ∈ c.entries ∨ (id, copy) ∈ c.working) ∧ d = { c with working } ∧
        ∀ x ∈ working, x ∈ c.working ∨ x.2 = f copy := by
  unfold edit at h
  obtain ⟨⟨copy, c'⟩, hcopy, hedit⟩ := Breakpoint.ok_of_bind_eq_ok h
  dsimp only at hedit
  obtain ⟨found, hget, ⟨hsaved, rfl, rfl⟩ | ⟨hsaved, hmem, working, rfl, hany, hknown⟩⟩ := workingCopy_cases hcopy
  · have hnot : ¬ (c'.working.any (·.1 = id) ∧ ((c'.get? id).map (·.saved)).getD false) := by
      rw [hget]
      simp [hsaved]
    rw [if_neg hnot] at hedit
    obtain ⟨rfl, rfl⟩ := Prod.mk.inj (Except.ok.inj hedit)
    exact .inl ⟨copy, hget, hsaved, rfl⟩
  · have hthere : working.any (·.1 = id) ∧ ((({ c with working } : Catalog).get? id).map (·.saved)).getD false := by
      refine ⟨hany, ?_⟩
      show ((c.get? id).map (·.saved)).getD false = true
      rw [hget]
      exact hsaved
    rw [if_pos hthere] at hedit
    obtain ⟨rfl, rfl⟩ := Prod.mk.inj (Except.ok.inj hedit)
    refine .inr ⟨copy, _, hmem, rfl, ?_⟩
    intro x hx
    obtain ⟨y, hy, rfl⟩ := List.mem_map.mp hx
    split
    · exact .inr rfl
    · next hne => exact .inl ((hknown y hy).resolve_left hne)

/-- A commit folds the working copy into its configuration, if there is one. -/
lemma commit_cases {committed : Bool} (h : c.commit id = .ok (committed, d)) :
    (committed = false ∧ d = c) ∨ (committed = true ∧ ∃ copy, (id, copy) ∈ c.working ∧
      d = { c with working := c.working.filter (·.1 ≠ id) }.modify id fun l => fold l copy) := by
  unfold commit at h
  obtain ⟨found, -, h⟩ := Breakpoint.ok_of_bind_eq_ok h
  cases hlookup : c.working.lookup id with
  | none =>
    rw [hlookup] at h
    obtain ⟨rfl, rfl⟩ := Prod.mk.inj (Except.ok.inj h)
    exact .inl ⟨rfl, rfl⟩
  | some copy =>
    rw [hlookup] at h
    obtain ⟨rfl, rfl⟩ := Prod.mk.inj (Except.ok.inj h)
    exact .inr ⟨rfl, copy, mem_of_lookup hlookup, rfl⟩

/-- What an editor gives of a new configuration when it has been added. -/
def filled (n : Editing.NewLaunch) (l : Launch) : Launch := { l with type := n.type, attributes := n.attributes }

/-- A configuration is created by adding one, filling it, and perhaps saving it. -/
lemma createIn_cases {n : Editing.NewLaunch} (h : Editing.createIn n c = .ok (l, d)) :
    let added := c.create n.name n.language n.project n.mode
    ∃ edited e, added.2.edit added.1 (filled n) = .ok (edited, e) ∧
      (n.save = false ∧ (l, d) = (edited, e) ∨
        n.save = true ∧ e.save added.1 = .ok d ∧ l = (d.get? added.1).getD edited) := by
  intro added
  have heq : ∀ made, c.create n.name n.language n.project n.mode = made →
      Editing.createIn n c = if Text.trim n.name = "" then .error .namelessLaunch else
        made.2.edit made.1 (filled n) >>= fun r =>
          if n.save then r.2.save made.1 >>= fun e => .ok ((e.get? made.1).getD r.1, e) else .ok r := by
    intro made hmade
    unfold Editing.createIn
    rw [hmade]
    by_cases hname : Text.trim n.name = ""
    · rw [if_pos hname, if_pos hname]
      rfl
    · rw [if_neg hname, if_neg hname]
      rfl
  rw [heq added rfl] at h
  split at h
  · cases h
  · obtain ⟨⟨edited, e⟩, hedit, h⟩ := Breakpoint.ok_of_bind_eq_ok h
    refine ⟨edited, e, hedit, ?_⟩
    cases hsave : n.save with
    | false =>
      rw [hsave, if_neg Bool.false_ne_true] at h
      exact .inl ⟨rfl, (Except.ok.inj h).symm⟩
    | true =>
      rw [hsave, if_pos rfl] at h
      obtain ⟨e', hsaving, h⟩ := Breakpoint.ok_of_bind_eq_ok h
      obtain ⟨hl, rfl⟩ := Prod.mk.inj (Except.ok.inj h)
      exact .inr ⟨rfl, hsaving, hl.symm⟩

/-- A change of configurations that are not saved, neither before nor after. -/
lemma saved_modify {g : Launch → Launch} (h : ∀ l ∈ c.entries, l.id = id → l.saved = false ∧ (g l).saved = false) :
    (c.modify id g).saved = c.saved := by
  unfold saved modify
  dsimp only
  generalize c.entries = entries at h
  induction entries with
  | nil => rfl
  | cons l rest ih =>
    have hrest := ih fun x hx => h x (List.mem_cons_of_mem _ hx)
    rw [List.map_cons]
    split
    · next hid =>
      obtain ⟨hbefore, hafter⟩ := h l List.mem_cons_self hid
      rw [List.filter_cons_of_neg (by simp [hafter]), List.filter_cons_of_neg (by simp [hbefore]), hrest]
    · rw [List.filter_cons, List.filter_cons, hrest]

end Steps

/-! ## Catalogs that can be written -/

/-- A catalog all of whose configurations can be written. -/
structure Storable (c : Catalog) : Prop where
  ordered : c.entries.Pairwise (·.id < ·.id)
  below : ∀ l ∈ c.entries, l.id < c.nextId
  counts : c.nextId < idLimit
  attributes : ∀ l ∈ c.entries, Ordered l.attributes
  working : ∀ x ∈ c.working, Ordered x.2.attributes

lemma storable_empty : Storable {} where
  ordered := .nil
  below := fun _ hl => absurd hl List.not_mem_nil
  counts := by decide
  attributes := fun _ hl => absurd hl List.not_mem_nil
  working := fun _ hx => absurd hx List.not_mem_nil

namespace Storable

variable {c d : Catalog} {id : Nat}

/-- What is saved can be written. -/
lemma fits (h : Storable c) : ∀ l ∈ c.saved, l.Fits := by
  intro l hl
  have hmem : l ∈ c.entries := List.mem_of_mem_filter hl
  have hlimit : idLimit = 0xFFFFFFFFFFFFFFFF + 1 := rfl
  have hlt := h.below l hmem
  have hcounts := h.counts
  exact ⟨by omega, h.attributes l hmem⟩

/-- What is saved is what a new catalog takes in. -/
theorem ofList_saved (h : Storable c) :
    (ofList (c.saved.map stored)).entries = c.saved ∧ (ofList (c.saved.map stored)).working = [] := by
  have hordered : (c.saved.map stored).Pairwise (·.id < ·.id) := List.pairwise_map.mpr (h.ordered.filter _)
  obtain ⟨hentries, hworking⟩ := entries_ofList hordered
  refine ⟨?_, hworking⟩
  rw [hentries, List.map_map]
  refine (List.map_congr_left ?_).trans (List.map_id c.saved)
  intro l hl
  have hsaved : l.saved = true := by simpa using (List.mem_filter.mp hl).2
  show { l with saved := true } = l
  rw [← hsaved]

lemma eq_of_get? (h : Storable c) {l found : Launch} (hget : c.get? id = some found) (hl : l ∈ c.entries)
    (hid : l.id = id) : l = found := by
  have hnodup : (c.entries.map (·.id)).Nodup := List.pairwise_map.mpr (h.ordered.imp fun hlt => Nat.ne_of_lt hlt)
  have hfound : found.id = id := by simpa using List.find?_some hget
  exact List.inj_on_of_nodup_map hnodup hl (List.mem_of_find?_eq_some hget) (hid.trans hfound.symm)

/-- Changed configurations keep their ids and the order of their attributes. -/
lemma modify {g : Launch → Launch} (h : Storable c) (hid : ∀ l ∈ c.entries, l.id = id → (g l).id = id)
    (hattributes : ∀ l ∈ c.entries, l.id = id → Ordered (g l).attributes) : Storable (c.modify id g) := by
  have hids : ∀ l ∈ c.entries, (if l.id = id then g l else l).id = l.id := by
    intro l hl
    split
    · next heq => rw [hid l hl heq, heq]
    · rfl
  refine ⟨?_, ?_, h.counts, ?_, h.working⟩
  · refine List.pairwise_map.mpr (h.ordered.imp_of_mem ?_)
    intro a b ha hb hlt
    rw [hids a ha, hids b hb]
    exact hlt
  · intro x hx
    obtain ⟨l, hl, rfl⟩ := List.mem_map.mp hx
    rw [hids l hl]
    exact h.below l hl
  · intro x hx
    obtain ⟨l, hl, rfl⟩ := List.mem_map.mp hx
    split
    · next heq => exact hattributes l hl heq
    · exact h.attributes l hl

/-- Working copies are others. -/
lemma withWorking (h : Storable c) {working : List (Nat × Launch)} (hworking : ∀ x ∈ working, Ordered x.2.attributes) :
    Storable { c with working } :=
  ⟨h.ordered, h.below, h.counts, h.attributes, hworking⟩

/-- A new configuration comes last; one that is not saved leaves what is. -/
lemma add (h : Storable c) (hroom : c.nextId + 1 < idLimit) (make : Nat → Launch) (hid : (make c.nextId).id = c.nextId)
    (hattributes : Ordered (make c.nextId).attributes) :
    Storable (c.add make).2 ∧ ((make c.nextId).saved = false → (c.add make).2.saved = c.saved) := by
  have hlast : (c.add make).2.entries = c.entries ++ [make c.nextId] := by
    refine inserts.last ?_
    intro x hx
    rw [hid]
    exact h.below x hx
  have hnext : (c.add make).2.nextId = c.nextId + 1 := Nat.mod_eq_of_lt hroom
  refine ⟨⟨?_, ?_, ?_, ?_, h.working⟩, ?_⟩
  · rw [hlast, List.pairwise_append]
    refine ⟨h.ordered, List.pairwise_singleton _ _, ?_⟩
    intro x hx y hy
    obtain rfl := List.mem_singleton.mp hy
    rw [hid]
    exact h.below x hx
  · intro x hx
    rw [hlast] at hx
    rw [hnext]
    rcases List.mem_append.mp hx with hx | hx
    · exact Nat.lt_succ_of_lt (h.below x hx)
    · obtain rfl := List.mem_singleton.mp hx
      rw [hid]
      exact Nat.lt_succ_self _
  · rw [hnext]
    exact hroom
  · intro x hx
    rw [hlast] at hx
    rcases List.mem_append.mp hx with hx | hx
    · exact h.attributes x hx
    · obtain rfl := List.mem_singleton.mp hx
      exact hattributes
  · intro hsaved
    rw [saved, hlast, List.filter_append, List.filter_cons_of_neg (by simp [hsaved])]
    exact List.append_nil _

/-- An edit leaves what is saved. -/
lemma edit (h : Storable c) {f : Launch → Launch} (hf : Mild f) {w : Launch} (hedit : c.edit id f = .ok (w, d)) :
    Storable d ∧ d.saved = c.saved := by
  rcases edit_cases hedit with ⟨found, hget, hunsaved, rfl⟩ | ⟨copy, working, hcopy, rfl, hworking⟩
  · have hfound : found.id = id := by simpa using List.find?_some hget
    constructor
    · refine h.modify ?_ ?_
      · intro _ _ _
        rw [hf.id, hfound]
      · intro _ _ _
        exact hf.attributes found (h.attributes found (List.mem_of_find?_eq_some hget))
    · refine saved_modify ?_
      intro l hl hid
      obtain rfl := h.eq_of_get? hget hl hid
      exact ⟨hunsaved, (hf.saved l).trans hunsaved⟩
  · have hordered : Ordered copy.attributes := by
      rcases hcopy with hcopy | hcopy
      · exact h.attributes copy hcopy
      · exact h.working _ hcopy
    refine ⟨h.withWorking ?_, rfl⟩
    intro x hx
    rcases hworking x hx with hx | hx
    · exact h.working x hx
    · rw [hx]
      exact hf.attributes copy hordered

/-- A commit that finds no working copy changes nothing. -/
lemma commit (h : Storable c) {committed : Bool} (hcommit : c.commit id = .ok (committed, d)) :
    Storable d ∧ (committed = false → d = c) := by
  rcases commit_cases hcommit with ⟨hnot, rfl⟩ | ⟨rfl, copy, hcopy, rfl⟩
  · exact ⟨h, fun _ => rfl⟩
  · refine ⟨?_, nofun⟩
    refine Storable.modify (h.withWorking ?_) ?_ ?_
    · intro x hx
      exact h.working x (List.mem_of_mem_filter hx)
    · intro _ _ hid
      exact hid
    · intro _ _ _
      exact h.working _ hcopy

lemma save (h : Storable c) (hsave : c.save id = .ok d) : Storable d := by
  unfold Catalog.save at hsave
  obtain ⟨⟨committed, e⟩, hcommit, hsave⟩ := Breakpoint.ok_of_bind_eq_ok hsave
  obtain rfl := Except.ok.inj hsave
  have hstorable := (h.commit hcommit).1
  exact hstorable.modify (fun _ _ hid => hid) fun l hl _ => hstorable.attributes l hl

lemma clone (h : Storable c) (hroom : c.nextId + 1 < idLimit) {copy : Nat} (hclone : c.clone id = .ok (copy, d)) :
    Storable d := by
  unfold Catalog.clone at hclone
  obtain ⟨source, hsource, hclone⟩ := Breakpoint.ok_of_bind_eq_ok hclone
  have hmem := List.mem_of_find?_eq_some (get?_of_require hsource)
  have hadd := h.add hroom (fun id => { source with id, name := source.name ++ " (copy)", saved := true }) rfl
    (h.attributes source hmem)
  rw [← (Prod.mk.inj (Except.ok.inj hclone)).2]
  exact hadd.1

/-- A configuration that is created without being saved leaves what is. -/
lemma createIn (h : Storable c) (hroom : c.nextId + 1 < idLimit) {n : Editing.NewLaunch} (hn : Ordered n.attributes)
    {l : Launch} (hcreate : Editing.createIn n c = .ok (l, d)) : Storable d ∧ (n.save = false → d.saved = c.saved) := by
  have hmild : Mild (filled n) := ⟨fun _ => rfl, fun _ => rfl, fun _ _ => hn⟩
  obtain ⟨hadded, hsame⟩ := h.add hroom
    (fun id => { id, name := n.name, language := n.language, mode := n.mode, project := n.project }) rfl .nil
  obtain ⟨edited, e, hedit, hrest⟩ := createIn_cases hcreate
  obtain ⟨hedited, hsaved⟩ := hadded.edit hmild hedit
  rcases hrest with ⟨-, hunsaved⟩ | ⟨hsave, hsaving, -⟩
  · obtain ⟨-, rfl⟩ := Prod.mk.inj hunsaved
    exact ⟨hedited, fun _ => hsaved.trans (hsame rfl)⟩
  · refine ⟨hedited.save hsaving, ?_⟩
    intro hnot
    rw [hsave] at hnot
    cases hnot

/-- To delete what is not there leaves what is saved. -/
lemma delete (h : Storable c) (id : Nat) :
    Storable (c.delete id).2 ∧ (∀ e, (c.delete id).1 = .error e → (c.delete id).2.saved = c.saved) := by
  have hworking : Storable { c with working := c.working.filter (·.1 ≠ id) } :=
    h.withWorking fun x hx => h.working x (List.mem_of_mem_filter hx)
  unfold Catalog.delete
  dsimp only
  split
  · refine ⟨⟨h.ordered.filter _, ?_, h.counts, ?_, hworking.working⟩, fun _ herror => nomatch herror⟩
    · intro l hl
      exact h.below l (List.mem_of_mem_filter hl)
    · intro l hl
      exact h.attributes l (List.mem_of_mem_filter hl)
  · exact ⟨hworking, fun _ _ => rfl⟩

end Storable

end Catalog

end Switchboard.Debug.Launch
