import Switchboard.Proofs.Launch.Storing

/-!
# Working copies apart from what is stored

A catalog is read id by id: under every id there is a configuration, a working copy of it, both or neither.

* `Operation`, `run`: operations on the catalog of what was stored, whether they succeed or fail;
* `contents_apply`: every operation changes what is under one id alone, and `Operation.leaves` is what it leaves there;
* `Kept`: ids are in order and below the counter, and there are working copies of saved configurations alone;
* `stays_apart`: what every operation of every run does to configurations and to working copies.
-/

namespace Switchboard.Debug.Launch

namespace Catalog

/-- The working copy of an id, if one was begun. -/
def pending? (c : Catalog) (id : Nat) : Option Launch := c.working.lookup id

/-- What there is under an id: the configuration and its working copy. -/
def contents (c : Catalog) (id : Nat) : Option Launch × Option Launch := (c.get? id, c.pending? id)

/-! ## Reading a catalog id by id -/

section Reading

variable {c : Catalog} {id : Nat} {l : Launch}

lemma id_of_get? (h : c.get? id = some l) : l.id = id := by
  simpa using List.find?_some h

lemma require_of_get? (h : c.get? id = some l) : c.require id = .ok l := by
  unfold require
  rw [h]
  rfl

lemma require_of_none (h : c.get? id = none) : c.require id = .error (.unknownLaunch id) := by
  unfold require
  rw [h]
  rfl

lemma get?_add {make : Nat → Launch} (hmake : (make c.nextId).id = c.nextId) :
    (c.add make).2.get? = Function.update c.get? c.nextId (some (make c.nextId)) := by
  funext id
  show (insertOrdered (make c.nextId) c.entries).find? (·.id = id) = _
  rw [inserts.find?, hmake, Function.update_apply]
  by_cases h : id = c.nextId
  · rw [if_pos h, if_pos h.symm]
  · rw [if_neg h, if_neg (Ne.symm h)]
    rfl

/-- A change that keeps the id is seen under that id alone. -/
lemma get?_modify {f : Launch → Launch} (hf : ∀ l, l.id = id → (f l).id = id) :
    (c.modify id f).get? = Function.update c.get? id ((c.get? id).map f) :=
  Keyed.find?_modify Launch.id hf c.entries

lemma ids_modify {f : Launch → Launch} (hf : ∀ l, l.id = id → (f l).id = id) :
    (c.modify id f).entries.map (·.id) = c.entries.map (·.id) := by
  unfold modify
  rw [List.map_map]
  exact List.map_congr_left fun l _ => Keyed.key_modify hf l

lemma get?_filter : ({ c with entries := c.entries.filter (·.id ≠ id) } : Catalog).get? =
    Function.update c.get? id none := Keyed.find?_without Launch.id c.entries id

/-! ## Results of operations -/

lemma clone_of_none (h : c.get? id = none) : c.clone id = .error (.unknownLaunch id) := by
  unfold clone
  rw [require_of_none h]
  rfl

lemma clone_of_get? (h : c.get? id = some l) :
    c.clone id = .ok (c.add fun id => { l with id, name := l.name ++ " (copy)", saved := true }) := by
  unfold clone
  rw [require_of_get? h]
  rfl

lemma edit_of_none (h : c.get? id = none) (f : Launch → Launch) : c.edit id f = .error (.unknownLaunch id) := by
  unfold edit workingCopy
  rw [require_of_none h]
  rfl

/-- One that is not saved is edited itself. -/
lemma edit_of_unsaved (h : c.get? id = some l) (hsaved : l.saved = false) (f : Launch → Launch) :
    c.edit id f = .ok (f l, c.modify id fun _ => f l) := by
  have hcopy : c.workingCopy id = .ok (l, c) := by
    unfold workingCopy
    rw [require_of_get? h]
    show (if !l.saved then _ else _) = _
    rw [if_pos (by rw [hsaved]; rfl)]
    rfl
  have hnot : ¬ (c.working.any (·.1 = id) ∧ ((c.get? id).map (·.saved)).getD false) := by
    rw [h]
    simp [hsaved]
  unfold edit
  rw [hcopy]
  show (if _ then _ else _) = _
  rw [if_neg hnot]
  rfl

/-- The working copy of a saved configuration begins as what is stored. -/
lemma workingCopy_of_saved (h : c.get? id = some l) (hsaved : l.saved = true) :
    ∃ working, c.workingCopy id = .ok ((c.pending? id).getD l, { c with working }) ∧
      (working.lookup ·) = Function.update c.pending? id (some ((c.pending? id).getD l)) := by
  have hif : ¬ (!l.saved) = true := by simp [hsaved]
  unfold workingCopy
  rw [require_of_get? h]
  cases hpending : c.pending? id with
  | some known =>
    have hlookup : c.working.lookup id = some known := hpending
    refine ⟨c.working, ?_, ?_⟩
    · show (if !l.saved then _ else _) = _
      rw [if_neg hif]
      simp only [hlookup]
      rfl
    · rw [Option.getD_some, ← hpending]
      exact (Function.update_eq_self _ _).symm
  | none =>
    have hlookup : c.working.lookup id = none := hpending
    refine ⟨c.working ++ [(id, l)], ?_, ?_⟩
    · show (if !l.saved then _ else _) = _
      rw [if_neg hif]
      simp only [hlookup]
      rfl
    · funext k
      rw [Option.getD_none, List.lookup_append, Function.update_apply, List.lookup_cons, List.lookup_nil]
      by_cases hk : k = id
      · simp [hk, hlookup]
      · rw [if_neg hk, beq_eq_false_iff_ne.mpr hk]
        exact Option.or_none

/-- An edit of a saved configuration goes to its working copy. -/
lemma edit_of_saved (h : c.get? id = some l) (hsaved : l.saved = true) (f : Launch → Launch) :
    ∃ working, c.edit id f = .ok (f ((c.pending? id).getD l), { c with working }) ∧
      (working.lookup ·) = Function.update c.pending? id (some (f ((c.pending? id).getD l))) := by
  obtain ⟨begun, hcopy, hbegun⟩ := workingCopy_of_saved h hsaved
  generalize (c.pending? id).getD l = copy at hcopy hbegun ⊢
  have hhere : begun.lookup id = some copy := (congrFun hbegun id).trans (Function.update_self ..)
  have hthere : begun.any (·.1 = id) ∧ ((({ c with working := begun } : Catalog).get? id).map (·.saved)).getD false := by
    refine ⟨List.any_eq_true.mpr ⟨_, mem_of_lookup (c := { c with working := begun }) hhere, by simp⟩, ?_⟩
    show ((c.get? id).map (·.saved)).getD false = true
    rw [h]
    exact hsaved
  refine ⟨begun.map fun x => if x.1 = id then (id, f copy) else x, ?_, ?_⟩
  · unfold edit
    rw [hcopy]
    show (if _ then _ else _) = _
    rw [if_pos hthere]
    rfl
  · rw [Keyed.lookup_replace, hhere, hbegun, Function.update_idem]
    rfl

lemma commit_of_none (h : c.get? id = none) : c.commit id = .error (.unknownLaunch id) := by
  unfold commit
  rw [require_of_none h]
  rfl

/-- A commit without a working copy changes nothing. -/
lemma commit_of_clean (h : c.get? id = some l) (hpending : c.pending? id = none) : c.commit id = .ok (false, c) := by
  have hlookup : c.working.lookup id = none := hpending
  unfold commit
  rw [require_of_get? h]
  simp only [hlookup]
  rfl

lemma commit_of_pending {copy : Launch} (h : c.get? id = some l) (hpending : c.pending? id = some copy) :
    c.commit id = .ok (true,
      { c with working := c.working.filter (·.1 ≠ id) }.modify id fun l => fold l copy) := by
  have hlookup : c.working.lookup id = some copy := hpending
  unfold commit
  rw [require_of_get? h]
  simp only [hlookup]
  rfl

/-- A commit leaves the stored configuration, with what its working copy had, and no working copy. -/
lemma commit_of_get? (h : c.get? id = some l) : ∃ committed d, c.commit id = .ok (committed, d) ∧
    d.get? = Function.update c.get? id (some (fold l ((c.pending? id).getD l))) ∧
      d.pending? = Function.update c.pending? id none := by
  cases hpending : c.pending? id with
  | none =>
    refine ⟨false, c, commit_of_clean h hpending, ?_, ?_⟩
    · rw [Option.getD_none, show fold l l = l from rfl, ← h]
      exact (Function.update_eq_self _ _).symm
    · rw [← hpending]
      exact (Function.update_eq_self _ _).symm
  | some copy =>
    refine ⟨true, _, commit_of_pending h hpending, ?_, ?_⟩
    · refine (get?_modify (f := fun l => fold l copy) fun _ hid => hid).trans ?_
      show Function.update c.get? id ((c.get? id).map _) = _
      rw [h]
      rfl
    · exact Keyed.lookup_without c.working id

lemma ids_commit (h : c.get? id = some l) : ∃ committed d, c.commit id = .ok (committed, d) ∧
    d.entries.map (·.id) = c.entries.map (·.id) ∧ d.nextId = c.nextId := by
  cases hpending : c.pending? id with
  | none => exact ⟨false, c, commit_of_clean h hpending, rfl, rfl⟩
  | some copy =>
    refine ⟨true, _, commit_of_pending h hpending, ?_, rfl⟩
    exact ids_modify (f := fun l => fold l copy) fun _ hid => hid

lemma save_of_none (h : c.get? id = none) : c.save id = .error (.unknownLaunch id) := by
  unfold save
  rw [commit_of_none h]
  rfl

lemma save_of_commit {committed : Bool} {e : Catalog} (h : c.commit id = .ok (committed, e)) :
    c.save id = .ok (e.modify id fun l => { l with saved := true }) := by
  unfold save
  rw [h]
  rfl

lemma save_of_get? (h : c.get? id = some l) : ∃ d, c.save id = .ok d ∧
    d.get? = Function.update c.get? id (some { fold l ((c.pending? id).getD l) with saved := true }) ∧
      d.pending? = Function.update c.pending? id none := by
  obtain ⟨committed, e, hcommit, hget, hpending⟩ := commit_of_get? h
  refine ⟨_, save_of_commit hcommit, ?_, hpending⟩
  refine (get?_modify (f := fun l => { l with saved := true }) fun _ hid => hid).trans ?_
  rw [hget, Function.update_self, Function.update_idem]
  rfl

/-- A deletion leaves neither, also when it fails. -/
lemma delete_leaves (c : Catalog) (id : Nat) : (c.delete id).2.get? = Function.update c.get? id none ∧
    (c.delete id).2.pending? = Function.update c.pending? id none := by
  have hworking := Keyed.lookup_without c.working id
  unfold delete
  dsimp only
  split
  · exact ⟨get?_filter, hworking⟩
  · next hnone =>
    have hget : c.get? id = none := hnone
    refine ⟨?_, hworking⟩
    rw [← hget]
    exact (Function.update_eq_self _ _).symm

end Reading

/-- What is under each id, from configurations and working copies by themselves. -/
lemma contents_eq_update {c d : Catalog} {id : Nat} {entry copy : Option Launch}
    (hget : d.get? = Function.update c.get? id entry) (hpending : d.pending? = Function.update c.pending? id copy) :
    d.contents = Function.update c.contents id (entry, copy) := by
  funext k
  unfold contents
  rw [hget, hpending]
  by_cases hk : k = id
  · subst hk
    simp only [Function.update_self]
  · simp only [Function.update_of_ne hk]

end Catalog

open Catalog

/-! ## Operations -/

/-- An operation on the catalog. -/
inductive Operation where
  | create (name language project : String) (mode : Mode)
  | clone (id : Nat)
  /-- Any change of name, type, mode, project and attributes, made to the working copy. -/
  | edit (id : Nat) (change : Launch → Launch)
  | commit (id : Nat)
  | save (id : Nat)
  | delete (id : Nat)

namespace Operation

/-- A configuration after a change of name, type, mode, project and attributes. -/
def amend (change : Launch → Launch) (l : Launch) : Launch := fold l (change l)

/-- The catalog after an operation. -/
def apply (c : Catalog) : Operation → Catalog
  | create name language project mode => (c.create name language project mode).2
  | clone id => match c.clone id with | .ok (_, d) => d | .error _ => c
  | edit id change => match c.edit id (amend change) with | .ok (_, d) => d | .error _ => c
  | commit id => match c.commit id with | .ok (_, d) => d | .error _ => c
  | save id => match c.save id with | .ok d => d | .error _ => c
  | delete id => (c.delete id).2

/-- The id that an operation is about: that of the new configuration, if it makes one. -/
def place (c : Catalog) : Operation → Nat
  | create _ _ _ _ => c.nextId
  | clone _ => c.nextId
  | edit id _ => id
  | commit id => id
  | save id => id
  | delete id => id

/-- What is under that id afterwards. -/
def leaves (c : Catalog) : Operation → Option Launch × Option Launch
  | create name language project mode => (some { id := c.nextId, name, language, mode, project }, c.pending? c.nextId)
  | clone source =>
    match c.get? source with
    | some l => (some { l with id := c.nextId, name := l.name ++ " (copy)", saved := true }, c.pending? c.nextId)
    | none => c.contents c.nextId
  | edit id change =>
    match c.contents id with
    | (some l, pending) =>
      if l.saved then (some l, some (amend change (pending.getD l))) else (some (amend change l), pending)
    | (none, pending) => (none, pending)
  | commit id =>
    match c.contents id with
    | (some l, pending) => (some (fold l (pending.getD l)), none)
    | (none, pending) => (none, pending)
  | save id =>
    match c.contents id with
    | (some l, pending) => (some { fold l (pending.getD l) with saved := true }, none)
    | (none, pending) => (none, pending)
  | delete _ => (none, none)

/-- An operation changes what is under one id alone. -/
theorem contents_apply (c : Catalog) (op : Operation) :
    (apply c op).contents = Function.update c.contents (op.place c) (op.leaves c) := by
  have hsame : ∀ id, c.contents = Function.update c.contents id (c.contents id) :=
    fun id => (Function.update_eq_self _ _).symm
  cases op with
  | create name language project mode =>
    exact contents_eq_update (get?_add rfl) (Function.update_eq_self _ _).symm
  | clone source =>
    cases hget : c.get? source with
    | none =>
      simp only [apply, leaves, place, clone_of_none hget, hget]
      exact hsame _
    | some l =>
      simp only [apply, leaves, place, clone_of_get? hget, hget]
      exact contents_eq_update (get?_add rfl) (Function.update_eq_self _ _).symm
  | edit id change =>
    cases hget : c.get? id with
    | none =>
      simp only [apply, leaves, place, edit_of_none hget, contents, hget]
      simpa only [contents, hget] using hsame id
    | some l =>
      cases hsaved : l.saved with
      | false =>
        simp only [apply, leaves, place, edit_of_unsaved hget hsaved, contents, hget, hsaved]
        refine contents_eq_update ?_ (Function.update_eq_self _ _).symm
        have hid : (amend change l).id = id := id_of_get? (l := l) hget
        rw [get?_modify (f := fun _ => amend change l) fun _ _ => hid, hget]
        rfl
      | true =>
        obtain ⟨working, hedit, hworking⟩ := edit_of_saved hget hsaved (amend change)
        simp only [apply, leaves, place, hedit, contents, hget, hsaved]
        refine contents_eq_update ?_ hworking
        rw [← hget]
        exact (Function.update_eq_self _ _).symm
  | commit id =>
    cases hget : c.get? id with
    | none =>
      simp only [apply, leaves, place, commit_of_none hget, contents, hget]
      simpa only [contents, hget] using hsame id
    | some l =>
      obtain ⟨committed, d, hcommit, hentry, hcopy⟩ := commit_of_get? hget
      simp only [apply, leaves, place, hcommit, contents, hget]
      exact contents_eq_update hentry hcopy
  | save id =>
    cases hget : c.get? id with
    | none =>
      simp only [apply, leaves, place, save_of_none hget, contents, hget]
      simpa only [contents, hget] using hsame id
    | some l =>
      obtain ⟨d, hsave, hentry, hcopy⟩ := save_of_get? hget
      simp only [apply, leaves, place, hsave, contents, hget]
      exact contents_eq_update hentry hcopy
  | delete id => exact contents_eq_update (delete_leaves c id).1 (delete_leaves c id).2

/-- An operation that needs a configuration does nothing without it. -/
lemma apply_of_none {c : Catalog} {id : Nat} (hget : c.get? id = none) :
    apply c (clone id) = c ∧ (∀ change, apply c (edit id change) = c) ∧ apply c (commit id) = c ∧
      apply c (save id) = c := by
  refine ⟨?_, fun change => ?_, ?_, ?_⟩
  · simp only [apply, clone_of_none hget]
  · simp only [apply, edit_of_none hget]
  · simp only [apply, commit_of_none hget]
  · simp only [apply, save_of_none hget]

/-- An operation puts in one configuration under the next id, or puts in none. -/
lemma entries_apply (c : Catalog) (op : Operation) :
    (∃ l, l.id = c.nextId ∧ (apply c op).entries = insertOrdered l c.entries ∧
        (apply c op).nextId = (c.nextId + 1) % idLimit) ∨
      ((apply c op).entries.map (·.id)).Sublist (c.entries.map (·.id)) ∧ (apply c op).nextId = c.nextId := by
  have hsame : ∀ d, apply c op = d → d.entries.map (·.id) = c.entries.map (·.id) → d.nextId = c.nextId →
      ((apply c op).entries.map (·.id)).Sublist (c.entries.map (·.id)) ∧ (apply c op).nextId = c.nextId := by
    rintro d rfl hids hnext
    exact ⟨hids ▸ .refl _, hnext⟩
  cases op with
  | create name language project mode => exact .inl ⟨_, rfl, rfl, rfl⟩
  | clone source =>
    cases hget : c.get? source with
    | none => exact .inr (hsame c (apply_of_none hget).1 rfl rfl)
    | some l =>
      left
      simp only [apply, clone_of_get? hget]
      exact ⟨_, rfl, rfl, rfl⟩
  | edit id change =>
    right
    cases hget : c.get? id with
    | none => exact hsame c ((apply_of_none hget).2.1 change) rfl rfl
    | some l =>
      cases hsaved : l.saved with
      | false =>
        have hid : (amend change l).id = id := id_of_get? (l := l) hget
        refine hsame (c.modify id fun _ => amend change l) ?_ (ids_modify fun _ _ => hid) rfl
        simp only [apply, edit_of_unsaved hget hsaved]
      | true =>
        obtain ⟨working, hedit, -⟩ := edit_of_saved hget hsaved (amend change)
        exact hsame { c with working } (by simp only [apply, hedit]) rfl rfl
  | commit id =>
    right
    cases hget : c.get? id with
    | none => exact hsame c (apply_of_none hget).2.2.1 rfl rfl
    | some l =>
      obtain ⟨committed, d, hcommit, hids, hnext⟩ := ids_commit hget
      exact hsame d (by simp only [apply, hcommit]) hids hnext
  | save id =>
    right
    cases hget : c.get? id with
    | none => exact hsame c (apply_of_none hget).2.2.2 rfl rfl
    | some l =>
      obtain ⟨committed, e, hcommit, hids, hnext⟩ := ids_commit hget
      have hsaved : (e.modify id fun l => { l with saved := true }).entries.map (·.id) = e.entries.map (·.id) :=
        ids_modify fun _ hid => hid
      exact hsame _ (by simp only [apply, save_of_commit hcommit]) (hsaved.trans hids) hnext
  | delete id =>
    right
    simp only [apply, Catalog.delete]
    split
    · exact ⟨List.filter_sublist.map _, rfl⟩
    · exact ⟨.refl _, rfl⟩

end Operation

open Operation

/-! ## Runs -/

/-- The catalog of what was stored, after operations. -/
def run (stored : List Launch) (ops : List Operation) : Catalog := ops.foldl apply (ofList stored)

/-- A catalog as operations leave it: ids are in order, those in use are behind the counter, and there are working
copies of saved configurations alone. -/
structure Kept (c : Catalog) : Prop where
  ordered : c.entries.Pairwise (·.id < ·.id)
  /-- The last id of all does not move the counter when it is taken in. -/
  behind : ∀ l ∈ c.entries, l.id < c.nextId ∨ idLimit ≤ l.id + 1
  copies : ∀ id copy, c.pending? id = some copy → ∃ l, c.get? id = some l ∧ l.saved = true

namespace Kept

variable {c : Catalog}

lemma restore (h : Kept c) (l : Launch) (hworking : c.working = []) :
    Kept (c.restore l) ∧ (c.restore l).working = [] := by
  unfold Catalog.restore
  split
  · exact ⟨h, hworking⟩
  · refine ⟨⟨inserts.pairwise _ h.ordered, ?_, ?_⟩, hworking⟩
    · intro x hx
      show x.id < max c.nextId ((l.id + 1) % idLimit) ∨ _
      rcases inserts.mem hx with rfl | hx
      · by_cases hlast : l.id + 1 < idLimit
        · rw [Nat.mod_eq_of_lt hlast]
          exact .inl (Nat.lt_of_lt_of_le (Nat.lt_succ_self l.id) (Nat.le_max_right ..))
        · exact .inr (Nat.not_lt.mp hlast)
      · exact (h.behind x hx).imp_left fun hlt => by omega
    · intro id copy hcopy
      have hnone : c.working.lookup id = some copy := hcopy
      rw [hworking] at hnone
      cases hnone

/-- What was stored is taken in whatever its ids are. -/
lemma ofList (stored : List Launch) : Kept (Catalog.ofList stored) := by
  have hfold : ∀ (stored : List Launch) (c : Catalog), Kept c → c.working = [] → Kept (stored.foldl Catalog.restore c) := by
    intro stored
    induction stored with
    | nil => exact fun c h _ => h
    | cons l rest ih =>
      intro c h hworking
      obtain ⟨hnext, hnone⟩ := h.restore l hworking
      exact ih _ hnext hnone
  exact hfold stored {} ⟨.nil, nofun, nofun⟩ rfl

/-- The next id is not in use. -/
lemma get?_nextId (h : Kept c) (hroom : c.nextId + 1 < idLimit) : c.get? c.nextId = none := by
  rw [get?, List.find?_eq_none]
  intro l hl
  have hbehind := h.behind l hl
  rw [decide_eq_true_eq]
  omega

/-- An id that is not in use has no working copy. -/
lemma pending?_of_none (h : Kept c) {id : Nat} (hget : c.get? id = none) : c.pending? id = none := by
  rw [Option.eq_none_iff_forall_ne_some]
  intro copy hcopy
  obtain ⟨l, hl, -⟩ := h.copies id copy hcopy
  rw [hget] at hl
  cases hl

/-- A working copy that an operation leaves is of a saved configuration. -/
lemma copies_leaves (h : Kept c) (hroom : c.nextId + 1 < idLimit) (op : Operation) {copy : Launch}
    (hcopy : (op.leaves c).2 = some copy) : ∃ l, (op.leaves c).1 = some l ∧ l.saved = true := by
  have hfresh : c.pending? c.nextId = none := h.pending?_of_none (h.get?_nextId hroom)
  cases op with
  | create name language project mode =>
    rw [leaves, hfresh] at hcopy
    cases hcopy
  | clone source =>
    rw [leaves] at hcopy
    split at hcopy
    · rw [hfresh] at hcopy
      cases hcopy
    · rw [contents, hfresh] at hcopy
      cases hcopy
  | edit id change =>
    cases hget : c.get? id with
    | none =>
      simp only [leaves, contents, hget, h.pending?_of_none hget] at hcopy
      cases hcopy
    | some l =>
      simp only [leaves, contents, hget] at hcopy ⊢
      cases hsaved : l.saved with
      | true => exact ⟨l, rfl, hsaved⟩
      | false =>
        rw [hsaved] at hcopy
        obtain ⟨found, hfound, hthere⟩ := h.copies id copy hcopy
        obtain rfl := Option.some.inj (hget.symm.trans hfound)
        rw [hsaved] at hthere
        cases hthere
  | commit id =>
    cases hget : c.get? id with
    | none =>
      simp only [leaves, contents, hget, h.pending?_of_none hget] at hcopy
      cases hcopy
    | some l =>
      simp only [leaves, contents, hget] at hcopy
      cases hcopy
  | save id =>
    cases hget : c.get? id with
    | none =>
      simp only [leaves, contents, hget, h.pending?_of_none hget] at hcopy
      cases hcopy
    | some l =>
      simp only [leaves, contents, hget] at hcopy
      cases hcopy
  | delete id => cases hcopy

lemma copies_apply (h : Kept c) (hroom : c.nextId + 1 < idLimit) (op : Operation) {id : Nat} {copy : Launch}
    (hcopy : (apply c op).pending? id = some copy) : ∃ l, (apply c op).get? id = some l ∧ l.saved = true := by
  have hall := congrFun (contents_apply c op) id
  by_cases hid : id = op.place c
  · rw [hid, Function.update_self, ← hid] at hall
    have hget : (apply c op).get? id = (op.leaves c).1 := congrArg Prod.fst hall
    have hpending : (apply c op).pending? id = (op.leaves c).2 := congrArg Prod.snd hall
    rw [hget]
    exact h.copies_leaves hroom op (hpending ▸ hcopy)
  · rw [Function.update_of_ne hid] at hall
    obtain ⟨hget, hpending⟩ := Prod.mk.inj hall
    rw [hget]
    exact h.copies id copy (hpending ▸ hcopy)

/-- An operation keeps a catalog so, and the counter does not go back. -/
lemma apply (h : Kept c) (hroom : c.nextId + 1 < idLimit) (op : Operation) :
    Kept (apply c op) ∧ c.nextId ≤ (Operation.apply c op).nextId := by
  have hcopies : ∀ id copy, (Operation.apply c op).pending? id = some copy →
      ∃ l, (Operation.apply c op).get? id = some l ∧ l.saved = true := fun _ _ hcopy => h.copies_apply hroom op hcopy
  rcases entries_apply c op with ⟨l, hid, hentries, hnext⟩ | ⟨hids, hnext⟩
  · rw [Nat.mod_eq_of_lt hroom] at hnext
    refine ⟨⟨?_, ?_, hcopies⟩, by omega⟩
    · rw [hentries]
      exact inserts.pairwise l h.ordered
    · intro x hx
      rw [hentries] at hx
      rw [hnext]
      rcases inserts.mem hx with rfl | hx
      · exact .inl (by omega)
      · exact (h.behind x hx).imp_left fun hlt => by omega
  · refine ⟨⟨?_, ?_, hcopies⟩, by omega⟩
    · have hordered : (c.entries.map (·.id)).Pairwise (· < ·) := List.pairwise_map.mpr h.ordered
      exact List.pairwise_map.mp (hordered.sublist hids)
    · intro x hx
      obtain ⟨y, hy, hyx⟩ := List.mem_map.mp (hids.subset (List.mem_map_of_mem hx))
      rw [hnext, ← hyx]
      exact h.behind y hy

end Kept

/-- Along a run catalogs stay so, and no id that was ever in use comes up again at the counter. -/
lemma kept_run (stored : List Launch) (ops : List Operation)
    (hroom : ∀ n < ops.length, (run stored (ops.take n)).nextId + 1 < idLimit) :
    Kept (run stored ops) ∧ ∀ n ≤ ops.length, ∀ l ∈ (run stored (ops.take n)).entries,
      l.id < (run stored ops).nextId ∨ idLimit ≤ l.id + 1 := by
  induction ops using List.reverseRecOn with
  | nil =>
    have hstart := Kept.ofList stored
    refine ⟨hstart, fun n _ l hl => hstart.behind l ?_⟩
    rwa [List.take_nil] at hl
  | append_singleton ops op ih =>
    rw [List.length_append, List.length_singleton] at hroom ⊢
    have hbefore : ∀ n ≤ ops.length, (ops ++ [op]).take n = ops.take n :=
      fun n hn => List.take_append_of_le_length hn
    have hhere : (run stored ops).nextId + 1 < idLimit := by
      have := hroom ops.length (Nat.lt_succ_self _)
      rwa [hbefore _ (Nat.le_refl _), List.take_length] at this
    obtain ⟨hkept, hearlier⟩ := ih fun n hn => by
      rw [← hbefore n (Nat.le_of_lt hn)]
      exact hroom n (Nat.lt_succ_of_lt hn)
    obtain ⟨hnext, hcounter⟩ := hkept.apply hhere op
    have hstep : run stored (ops ++ [op]) = apply (run stored ops) op := List.foldl_concat ..
    rw [hstep]
    refine ⟨hnext, fun n hn l hl => ?_⟩
    rcases Nat.lt_or_ge ops.length n with hlast | hn
    · rw [List.take_of_length_le (by simpa using hlast), hstep] at hl
      exact hnext.behind l hl
    · rw [hbefore n hn] at hl
      exact (hearlier n hn l hl).imp_left fun hlt => Nat.lt_of_lt_of_le hlt hcounter

/-! ## Isolation -/

/-- What may be said of a catalog by itself. -/
structure Consistent (c : Catalog) : Prop where
  /-- A working copy is one of a configuration that is there and saved. -/
  copies : ∀ id copy, c.pending? id = some copy → ∃ l, c.get? id = some l ∧ l.saved = true
  /-- What belongs on disk is what is saved, each configuration once. -/
  saved : ∀ l, l ∈ c.saved ↔ c.get? l.id = some l ∧ l.saved = true
  ordered : c.saved.Pairwise (·.id < ·.id)

/-- What an operation on one catalog gives another. -/
structure Isolated (op : Operation) (c d : Catalog) : Prop where
  /-- Configurations and working copies of other ids stay as they are. -/
  others : ∀ id, id ≠ op.place c → d.get? id = c.get? id ∧ d.pending? id = c.pending? id
  /-- A saved configuration is changed by its own commit or save, and removed by its own deletion. -/
  stored : ∀ id l, c.get? id = some l → l.saved = true → d.get? id = some l ∨
    (op = .commit id ∨ op = .save id) ∧ (∃ copy, c.pending? id = some copy ∧ d.get? id = some (fold l copy)) ∨
    op = .delete id ∧ d.get? id = none
  /-- Commit and save take over name, type, mode, project and attributes of the working copy, and drop it. -/
  committed : ∀ id l copy, op = .commit id ∨ op = .save id → c.get? id = some l → c.pending? id = some copy →
    d.get? id = some (fold l copy) ∧ d.pending? id = none
  /-- An edit of a saved configuration changes its working copy, which begins as what is stored. -/
  edited : ∀ id change l, op = .edit id change → c.get? id = some l → l.saved = true →
    d.pending? id = some (amend change ((c.pending? id).getD l))

lemma Kept.consistent {c : Catalog} (h : Kept c) : Consistent c where
  copies := h.copies
  saved := by
    intro l
    have hnodup : (c.entries.map (·.id)).Nodup := List.pairwise_map.mpr (h.ordered.imp fun hlt => Nat.ne_of_lt hlt)
    rw [Catalog.saved, List.mem_filter]
    refine and_congr_left fun _ => ⟨fun hl => ?_, fun hget => List.mem_of_find?_eq_some hget⟩
    obtain ⟨found, hfound⟩ : ∃ found, c.get? l.id = some found :=
      Option.isSome_iff_exists.mp (List.find?_isSome.mpr ⟨l, hl, by simp⟩)
    rw [hfound, List.inj_on_of_nodup_map hnodup hl (List.mem_of_find?_eq_some hfound) (id_of_get? hfound).symm]
  ordered := h.ordered.filter _

lemma fold_of_saved {l : Launch} (hsaved : l.saved = true) (copy : Launch) :
    { fold l copy with saved := true } = fold l copy := by
  show { fold l copy with saved := true } = { fold l copy with saved := l.saved }
  rw [hsaved]

lemma Kept.isolated {c : Catalog} (h : Kept c) (hroom : c.nextId + 1 < idLimit) (op : Operation) :
    Isolated op c (Operation.apply c op) := by
  have hplace : ((Operation.apply c op).get? (op.place c), (Operation.apply c op).pending? (op.place c)) =
      op.leaves c := (congrFun (contents_apply c op) _).trans (Function.update_self ..)
  have hothers : ∀ id, id ≠ op.place c → (Operation.apply c op).get? id = c.get? id ∧
      (Operation.apply c op).pending? id = c.pending? id := fun id hid =>
    Prod.mk.inj ((congrFun (contents_apply c op) id).trans (Function.update_of_ne hid ..))
  refine ⟨hothers, ?_, ?_, ?_⟩
  · intro id l hget hsaved
    by_cases hid : id = op.place c
    · rw [← hid] at hplace
      obtain ⟨hentry, -⟩ := Prod.ext_iff.mp hplace
      cases op with
      | create name language project mode =>
        rw [hid] at hget
        exact absurd hget (by rw [place, h.get?_nextId hroom]; nofun)
      | clone source =>
        rw [hid] at hget
        exact absurd hget (by rw [place, h.get?_nextId hroom]; nofun)
      | edit other change =>
        obtain rfl : id = other := hid
        simp only [leaves, contents, hget, hsaved] at hentry
        exact .inl hentry
      | commit other =>
        obtain rfl : id = other := hid
        simp only [leaves, contents, hget] at hentry
        cases hpending : c.pending? id with
        | none => exact .inl (by rw [hentry, hpending]; rfl)
        | some copy => exact .inr (.inl ⟨.inl rfl, copy, rfl, by rw [hentry, hpending]; rfl⟩)
      | save other =>
        obtain rfl : id = other := hid
        simp only [leaves, contents, hget, fold_of_saved hsaved] at hentry
        cases hpending : c.pending? id with
        | none => exact .inl (by rw [hentry, hpending]; rfl)
        | some copy => exact .inr (.inl ⟨.inr rfl, copy, rfl, by rw [hentry, hpending]; rfl⟩)
      | delete other =>
        obtain rfl : id = other := hid
        exact .inr (.inr ⟨rfl, hentry⟩)
    · exact .inl ((hothers id hid).1.trans hget)
  · rintro id l copy hop hget hpending
    obtain ⟨found, hfound, hsaved⟩ := h.copies id copy hpending
    obtain rfl := Option.some.inj (hget.symm.trans hfound)
    rcases hop with rfl | rfl
    · simp only [place, leaves, contents, hget, hpending] at hplace
      exact Prod.mk.inj hplace
    · simp only [place, leaves, contents, hget, hpending, Option.getD_some, fold_of_saved hsaved] at hplace
      exact Prod.mk.inj hplace
  · rintro id change l rfl hget hsaved
    simp only [place, leaves, contents, hget, hsaved] at hplace
    exact (Prod.mk.inj hplace).2

/-- Working copies stay apart from what is stored: whatever configurations were stored and whatever operations came
before, as long as ids are left, the next operation changes what is under its own id alone, and what is stored there
only when it is to. A copy of a configuration is made of what is stored, under an id that was never in use. -/
theorem stays_apart (stored : List Launch) (ops : List Operation) (op : Operation)
    (hroom : ∀ n ≤ ops.length, (run stored (ops.take n)).nextId + 1 < idLimit) :
    let before := run stored ops
    let after := run stored (ops ++ [op])
    Consistent before ∧ Consistent after ∧ Isolated op before after ∧
      ∀ source l, op = .clone source → before.get? source = some l →
        ∃ copy, before.clone source = .ok (copy, after) ∧
          after.get? copy = some { l with id := copy, name := l.name ++ " (copy)", saved := true } ∧
          ∀ n ≤ ops.length, (run stored (ops.take n)).get? copy = none := by
  intro before after
  obtain ⟨hkept, hearlier⟩ := kept_run stored ops fun n hn => hroom n (Nat.le_of_lt hn)
  have hhere : before.nextId + 1 < idLimit := by
    have := hroom ops.length (Nat.le_refl _)
    rwa [List.take_length] at this
  have hafter : after = Operation.apply before op := List.foldl_concat ..
  rw [hafter]
  refine ⟨hkept.consistent, (hkept.apply hhere op).1.consistent, hkept.isolated hhere op, ?_⟩
  rintro source l rfl hget
  have happly : Operation.apply before (.clone source) =
      (before.add fun id => { l with id, name := l.name ++ " (copy)", saved := true }).2 := by
    simp only [Operation.apply, clone_of_get? hget]
  refine ⟨before.nextId, ?_, ?_, ?_⟩
  · rw [happly, clone_of_get? hget]
    rfl
  · rw [happly, get?_add rfl, Function.update_self]
  · intro n hn
    rw [get?, List.find?_eq_none]
    intro x hx
    have hbehind : x.id < before.nextId ∨ idLimit ≤ x.id + 1 := hearlier n hn x hx
    rw [decide_eq_true_eq]
    omega

/-- A copy of a configuration with a pending edit is one of what is stored. -/
theorem clone_beside_pending :
    let stored : List Launch := [{ id := 3, name := "Run App", language := "java", project := "demo" }]
    let ops : List Operation := [.edit 3 fun l => { l with name := "Other" }]
    (run stored ops).pending? 3 = some { id := 3, name := "Other", language := "java", project := "demo", saved := true } ∧
      (run stored (ops ++ [.clone 3])).get? 4 = some
        { id := 4, name := "Run App" ++ " (copy)", language := "java", project := "demo", saved := true } := by
  intro stored ops
  have hroom : ∀ n ≤ ops.length, (run stored (ops.take n)).nextId + 1 < idLimit := by decide
  obtain ⟨-, -, -, hclone⟩ := stays_apart stored ops (.clone 3) hroom
  obtain ⟨copy, hcopy, hget, -⟩ := hclone 3 _ rfl rfl
  have hfour : copy = 4 := (congrArg Prod.fst (Except.ok.inj hcopy)).symm
  rw [hfour] at hget
  exact ⟨rfl, hget⟩

end Switchboard.Debug.Launch
