import Switchboard.Proofs.Breakpoint.Shown
import Switchboard.Proofs.Launch.Isolation

/-!
# Launch configurations as an editor sees them

An editor sees configurations by id, those that are saved as they were committed. Working copies are not told of.

* `Catalog.Told`: what an editor is told of one configuration leads it from one catalog to another;
* `told_createIn`, `told_clone`, `told_edit` and so on: what is told of each operation does, or there is nothing to tell.
-/

namespace Switchboard.Debug.Launch.Catalog

/-- Entries are in order of their ids, so no id is given twice. -/
def Listed (c : Catalog) : Prop := c.entries.Pairwise (·.id < ·.id)

/-- What an editor is told of a configuration leads it from one catalog to another. -/
structure Told (what : Change) (l : Launch) (c d : Catalog) : Prop where
  listed : d.Listed
  shown : what.revise l.id l c.get? = d.get?

/-- Of what happened there is nothing to tell. -/
structure Untold (c d : Catalog) : Prop where
  listed : d.Listed
  shown : d.get? = c.get?

section Operations

variable {c d : Catalog} {id : Nat} {l : Launch}

lemma Listed.of_ids (h : c.Listed) (hids : d.entries.map (·.id) = c.entries.map (·.id)) : d.Listed := by
  have hmapped : (c.entries.map (·.id)).Pairwise (· < ·) := List.pairwise_map.mpr h
  rw [← hids] at hmapped
  exact List.pairwise_map.mp hmapped

lemma listed_ofList (stored : List Launch) : (ofList stored).Listed := (Kept.ofList stored).ordered

lemma Untold.refl (h : c.Listed) : Untold c c := ⟨h, rfl⟩

lemma Told.get?_of_add (h : Told .add l c d) : d.get? l.id = some l := by
  rw [← h.shown]
  exact Function.update_self ..

/-- Of a configuration that is changed as soon as it was added an editor is told once. -/
lemma Told.then_change (h : Told .add l c d) {now : Launch} {e : Catalog}
    (hnow : Told .change now d e) (hid : now.id = l.id) : Told .add now c e := by
  refine ⟨hnow.listed, ?_⟩
  rw [← hnow.shown, ← h.shown]
  simp [Change.revise, hid]

/-- A configuration is changed in its place. -/
lemma told_modify (h : c.Listed) (hget : c.get? id = some l) {f : Launch → Launch} (hf : ∀ l, l.id = id → (f l).id = id) :
    Told .change (f l) c (c.modify id f) := by
  refine ⟨h.of_ids (ids_modify hf), ?_⟩
  rw [get?_modify hf, hget, hf l (id_of_get? hget)]
  show Function.update c.get? id ((c.get? id).map _) = _
  rw [hget]
  rfl

lemma told_add (h : c.Listed) (make : Nat → Launch) (hmake : (make c.nextId).id = c.nextId) :
    Told .add (make c.nextId) c (c.add make).2 := by
  refine ⟨inserts.pairwise _ h, ?_⟩
  rw [get?_add hmake]
  show Function.update _ (make c.nextId).id _ = _
  rw [hmake]

lemma told_clone (h : c.Listed) {copy : Nat} (hclone : c.clone id = .ok (copy, d)) :
    ∃ now, d.get? copy = some now ∧ Told .add now c d := by
  cases hget : c.get? id with
  | none =>
    rw [clone_of_none hget] at hclone
    cases hclone
  | some l =>
    rw [clone_of_get? hget] at hclone
    obtain ⟨rfl, rfl⟩ := Prod.ext_iff.mp (Except.ok.inj hclone)
    have hadd := told_add h (fun id => { l with id, name := l.name ++ " (copy)", saved := true }) rfl
    exact ⟨_, hadd.get?_of_add, hadd⟩

/-- An edit is told of unless the configuration is a saved one, which is not changed by it. -/
lemma told_edit (h : c.Listed) {f : Launch → Launch} (hid : ∀ l, (f l).id = l.id) (hsaved : ∀ l, (f l).saved = l.saved)
    (hedit : c.edit id f = .ok (l, d)) :
    if ((d.get? id).map (·.saved)).getD false then Untold c d else Told .change l c d := by
  cases hget : c.get? id with
  | none =>
    rw [edit_of_none hget] at hedit
    cases hedit
  | some known =>
    cases hknown : known.saved with
    | false =>
      rw [edit_of_unsaved hget hknown] at hedit
      obtain ⟨rfl, rfl⟩ := Prod.mk.inj (Except.ok.inj hedit)
      have hkeeps : ∀ x : Launch, x.id = id → (f known).id = id := fun _ _ => (hid known).trans (id_of_get? hget)
      rw [get?_modify hkeeps, Function.update_self, hget]
      show if (f known).saved = true then _ else _
      rw [hsaved, hknown]
      exact told_modify h hget hkeeps
    | true =>
      obtain ⟨working, heq, -⟩ := edit_of_saved hget hknown f
      rw [heq] at hedit
      obtain ⟨rfl, rfl⟩ := Prod.mk.inj (Except.ok.inj hedit)
      show if ((c.get? id).map (·.saved)).getD false then _ else _
      rw [hget]
      show if known.saved = true then _ else _
      rw [hknown]
      exact ⟨h, rfl⟩

lemma told_commit (h : c.Listed) {committed : Bool} (hcommit : c.commit id = .ok (committed, d)) :
    if committed then ∃ now, d.get? id = some now ∧ Told .change now c d else Untold c d := by
  cases hget : c.get? id with
  | none =>
    rw [commit_of_none hget] at hcommit
    cases hcommit
  | some l =>
    cases hpending : c.pending? id with
    | none =>
      rw [commit_of_clean hget hpending] at hcommit
      obtain ⟨rfl, rfl⟩ := Prod.mk.inj (Except.ok.inj hcommit)
      exact .refl h
    | some copy =>
      rw [commit_of_pending hget hpending] at hcommit
      obtain ⟨rfl, rfl⟩ := Prod.mk.inj (Except.ok.inj hcommit)
      have hfolds : ∀ x : Launch, x.id = id → (fold x copy).id = id := fun _ hx => hx
      have htold := told_modify (c := { c with working := c.working.filter (·.1 ≠ id) }) h hget hfolds
      rw [if_pos rfl]
      refine ⟨_, ?_, htold.listed, htold.shown⟩
      rw [get?_modify hfolds, Function.update_self]
      exact congrArg (Option.map _) hget

lemma told_save (h : c.Listed) (hsave : c.save id = .ok d) :
    ∃ now, d.get? id = some now ∧ Told .change now c d := by
  cases hget : c.get? id with
  | none =>
    rw [save_of_none hget] at hsave
    cases hsave
  | some l =>
    obtain ⟨d', hsave', hshown, -⟩ := save_of_get? hget
    obtain rfl : d' = d := Except.ok.inj (hsave'.symm.trans hsave)
    obtain ⟨committed, e, hcommit, hids, -⟩ := ids_commit hget
    obtain rfl := Except.ok.inj ((save_of_commit hcommit).symm.trans hsave)
    refine ⟨_, (congrFun hshown id).trans (Function.update_self ..), ?_, ?_⟩
    · exact h.of_ids ((ids_modify (f := fun l => { l with saved := true }) fun _ hid => hid).trans hids)
    · rw [hshown]
      show Function.update c.get? l.id ((c.get? l.id).map _) = _
      rw [id_of_get? hget, hget]
      rfl

lemma told_createIn (h : c.Listed) {n : Editing.NewLaunch} (hcreate : Editing.createIn n c = .ok (l, d)) :
    Told .add l c d := by
  obtain ⟨edited, e, hedit, hrest⟩ := createIn_cases hcreate
  let fresh : Launch := { id := c.nextId, name := n.name, language := n.language, mode := n.mode, project := n.project }
  let added : Catalog := (c.create n.name n.language n.project n.mode).2
  have hadd : Told .add fresh c added := told_add h (fun id => { fresh with id }) rfl
  have hfresh : added.get? c.nextId = some fresh := hadd.get?_of_add
  -- it is not saved yet, so it is filled itself
  obtain ⟨rfl, rfl⟩ := Prod.mk.inj (Except.ok.inj ((edit_of_unsaved hfresh rfl (filled n)).symm.trans hedit))
  have hfill := told_modify hadd.listed hfresh (f := fun _ => filled n fresh) fun _ _ => rfl
  have hfilled := hadd.then_change hfill rfl
  rcases hrest with ⟨-, hunsaved⟩ | ⟨-, hsave, rfl⟩
  · obtain ⟨rfl, rfl⟩ := Prod.mk.inj hunsaved
    exact hfilled
  · obtain ⟨now, hget, hsaved⟩ := told_save hfilled.listed hsave
    rw [hget]
    exact hfilled.then_change hsaved (id_of_get? hget)

/-- Deleting is told of unless there is nothing to delete. -/
lemma told_delete (h : c.Listed) (id : Nat) :
    match c.delete id with
    | (.ok l, d) => Told .remove l c d
    | (.error _, d) => Untold c d := by
  have hshown := (delete_leaves c id).1
  have hsame : ({ c with working := c.working.filter (·.1 ≠ id) } : Catalog).get? id = c.get? id := rfl
  unfold delete at hshown ⊢
  dsimp only at hshown ⊢
  rw [hsame] at hshown ⊢
  cases hget : c.get? id with
  | none =>
    rw [hget] at hshown
    refine ⟨h, hshown.trans ?_⟩
    rw [← hget]
    exact Function.update_eq_self _ _
  | some l =>
    rw [hget] at hshown
    refine ⟨h.filter _, ?_⟩
    show Function.update c.get? l.id none = _
    rw [id_of_get? hget]
    exact hshown.symm

end Operations

end Switchboard.Debug.Launch.Catalog
