import Switchboard.Proofs.Concurrency.Step
import Switchboard.Proofs.Launch.Isolation
import Switchboard.Proofs.Text.Pieces

/-!
# Launch configurations as they should be

A configuration should have a name that is not blank, and an attribute without text should not be there at all.

* `Launch.Proper`, `Catalog.Proper`: such a configuration, and a catalog with no other, working copies included;
* `Request`, `served`: what an editor asks about configurations, and the world when all of it is done;
* `Request.Spoils`: a request that leaves a configuration which is not as it should be;
* `proper_leads_iff`: what one request makes of a catalog as it should be;
* `attributes_created`: what becomes of attributes that come with a new configuration, and of those given to it later;
* `well_formed_iff`: catalogs stay as they should be exactly if no request of the run spoils one.
-/

namespace Switchboard

lemma Text.trim_ne_empty {s : String} {c : Char} (hc : c ∈ s.toList) (hblank : isBlank c = false) : trim s ≠ "" := by
  intro h
  rw [trim, trimEndOf_eq_empty, trimStartOf, String.toList_ofList] at h
  have hdropped : s.toList.dropWhile isBlank = [] := by
    cases hdrop : s.toList.dropWhile isBlank with
    | nil => rfl
    | cons d rest =>
      have hkept : isBlank d = false := by
        have hhead := List.head_dropWhile_not isBlank (l := s.toList) (by simp [hdrop])
        simpa [hdrop] using hhead
      rw [hdrop] at h
      rw [h d List.mem_cons_self] at hkept
      cases hkept
  rw [List.dropWhile_eq_nil_iff.mp hdropped c hc] at hblank
  cases hblank

namespace Debug.Launch

open Editing

/-- A configuration as it should be: its name is not blank and no attribute is empty. -/
structure Proper (l : Launch) : Prop where
  named : Text.trim l.name ≠ ""
  filled : ∀ x ∈ l.attributes, x.2 ≠ ""

namespace Proper

variable {l : Launch}

lemma fold {copy : Launch} (h : copy.Proper) (entry : Launch) : (Catalog.fold entry copy).Proper := ⟨h.named, h.filled⟩

lemma copied (h : l.Proper) (id : Nat) : Proper { l with id, name := l.name ++ " (copy)", saved := true } := by
  refine ⟨?_, h.filled⟩
  exact Text.trim_ne_empty (c := ')') (by simp) (by decide)

/-- An attribute that is set is not empty. -/
lemma setAttribute (h : l.Proper) (a : Attribute) (v : String) : (l.setAttribute a v).Proper := by
  unfold Launch.setAttribute
  split
  · exact ⟨h.named, fun x hx => h.filled x (List.mem_of_mem_filter hx)⟩
  · next hv =>
    refine ⟨h.named, fun x hx => ?_⟩
    rcases inserts_attributes.mem (x := (a, v)) hx with rfl | hx
    · exact hv
    · exact h.filled x hx

end Proper

/-- An edit of attributes changes nothing else. -/
lemma foldl_setAttribute (changes : List (Attribute × String)) (l : Launch) :
    ∃ attributes, changes.foldl (fun l x => l.setAttribute x.1 x.2) l = { l with attributes } := by
  induction changes generalizing l with
  | nil => exact ⟨l.attributes, rfl⟩
  | cons x rest ih =>
    have hset : ∃ attributes, l.setAttribute x.1 x.2 = { l with attributes } := by
      unfold setAttribute
      split
      · exact ⟨_, rfl⟩
      · exact ⟨_, rfl⟩
    obtain ⟨first, hset⟩ := hset
    obtain ⟨attributes, hrest⟩ := ih (l.setAttribute x.1 x.2)
    refine ⟨attributes, hrest.trans ?_⟩
    rw [hset]

lemma name_apply (e : LaunchEdit) (l : Launch) : (e.apply l).name = e.name.getD l.name := by
  obtain ⟨attributes, happly⟩ := foldl_setAttribute e.attributes { l with
    name := e.name.getD l.name, type := e.type.getD l.type, mode := e.mode.getD l.mode
    project := e.project.getD l.project }
  rw [LaunchEdit.apply, happly]

/-- An edit is a change of name, type, mode, project and attributes. -/
lemma amend_apply (e : LaunchEdit) : Operation.amend e.apply = e.apply := by
  funext l
  obtain ⟨attributes, happly⟩ := foldl_setAttribute e.attributes { l with
    name := e.name.getD l.name, type := e.type.getD l.type, mode := e.mode.getD l.mode
    project := e.project.getD l.project }
  rw [Operation.amend, LaunchEdit.apply, happly]
  rfl

/-- Only a name can make a configuration other than it should be when it is edited. -/
lemma Proper.edited {e : LaunchEdit} (he : ∀ name ∈ e.name, Text.trim name ≠ "") {l : Launch} (h : l.Proper) :
    (e.apply l).Proper := by
  have hfold : ∀ (changes : List (Attribute × String)) (l : Launch), l.Proper →
      (changes.foldl (fun l x => l.setAttribute x.1 x.2) l).Proper := by
    intro changes
    induction changes with
    | nil => exact fun l h => h
    | cons x rest ih => exact fun l h => ih _ (h.setAttribute x.1 x.2)
  refine hfold e.attributes _ ⟨?_, h.filled⟩
  cases hname : e.name with
  | none => exact h.named
  | some name => exact he name hname

namespace Catalog

/-- Every configuration and every working copy is as it should be. -/
structure Proper (c : Catalog) : Prop where
  entries : ∀ l ∈ c.entries, l.Proper
  working : ∀ x ∈ c.working, x.2.Proper

/-! ## Single changes -/

section Changes

variable {c d : Catalog} {id : Nat} {l : Launch}

namespace Proper

lemma of_get? (h : c.Proper) (hget : c.get? id = some l) : l.Proper := h.entries l (List.mem_of_find?_eq_some hget)

lemma of_pending? (h : c.Proper) (hpending : c.pending? id = some l) : l.Proper := h.working _ (mem_of_lookup hpending)

lemma add (h : c.Proper) (make : Nat → Launch) (hmake : (make c.nextId).Proper) : (c.add make).2.Proper := by
  refine ⟨fun l hl => ?_, h.working⟩
  rcases inserts.mem hl with rfl | hl
  · exact hmake
  · exact h.entries l hl

lemma modify (h : c.Proper) {f : Launch → Launch} (hf : ∀ l ∈ c.entries, (f l).Proper) : (c.modify id f).Proper := by
  refine ⟨fun l hl => ?_, h.working⟩
  obtain ⟨x, hx, rfl⟩ := List.mem_map.mp hl
  split
  · exact hf x hx
  · exact h.entries x hx

lemma edit (h : c.Proper) {f : Launch → Launch} (hf : ∀ l, l.Proper → (f l).Proper) {w : Launch}
    (hedit : c.edit id f = .ok (w, d)) : d.Proper := by
  rcases edit_cases hedit with ⟨found, hget, -, rfl⟩ | ⟨copy, working, hcopy, rfl, hworking⟩
  · exact h.modify fun _ _ => hf found (h.of_get? hget)
  · refine ⟨h.entries, fun x hx => ?_⟩
    rcases hworking x hx with hx | hx
    · exact h.working x hx
    · rw [hx]
      exact hf copy (hcopy.elim (h.entries copy) (h.working (id, copy)))

lemma commit (h : c.Proper) {committed : Bool} (hcommit : c.commit id = .ok (committed, d)) : d.Proper := by
  rcases commit_cases hcommit with ⟨-, rfl⟩ | ⟨-, copy, hcopy, rfl⟩
  · exact h
  · have hdropped : Proper { c with working := c.working.filter (·.1 ≠ id) } :=
      ⟨h.entries, fun x hx => h.working x (List.mem_of_mem_filter hx)⟩
    exact hdropped.modify fun l _ => (h.working _ hcopy).fold l

lemma marked (h : c.Proper) : (c.modify id fun l => { l with saved := true }).Proper :=
  h.modify fun l hl => ⟨(h.entries l hl).named, (h.entries l hl).filled⟩

lemma save (h : c.Proper) (hsave : c.save id = .ok d) : d.Proper := by
  obtain ⟨⟨committed, e⟩, hcommit, hrest⟩ := Breakpoint.ok_of_bind_eq_ok hsave
  obtain rfl := Except.ok.inj hrest
  exact (h.commit hcommit).marked

lemma clone (h : c.Proper) {copy : Nat} (hclone : c.clone id = .ok (copy, d)) : d.Proper := by
  obtain ⟨source, hrequire, hrest⟩ := Breakpoint.ok_of_bind_eq_ok hclone
  obtain rfl : _ = d := congrArg Prod.snd (Except.ok.inj hrest)
  exact h.add _ ((h.of_get? (get?_of_require hrequire)).copied _)

lemma delete (h : c.Proper) (id : Nat) : (c.delete id).2.Proper := by
  have hdropped : ∀ x ∈ c.working.filter (·.1 ≠ id), x.2.Proper := fun x hx => h.working x (List.mem_of_mem_filter hx)
  unfold Catalog.delete
  dsimp only
  split
  · exact ⟨fun l hl => h.entries l (List.mem_of_mem_filter hl), hdropped⟩
  · exact ⟨h.entries, hdropped⟩

end Proper

/-! ## Creating -/

/-- The configuration that an editor asks for, under the next id. -/
def made (c : Catalog) (n : NewLaunch) : Launch :=
  { id := c.nextId, name := n.name, language := n.language, type := n.type, mode := n.mode, project := n.project
    attributes := n.attributes }

/-- The catalog with it. -/
def stocked (c : Catalog) (n : NewLaunch) : Catalog :=
  (c.create n.name n.language n.project n.mode).2.modify c.nextId fun _ => c.made n

lemma get?_stocked (c : Catalog) (n : NewLaunch) :
    (c.stocked n).get? = Function.update c.get? c.nextId (some (c.made n)) := by
  have hadd : (c.create n.name n.language n.project n.mode).2.get? = _ := get?_add rfl
  have hmodify : (c.stocked n).get? = Function.update (c.create n.name n.language n.project n.mode).2.get? c.nextId
      (((c.create n.name n.language n.project n.mode).2.get? c.nextId).map fun _ => c.made n) := get?_modify fun _ _ => rfl
  rw [hmodify, hadd, Function.update_self, Function.update_idem]
  rfl

lemma mem_stocked {n : NewLaunch} (hl : l ∈ (c.stocked n).entries) : l = c.made n ∨ l.id ≠ c.nextId ∧ l ∈ c.entries := by
  obtain ⟨x, hx, rfl⟩ := List.mem_map.mp hl
  split
  · exact .inl rfl
  · next hid =>
    rcases inserts.mem hx with rfl | hx
    · exact absurd rfl hid
    · exact .inr ⟨hid, hx⟩

/-- A new configuration is filled before it is saved. -/
lemma createIn_eq {n : NewLaunch} (hname : Text.trim n.name ≠ "") (c : Catalog) :
    createIn n c = if n.save then
      (c.stocked n).save c.nextId >>= fun d => .ok ((d.get? c.nextId).getD (c.made n), d)
    else .ok (c.made n, c.stocked n) := by
  have hget : (c.create n.name n.language n.project n.mode).2.get? c.nextId = some _ :=
    (congrFun (get?_add rfl) _).trans (Function.update_self ..)
  have hedit := edit_of_unsaved hget rfl (filled n)
  unfold createIn
  rw [if_neg hname]
  show ((c.create n.name n.language n.project n.mode).2.edit c.nextId (filled n) >>= _) = _
  rw [hedit]
  rfl

lemma createIn_nameless {n : NewLaunch} (hname : Text.trim n.name = "") (c : Catalog) :
    createIn n c = .error .namelessLaunch := by
  unfold createIn
  rw [if_pos hname]
  rfl

/-- What is saved as soon as it is made is folded with a working copy, if its number had one. -/
lemma save_stocked (c : Catalog) (n : NewLaunch) : (c.stocked n).save c.nextId = .ok
    (match c.pending? c.nextId with
      | none => (c.stocked n).modify c.nextId fun l => { l with saved := true }
      | some copy => ({ c.stocked n with working := (c.stocked n).working.filter (·.1 ≠ c.nextId) }.modify c.nextId
          fun l => fold l copy).modify c.nextId fun l => { l with saved := true }) := by
  have hget : (c.stocked n).get? c.nextId = some (c.made n) :=
    (congrFun (get?_stocked c n) _).trans (Function.update_self ..)
  cases hpending : c.pending? c.nextId with
  | none => exact save_of_commit (commit_of_clean hget hpending)
  | some copy => exact save_of_commit (commit_of_pending hget hpending)

end Changes

end Catalog

open Catalog

/-! ## Requests -/

/-- What an editor asks about launch configurations. -/
inductive Request where
  | create (n : NewLaunch)
  | clone (id : Nat)
  | edit (id : Nat) (e : LaunchEdit)
  | commit (id : Nat)
  | save (id : Nat)
  | delete (id : Nat)

namespace Request

/-- The work of a request. -/
def work : Request → DebugWork Unit
  | create n => do
    let _ ← createLaunch n
  | clone id => do
    let _ ← cloneLaunch id
  | edit id e => do
    let _ ← editLaunch id e
  | commit id => do
    let _ ← commitLaunch id
  | save id => do
    let _ ← saveLaunch id
  | delete id => deleteLaunch id

/-- The world when a request is done; no request waits for anything. -/
def serve (w : World) (r : Request) : World := (r.work.outcome.stretch w).2

/-- The catalog that a request leads to. -/
def leads (c : Catalog) : Request → Catalog
  | create n => match createIn n c with | .ok (_, d) => d | .error _ => c
  | clone id => match c.clone id with | .ok (_, d) => d | .error _ => c
  | edit id e => match c.edit id e.apply with | .ok (_, d) => d | .error _ => c
  | commit id => match c.commit id with | .ok (_, d) => d | .error _ => c
  | save id => match c.save id with | .ok d => d | .error _ => c
  | delete id => (c.delete id).2

lemma leads_create (c : Catalog) (n : NewLaunch) :
    (create n).leads c = match createIn n c with | .ok (_, d) => d | .error _ => c := by
  -- not by `rfl`, which would go into `createIn`
  rw [leads]

lemma leads_clone (c : Catalog) (id : Nat) :
    (clone id).leads c = match c.clone id with | .ok (_, d) => d | .error _ => c := rfl

lemma leads_edit (c : Catalog) (id : Nat) (e : LaunchEdit) :
    (edit id e).leads c = match c.edit id e.apply with | .ok (_, d) => d | .error _ => c := rfl

lemma leads_commit (c : Catalog) (id : Nat) :
    (commit id).leads c = match c.commit id with | .ok (_, d) => d | .error _ => c := rfl

lemma leads_save (c : Catalog) (id : Nat) :
    (save id).leads c = match c.save id with | .ok d => d | .error _ => c := rfl

lemma leads_delete (c : Catalog) (id : Nat) : (delete id).leads c = (c.delete id).2 := rfl

/-- A request leaves a configuration that is not as it should be: it creates one with an empty attribute, or gives one a
blank name. (What is created and saved at once is hidden by a working copy that its number had before, should numbers
have come round.) -/
def Spoils (c : Catalog) : Request → Prop
  | create n => Text.trim n.name ≠ "" ∧ (∃ x ∈ n.attributes, x.2 = "") ∧ (n.save = true → c.pending? c.nextId = none)
  | edit id e => (c.get? id).isSome ∧ ∃ name ∈ e.name, Text.trim name = ""
  | _ => False

/-- Work of one access is done at once. -/
lemma stretch_act {α : Type} (f : World → Except Fault α × World) (w : World) :
    (Attempt.act f : DebugWork α).outcome.stretch w = (.done (f w).1, (f w).2) := rfl

lemma stretch_act_bind {α : Type} (f : World → Except Fault α × World) (w : World) :
    ((do let _ ← Attempt.act f : DebugWork Unit).outcome.stretch w).2 = (f w).2 := by
  show ((ExceptT.bindCont (fun _ => pure ()) (f w).1 : Task Wait World (Except Fault Unit)).stretch (f w).2).2 = (f w).2
  cases (f w).1 with
  | error e => rfl
  | ok a => rfl

/-- A request leads from catalog to catalog. -/
lemma launches_serve (w : World) (r : Request) : (r.serve w).debugger.launches = r.leads w.debugger.launches := by
  cases r with
  | create n =>
    unfold serve work createLaunch onLaunches
    rw [stretch_act_bind, leads_create]
    cases createIn n w.debugger.launches with
    | error e => rfl
    | ok made =>
      dsimp only
      split <;> rfl
  | clone id =>
    unfold serve work cloneLaunch onLaunches
    rw [stretch_act_bind, leads_clone]
    beta_reduce
    cases w.debugger.launches.clone id with
    | error e => rfl
    | ok copy => rfl
  | edit id e =>
    unfold serve work editLaunch onLaunches
    rw [stretch_act_bind, leads_edit]
    beta_reduce
    cases w.debugger.launches.edit id e.apply with
    | error e => rfl
    | ok edited =>
      dsimp only
      split <;> rfl
  | commit id =>
    unfold serve work commitLaunch
    rw [stretch_act_bind, leads_commit]
    cases w.debugger.launches.commit id with
    | error e => rfl
    | ok committed =>
      dsimp only
      split <;> rfl
  | save id =>
    unfold serve work saveLaunch onLaunches
    rw [stretch_act_bind, leads_save]
    beta_reduce
    cases w.debugger.launches.save id with
    | error e => rfl
    | ok d => rfl
  | delete id =>
    unfold serve work deleteLaunch
    rw [stretch_act, leads_delete]
    rcases w.debugger.launches.delete id with ⟨e | l, d⟩
    · rfl
    · rfl

/-- A configuration that is created as asked. -/
lemma proper_stocked {c : Catalog} (h : c.Proper) {n : NewLaunch} (hname : Text.trim n.name ≠ "")
    (hfilled : ∀ x ∈ n.attributes, x.2 ≠ "") : (c.stocked n).Proper := by
  have hmade : (c.made n).Proper := ⟨hname, hfilled⟩
  refine ⟨fun l hl => ?_, h.working⟩
  rcases mem_stocked hl with rfl | ⟨-, hl⟩
  · exact hmade
  · exact h.entries l hl

/-- What is created is as it should be unless an attribute is empty. -/
lemma proper_create_iff {c : Catalog} (h : c.Proper) (n : NewLaunch) :
    ((create n).leads c).Proper ↔ ¬ (create n).Spoils c := by
  by_cases hname : Text.trim n.name = ""
  · rw [leads_create, createIn_nameless hname]
    exact iff_of_true h fun hspoils => hspoils.1 hname
  have hsaved : n.save = true → ∃ l : Catalog → Launch, createIn n c = (c.stocked n).save c.nextId >>= fun d => .ok (l d, d) := by
    intro hsave
    refine ⟨fun d => (d.get? c.nextId).getD (c.made n), ?_⟩
    rw [createIn_eq hname, if_pos hsave]
  by_cases hfilled : ∀ x ∈ n.attributes, x.2 ≠ ""
  · refine iff_of_true ?_ ?_
    · have hstocked := proper_stocked h hname hfilled
      cases hsave : n.save with
      | false =>
        rw [leads_create, createIn_eq hname, if_neg (by simp [hsave])]
        exact hstocked
      | true =>
        obtain ⟨l, hcreate⟩ := hsaved hsave
        have hsaving := save_stocked c n
        rw [leads_create, hcreate, hsaving]
        exact hstocked.save hsaving
    · rintro ⟨-, ⟨x, hx, hempty⟩, -⟩
      exact hfilled x hx hempty
  · have hempty : ∃ x ∈ n.attributes, x.2 = "" := by
      push Not at hfilled
      exact hfilled
    have hmade : ¬ (c.made n).Proper := fun hproper => hfilled hproper.filled
    have hthere : (c.stocked n).get? c.nextId = some (c.made n) :=
      (congrFun (get?_stocked c n) _).trans (Function.update_self ..)
    cases hsave : n.save with
    | false =>
      refine iff_of_false ?_ fun hnot => hnot ⟨hname, hempty, fun htrue => absurd (hsave.symm.trans htrue) (by simp)⟩
      rw [leads_create, createIn_eq hname, if_neg (by simp [hsave])]
      exact fun hproper => hmade (hproper.of_get? hthere)
    | true =>
      obtain ⟨l, hcreate⟩ := hsaved hsave
      have hsaving := save_stocked c n
      rw [leads_create, hcreate, hsaving]
      cases hpending : c.pending? c.nextId with
      | none =>
        refine iff_of_false (fun hproper => ?_) fun hnot => hnot ⟨hname, hempty, fun _ => hpending⟩
        have hmark : ((c.stocked n).modify c.nextId fun l => { l with saved := true }).get? c.nextId
            = some { c.made n with saved := true } := by
          rw [get?_modify (f := fun l => { l with saved := true }) fun _ hid => hid, hthere, Function.update_self]
          rfl
        have hmarked : ({ c.made n with saved := true } : Launch).Proper := hproper.of_get? hmark
        exact hmade ⟨hmarked.named, hmarked.filled⟩
      | some copy =>
        -- the working copy takes the place of what was asked for
        refine iff_of_true (Catalog.Proper.marked ⟨fun x hx => ?_, fun x hx => ?_⟩) fun hspoils => ?_
        · obtain ⟨y, hy, rfl⟩ := List.mem_map.mp hx
          split
          · exact (h.of_pending? hpending).fold y
          · next hid =>
            rcases mem_stocked hy with rfl | ⟨-, hy⟩
            · exact absurd rfl hid
            · exact h.entries y hy
        · exact h.working x (List.mem_of_mem_filter hx)
        · cases hpending.symm.trans (hspoils.2.2 hsave)

/-- What is edited is as it should be unless it is given a blank name. -/
lemma proper_edit_iff {c : Catalog} (h : c.Proper) (id : Nat) (e : LaunchEdit) :
    ((edit id e).leads c).Proper ↔ ¬ (edit id e).Spoils c := by
  cases hget : c.get? id with
  | none =>
    rw [leads_edit, edit_of_none hget]
    exact iff_of_true h fun hspoils => by simp [Spoils, hget] at hspoils
  | some l =>
    by_cases hname : ∃ name ∈ e.name, Text.trim name = ""
    · refine iff_of_false ?_ fun hnot => hnot ⟨by simp [hget], hname⟩
      obtain ⟨name, hsome, hblank⟩ := hname
      have hnot : ∀ l : Launch, ¬ (e.apply l).Proper := fun l hproper => by
        apply hproper.named
        rw [name_apply, Option.mem_def.mp hsome]
        exact hblank
      rw [leads_edit]
      cases hsaved : l.saved with
      | false =>
        rw [edit_of_unsaved hget hsaved]
        have hid : (e.apply l).id = id := ((mild_apply e).id l).trans (id_of_get? hget)
        have hedited : (c.modify id fun _ => e.apply l).get? id = some (e.apply l) := by
          rw [get?_modify (f := fun _ => e.apply l) fun _ _ => hid, hget, Function.update_self]
          rfl
        exact fun hproper => hnot l (hproper.of_get? hedited)
      | true =>
        obtain ⟨working, hedit, hworking⟩ := edit_of_saved hget hsaved e.apply
        rw [hedit]
        have hpending := (congrFun hworking id).trans (Function.update_self ..)
        exact fun hproper => hnot _ (hproper.of_pending? hpending)
    · refine iff_of_true ?_ fun hspoils => hname hspoils.2
      have hnames : ∀ name ∈ e.name, Text.trim name ≠ "" := fun name hsome hblank => hname ⟨name, hsome, hblank⟩
      rw [leads_edit]
      cases hedit : c.edit id e.apply with
      | error fault => exact h
      | ok edited => exact h.edit (fun _ hl => hl.edited hnames) hedit

/-- What one request makes of a catalog in which all is as it should be. -/
theorem proper_leads_iff {c : Catalog} (h : c.Proper) (r : Request) : (r.leads c).Proper ↔ ¬ r.Spoils c := by
  cases r with
  | create n => exact proper_create_iff h n
  | edit id e => exact proper_edit_iff h id e
  | clone id =>
    refine iff_of_true ?_ fun hspoils => hspoils
    rw [leads_clone]
    cases hclone : c.clone id with
    | error fault => exact h
    | ok copy => exact h.clone hclone
  | commit id =>
    refine iff_of_true ?_ fun hspoils => hspoils
    rw [leads_commit]
    cases hcommit : c.commit id with
    | error fault => exact h
    | ok committed => exact h.commit hcommit
  | save id =>
    refine iff_of_true ?_ fun hspoils => hspoils
    rw [leads_save]
    cases hsave : c.save id with
    | error fault => exact h
    | ok d => exact h.save hsave
  | delete id => exact iff_of_true (h.delete id) fun hspoils => hspoils

/-! ## Numbers -/

/-- While numbers last a request uses up at most one. -/
lemma kept_leads {c : Catalog} (h : Kept c) (hroom : c.nextId + 2 < idLimit) (r : Request) :
    Kept (r.leads c) ∧ (r.leads c).nextId ≤ c.nextId + 1 := by
  have hone : ∀ (op : Operation) (d : Catalog), Kept d → d.nextId + 1 < idLimit →
      Kept (op.apply d) ∧ (op.apply d).nextId ≤ d.nextId + 1 := by
    intro op d hd hnext
    refine ⟨(hd.apply hnext op).1, ?_⟩
    rcases op.entries_apply d with ⟨-, -, -, heq⟩ | ⟨-, heq⟩
    · rw [heq]
      exact Nat.mod_le _ _
    · omega
  cases r with
  | create n =>
    by_cases hname : Text.trim n.name = ""
    · rw [leads_create, createIn_nameless hname]
      exact ⟨h, Nat.le_succ _⟩
    let added := (c.create n.name n.language n.project n.mode).2
    obtain ⟨hadded, hcount⟩ := hone (.create n.name n.language n.project n.mode) c h (by omega)
    replace hcount : added.nextId ≤ c.nextId + 1 := hcount
    have hstocked : Kept (c.stocked n) := by
      have hget : added.get? c.nextId = some _ := (congrFun (get?_add rfl) _).trans (Function.update_self ..)
      have hfill := (hone (.edit c.nextId (filled n)) added hadded (by omega)).1
      have hamend : Operation.amend (filled n) = filled n := rfl
      rw [Operation.apply, hamend, edit_of_unsaved hget rfl (filled n)] at hfill
      exact hfill
    rw [leads_create, createIn_eq hname]
    cases hsave : n.save with
    | false =>
      rw [if_neg Bool.false_ne_true]
      exact ⟨hstocked, hcount⟩
    | true =>
      have hsaved := (hone (.save c.nextId) (c.stocked n) hstocked (Nat.lt_of_le_of_lt (Nat.succ_le_succ hcount) (by omega))).1
      rw [if_pos rfl]
      rw [Operation.apply, save_stocked] at hsaved
      rw [save_stocked]
      refine ⟨hsaved, ?_⟩
      cases hpending : c.pending? c.nextId with
      | none => exact hcount
      | some copy => exact hcount
  | clone id => exact hone (.clone id) c h (by omega)
  | edit id e =>
    have hedited := hone (.edit id e.apply) c h (by omega)
    rw [Operation.apply, amend_apply] at hedited
    exact hedited
  | commit id => exact hone (.commit id) c h (by omega)
  | save id => exact hone (.save id) c h (by omega)
  | delete id => exact hone (.delete id) c h (by omega)

end Request

/-! ## Runs -/

/-- The world after requests, one after the other. -/
def served (w : World) (requests : List Request) : World := requests.foldl (fun w r => r.serve w) w

variable {w : World} {requests : List Request}

lemma served_take_succ {n : Nat} (hn : n < requests.length) :
    served w (requests.take (n + 1)) = requests[n].serve (served w (requests.take n)) := by
  rw [served, List.take_succ_eq_append_getElem hn, List.foldl_concat]
  rfl

/-- Without a state file there are no configurations. -/
lemma launches_ofDisk {settings : Settings} {sources : Sources} {directory : Path} {d : Disk}
    (hnone : d.readText (Store.launchesPath ⟨directory⟩) = .error .notFound) :
    (Debugger.ofDisk settings sources directory d).launches = {} := by
  have hload : Store.loadLaunches ⟨directory⟩ d = .ok [] := by
    unfold Store.loadLaunches Store.readList
    rw [hnone]
    rfl
  show ofList ((Store.loadLaunches ⟨directory⟩ d).toOption.getD []) = {}
  rw [hload]
  rfl

/-- While numbers last, the next number is one that no working copy has. -/
lemma pending?_nextId (hstart : w.debugger.launches = {}) {n : Nat} (hn : n ≤ requests.length) (hroom : n + 2 < idLimit) :
    let c := (served w (requests.take n)).debugger.launches
    c.pending? c.nextId = none := by
  have hkept : ∀ m ≤ n, Kept (served w (requests.take m)).debugger.launches ∧
      (served w (requests.take m)).debugger.launches.nextId ≤ m + 1 := by
    intro m
    induction m with
    | zero =>
      intro _
      rw [List.take_zero, served, List.foldl_nil, hstart]
      exact ⟨Kept.ofList [], Nat.le_refl _⟩
    | succ m ih =>
      intro hm
      obtain ⟨hkept, hcount⟩ := ih (Nat.le_of_succ_le hm)
      rw [served_take_succ (by omega), Request.launches_serve]
      obtain ⟨hnext, hup⟩ := Request.kept_leads hkept (by omega) requests[m]
      exact ⟨hnext, by omega⟩
  obtain ⟨hhere, hcount⟩ := hkept n (Nat.le_refl _)
  exact hhere.pending?_of_none (hhere.get?_nextId (by omega))

/-- Catalogs stay as they should be exactly if no request of a run spoils one. -/
lemma proper_served_iff (hstart : w.debugger.launches = {}) :
    (∀ n ≤ requests.length, (served w (requests.take n)).debugger.launches.Proper) ↔
      ∀ n (hn : n < requests.length), ¬ requests[n].Spoils (served w (requests.take n)).debugger.launches := by
  constructor
  · intro hproper n hn
    have hnext := hproper (n + 1) hn
    rw [served_take_succ hn, Request.launches_serve] at hnext
    exact (Request.proper_leads_iff (hproper n (Nat.le_of_lt hn)) requests[n]).mp hnext
  · intro hunspoiled n hn
    induction n with
    | zero =>
      rw [List.take_zero, served, List.foldl_nil, hstart]
      exact ⟨nofun, nofun⟩
    | succ n ih =>
      rw [served_take_succ hn, Request.launches_serve]
      exact (Request.proper_leads_iff (ih (Nat.le_of_lt hn)) requests[n]).mpr (hunspoiled n hn)

/-! ## Created with attributes, and given them later -/

/-- On a configuration without attributes an edit leaves those that are not empty. -/
lemma foldl_setAttribute_ordered {attributes : List (Attribute × String)} (h : Ordered attributes) {l : Launch}
    (hl : l.attributes = []) :
    (attributes.foldl (fun l x => l.setAttribute x.1 x.2) l).attributes = attributes.filter (·.2 ≠ "") := by
  have hfold : ∀ (rest : List (Attribute × String)) (l : Launch), Ordered (l.attributes ++ rest) →
      (rest.foldl (fun l x => l.setAttribute x.1 x.2) l).attributes = l.attributes ++ rest.filter (·.2 ≠ "") := by
    intro rest
    induction rest with
    | nil => exact fun l _ => (List.append_nil _).symm
    | cons x rest ih =>
      intro l hordered
      obtain ⟨hbefore, hrest, hacross⟩ := List.pairwise_append.mp hordered
      have hlast : ∀ y ∈ l.attributes, y.1.rank < x.1.rank := fun y hy => hacross y hy x List.mem_cons_self
      rw [List.foldl_cons]
      by_cases hx : x.2 = ""
      · have hsame : (l.setAttribute x.1 x.2).attributes = l.attributes := by
          rw [setAttribute, if_pos hx]
          refine List.filter_eq_self.mpr fun y hy => decide_eq_true fun heq => ?_
          exact absurd (hlast y hy) (by rw [heq]; exact lt_irrefl _)
        have hnext : Ordered ((l.setAttribute x.1 x.2).attributes ++ rest) := by
          rw [hsame]
          exact hordered.sublist (List.Sublist.append_left (List.sublist_cons_self x rest) _)
        rw [ih _ hnext, hsame, List.filter_cons_of_neg (by simp [hx])]
      · have hput : (l.setAttribute x.1 x.2).attributes = l.attributes ++ [x] := by
          rw [setAttribute, if_neg hx]
          exact inserts_attributes.last (x := x) hlast
        have hnext : Ordered ((l.setAttribute x.1 x.2).attributes ++ rest) := by
          rw [hput, List.append_assoc]
          exact hordered
        rw [ih _ hnext, hput, List.append_assoc, List.filter_cons_of_pos (by simp [hx])]
        rfl
  have hall := hfold attributes l (by rwa [hl])
  rwa [hl] at hall

/-- What is created under a number that no working copy has is what was asked for. -/
lemma createIn_fresh {n : NewLaunch} (hname : Text.trim n.name ≠ "") {c : Catalog}
    (hfresh : c.pending? c.nextId = none) :
    ∃ l d, createIn n c = .ok (l, d) ∧ l.attributes = n.attributes ∧ d.get? l.id = some l ∧ d.pending? l.id = none := by
  have hget : (c.stocked n).get? c.nextId = some (c.made n) :=
    (congrFun (get?_stocked c n) _).trans (Function.update_self ..)
  rw [createIn_eq hname]
  cases hsave : n.save with
  | false =>
    rw [if_neg Bool.false_ne_true]
    exact ⟨c.made n, c.stocked n, rfl, rfl, hget, hfresh⟩
  | true =>
    let d := (c.stocked n).modify c.nextId fun l => { l with saved := true }
    have hsaving : (c.stocked n).save c.nextId = .ok d := by
      rw [save_stocked, hfresh]
    have hsaved : d.get? c.nextId = some { c.made n with saved := true } := by
      refine (congrFun (get?_modify (f := fun l => { l with saved := true }) fun _ hid => hid) _).trans ?_
      rw [hget, Function.update_self]
      rfl
    rw [if_pos rfl, hsaving]
    refine ⟨{ c.made n with saved := true }, d, ?_, rfl, hsaved, hfresh⟩
    show Except.ok ((d.get? c.nextId).getD (c.made n), d) = _
    rw [hsaved]
    rfl

/-- An edit without a working copy begins with what is there. -/
lemma edit_of_clean {c : Catalog} {id : Nat} {l : Launch} (hget : c.get? id = some l) (hpending : c.pending? id = none)
    (f : Launch → Launch) : ∃ d, c.edit id f = .ok (f l, d) := by
  cases hsaved : l.saved with
  | false => exact ⟨_, edit_of_unsaved hget hsaved f⟩
  | true =>
    obtain ⟨working, hedit, -⟩ := edit_of_saved hget hsaved f
    rw [hpending] at hedit
    exact ⟨_, hedit⟩

/-- A configuration is created with its attributes. -/
def createdWith (n : NewLaunch) (attributes : List (Attribute × String)) : DebugWork Launch :=
  createLaunch { n with attributes }

/-- A configuration is created without attributes, and given them by an edit. -/
def createdAndEdited (n : NewLaunch) (attributes : List (Attribute × String)) : DebugWork Launch := do
  let l ← createLaunch { n with attributes := [] }
  editLaunch l.id { attributes }

lemma stretch_createLaunch {n : NewLaunch} {l : Launch} {d : Catalog} (h : createIn n w.debugger.launches = .ok (l, d)) :
    ∃ w', (createLaunch n).outcome.stretch w = (.done (.ok l), w') ∧ w'.debugger.launches = d := by
  unfold createLaunch onLaunches
  rw [Request.stretch_act, h]
  refine ⟨_, rfl, ?_⟩
  dsimp only
  split <;> rfl

/-- What each of the two ways gives. -/
lemma attributes_created (hfresh : w.debugger.launches.pending? w.debugger.launches.nextId = none) {n : NewLaunch}
    (hname : Text.trim n.name ≠ "") {attributes : List (Attribute × String)} (h : Ordered attributes) :
    ∃ l w₁ l' w₂, (createdWith n attributes).outcome.stretch w = (.done (.ok l), w₁) ∧
      (createdAndEdited n attributes).outcome.stretch w = (.done (.ok l'), w₂) ∧
      l.attributes = attributes ∧ l'.attributes = attributes.filter (·.2 ≠ "") := by
  obtain ⟨l, d, hcreate, hattributes, -, -⟩ := createIn_fresh (n := { n with attributes }) hname hfresh
  obtain ⟨w₁, hrun, -⟩ := stretch_createLaunch hcreate
  obtain ⟨bare, d', hbare, hnone, hget, hpending⟩ := createIn_fresh (n := { n with attributes := [] }) hname hfresh
  obtain ⟨w', hrun', rfl⟩ := stretch_createLaunch hbare
  obtain ⟨e, hedit⟩ := edit_of_clean hget hpending (LaunchEdit.apply { attributes })
  have hgiven : ∃ w₂, (editLaunch bare.id { attributes }).outcome.stretch w' =
      (.done (.ok (LaunchEdit.apply { attributes } bare)), w₂) := by
    unfold editLaunch onLaunches
    rw [Request.stretch_act]
    beta_reduce
    rw [hedit]
    exact ⟨_, rfl⟩
  obtain ⟨w₂, hgiven⟩ := hgiven
  refine ⟨l, w₁, LaunchEdit.apply { attributes } bare, w₂, hrun, ?_, hattributes, ?_⟩
  · exact (Task.stretch_andThen_of_done hrun' _).trans hgiven
  · exact foldl_setAttribute_ordered h hnone

/-! ## Well-formed configurations -/

/-- Which requests leave configurations as they should be, from an empty state directory on. At all times every
configuration and every working copy has a name that is not blank and no empty attribute exactly if none of the requests
that were carried out created one with an empty attribute or gave one a blank name. To create one with attributes is to
create it without and give it those that are not empty, so the two come to the same exactly if none of them is. (Both
under a number that no working copy has, as is always so while numbers last.) -/
theorem well_formed_iff (settings : Settings) (sources : Sources) (directory : Path) (w : World)
    (hstart : w.debugger = .ofDisk settings sources directory w.disk)
    (hempty : w.disk.readText (Store.launchesPath ⟨directory⟩) = .error .notFound) (requests : List Request) :
    let catalog := fun n => (served w (requests.take n)).debugger.launches
    ((∀ n ≤ requests.length, (catalog n).Proper) ↔
      ∀ n (hn : n < requests.length), ¬ requests[n].Spoils (catalog n)) ∧
    (∀ n ≤ requests.length, (catalog n).pending? (catalog n).nextId = none →
      ∀ (new : NewLaunch) (attributes : List (Attribute × String)), Text.trim new.name ≠ "" → Ordered attributes →
        ∃ l w₁ l' w₂, (createdWith new attributes).outcome.stretch (served w (requests.take n)) = (.done (.ok l), w₁) ∧
          (createdAndEdited new attributes).outcome.stretch (served w (requests.take n)) = (.done (.ok l'), w₂) ∧
          l.attributes = attributes ∧ l'.attributes = attributes.filter (·.2 ≠ "") ∧
          (l.attributes = l'.attributes ↔ ∀ x ∈ attributes, x.2 ≠ "")) ∧
    ∀ n ≤ requests.length, n + 2 < idLimit → (catalog n).pending? (catalog n).nextId = none := by
  intro catalog
  have hlaunches : w.debugger.launches = {} := by
    rw [hstart]
    exact launches_ofDisk hempty
  refine ⟨proper_served_iff hlaunches, ?_, fun n hn hroom => pending?_nextId hlaunches hn hroom⟩
  intro n _ hfresh new attributes hname hordered
  obtain ⟨l, w₁, l', w₂, hrun, hrun', hl, hl'⟩ := attributes_created hfresh hname hordered
  refine ⟨l, w₁, l', w₂, hrun, hrun', hl, hl', ?_⟩
  rw [hl, hl', eq_comm, List.filter_eq_self]
  simp only [decide_eq_true_eq]

/-- A configuration is created with an empty program, and then given a blank name. -/
theorem ill_formed_emptied :
    let empty : List (Attribute × String) := [(.program, "")]
    let requests : List Request :=
      [.create { name := "Main", language := "java", project := "demo", attributes := empty }, .edit 1 { name := some " " }]
    let w : World := { debugger := .ofDisk {} {} ⟨"state"⟩ {} }
    ¬ (∀ n ≤ requests.length, (served w (requests.take n)).debugger.launches.Proper) ∧
      (∃ n, ∃ hn : n < requests.length, requests[n].Spoils (served w (requests.take n)).debugger.launches) ∧
      ∃ l ∈ (served w requests).debugger.launches.entries, l.attributes = empty ∧ l.name = " " := by
  intro empty requests w
  have hspoils : requests[0].Spoils (served w (requests.take 0)).debugger.launches :=
    ⟨by decide, ⟨(.program, ""), List.mem_singleton_self _, rfl⟩, nofun⟩
  refine ⟨fun hproper => ?_, ⟨0, by decide, hspoils⟩, ?_⟩
  · exact (well_formed_iff {} {} ⟨"state"⟩ w rfl (by decide +kernel) requests).1.mp hproper 0 (by decide) hspoils
  · decide +kernel

end Debug.Launch

end Switchboard
