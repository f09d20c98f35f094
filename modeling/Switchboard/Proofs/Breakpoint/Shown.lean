import Switchboard.Debug.Target
import Switchboard.Proofs.Breakpoint.Topics
import Switchboard.Proofs.Debug.Stored

/-!
# Breakpoints as an editor sees them

An editor sees breakpoints by id, without their anchors. What it is told of one adds, replaces or removes what it has
under its id.

* `Change.revise`, `hear`: what an editor has after what it is told;
* `Catalog.shown`: what there is to see of a catalog;
* `Catalog.Told`: what an editor is told leads it from one catalog to another;
* `told_addLine`, `told_followAll`, `told_applyVerification` and so on: what is told of each operation does.

None of this depends on the counter of ids: an id that is given out again takes the place of the one before.
-/

namespace Switchboard.Debug

/-- What there is by id after something is told of one thing. -/
def Change.revise {α : Type} (what : Change) (id : Nat) (x : α) (known : Nat → Option α) : Nat → Option α :=
  match what with
  | add => Function.update known id (some x)
  | change => Function.update known id ((known id).map fun _ => x)
  | remove => Function.update known id none

namespace Breakpoint

/-- A breakpoint as an editor sees it. -/
def unanchored (b : Breakpoint) : Breakpoint := { b with kind := b.kind.stored }

/-- What an editor has of breakpoints when it is told of some of them, one after the other. -/
def hear (what : Change) (known : Nat → Option Breakpoint) (told : List Breakpoint) : Nat → Option Breakpoint :=
  told.foldl (fun known b => what.revise b.id b.unanchored known) known

lemma hear_singleton (what : Change) (known : Nat → Option Breakpoint) (b : Breakpoint) :
    hear what known [b] = what.revise b.id b.unanchored known := rfl

lemma hear_append (what : Change) (known : Nat → Option Breakpoint) (told more : List Breakpoint) :
    hear what known (told ++ more) = hear what (hear what known told) more := List.foldl_append

namespace Catalog

/-- What an editor sees of a catalog. -/
def shown (c : Catalog) (id : Nat) : Option Breakpoint := (c.get? id).map unanchored

/-! ## Reading a catalog id by id -/

section Reading

variable {c : Catalog} {id : Nat} {b : Breakpoint}

lemma id_of_get? (h : c.get? id = some b) : b.id = id := by
  simpa using List.find?_some h

lemma shown_of_get? (h : c.get? id = some b) : c.shown id = some b.unanchored := by
  rw [shown, h]
  rfl

/-- One breakpoint is put in, under an id that may have been in use. -/
lemma shown_put {d : Catalog} (h : d.entries = insertOrdered b c.entries) :
    d.shown = Function.update c.shown b.id (some b.unanchored) := by
  funext id
  rw [shown, get?, h, inserts.find?, Function.update_apply]
  by_cases hid : id = b.id
  · rw [if_pos hid, if_pos hid.symm]
    rfl
  · rw [if_neg hid, if_neg (Ne.symm hid)]
    rfl

/-- A change that keeps the id is seen under that id alone. -/
lemma get?_modify {f : Breakpoint → Breakpoint} (hf : ∀ b, b.id = id → (f b).id = id) :
    (c.modify id f).get? = Function.update c.get? id ((c.get? id).map f) :=
  Keyed.find?_modify Breakpoint.id hf c.entries

lemma shown_modify {f : Breakpoint → Breakpoint} (hf : ∀ b, b.id = id → (f b).id = id) :
    (c.modify id f).shown = Function.update c.shown id ((c.get? id).map fun b => (f b).unanchored) := by
  funext k
  rw [shown, get?_modify hf]
  by_cases hk : k = id
  · subst hk
    rw [Function.update_self, Function.update_self, Option.map_map]
    rfl
  · rw [Function.update_of_ne hk, Function.update_of_ne hk]
    rfl

/-- A change of anchors is not seen. -/
lemma shown_modify_same {f : Breakpoint → Breakpoint} (hf : ∀ b, b.id = id → (f b).id = id)
    (hsame : ∀ b, c.get? id = some b → (f b).unanchored = b.unanchored) : (c.modify id f).shown = c.shown := by
  rw [shown_modify hf, Option.map_congr hsame]
  exact Function.update_eq_self id c.shown

lemma Listed.modify (h : c.Listed) {f : Breakpoint → Breakpoint} (hf : ∀ b, b.id = id → (f b).id = id) :
    (c.modify id f).Listed := by
  refine List.pairwise_map.mpr (List.Pairwise.imp ?_ h)
  intro a b hlt
  rw [Keyed.key_modify hf, Keyed.key_modify hf]
  exact hlt

lemma Listed.put {d : Catalog} (h : c.Listed) (hd : d.entries = insertOrdered b c.entries) : d.Listed := by
  rw [Listed, hd]
  exact inserts.pairwise b h

/-- Whatever was stored, no id is there twice. -/
lemma listed_ofList (stored : List Breakpoint) : (ofList stored).Listed := by
  have hfold : ∀ (stored : List Breakpoint) (c : Catalog), c.Listed → (stored.foldl restore c).Listed := by
    intro stored
    induction stored with
    | nil => exact fun c h => h
    | cons b rest ih =>
      intro c h
      refine ih _ ?_
      rcases restore_cases c b with heq | ⟨heq, -⟩
      · rw [heq]
        exact h
      · rw [heq]
        exact h.put rfl
  exact hfold stored {} .nil

end Reading

/-! ## What is told of operations -/

/-- What an editor is told leads it from one catalog to another. -/
structure Told (what : Debug.Change) (told : List Breakpoint) (c d : Catalog) : Prop where
  listed : d.Listed
  shown : hear what c.shown told = d.shown

section Operations

variable {c d : Catalog} {id : Nat} {b : Breakpoint}

lemma told_addLine (h : c.Listed) {project : String} {path : Path} {line : Nat} {column : Option Nat}
    {anchor : Option Text.Anchor} (hadd : c.addLine project path line column anchor = (some id, d)) :
    Told .add (d.get? id).toList c d := by
  unfold addLine at hadd
  split at hadd
  · cases hadd
  · obtain ⟨hid, rfl⟩ := Prod.mk.inj hadd
    obtain rfl : c.nextId = id := Option.some.inj hid
    refine ⟨h.put rfl, ?_⟩
    rw [get?, inserts.find?, if_pos rfl]
    exact (shown_put rfl).symm

lemma told_setException (h : c.Listed) (caught uncaught : Bool) :
    let r := c.setException caught uncaught
    Told (if r.1.2 then .add else .change) (r.2.get? r.1.1).toList c r.2 := by
  dsimp only
  unfold setException
  cases hexception : c.exception? with
  | none =>
    refine ⟨h.put rfl, ?_⟩
    dsimp only [allocate, get?]
    rw [if_pos rfl, inserts.find?, if_pos rfl]
    exact (shown_put rfl).symm
  | some b =>
    obtain ⟨id, -, hget⟩ := Option.bind_eq_some_iff.mp hexception
    obtain rfl := id_of_get? hget
    have hid : ∀ a : Breakpoint, a.id = b.id → ({ a with kind := .exception caught uncaught } : Breakpoint).id = b.id :=
      fun _ h => h
    refine ⟨h.modify hid, ?_⟩
    dsimp only
    rw [get?_modify hid, Function.update_self, hget, shown_modify hid, hget]
    show Function.update c.shown b.id ((c.shown b.id).map _) = _
    rw [shown_of_get? hget]
    rfl

lemma told_remove (h : c.Listed) (hget : c.get? id = some b) : Told .remove [b] c (c.remove id).2 := by
  obtain rfl := id_of_get? hget
  have heq : (c.remove b.id).2.entries = c.entries.filter (·.id ≠ b.id) := by rw [remove, hget]
  refine ⟨?_, ?_⟩
  · rw [Listed, heq]
    exact h.filter _
  · funext k
    show Function.update c.shown b.id none k = _
    rw [shown, get?, heq, congrFun (Keyed.find?_without Breakpoint.id c.entries b.id) k, Function.update_apply,
      Function.update_apply]
    split
    · rfl
    · rfl

lemma told_replace (h : c.Listed) (hget : c.get? id = some b) {now : Breakpoint} (hnow : now.id = id) :
    Told .change [now] c (c.modify id fun _ => now) := by
  refine ⟨h.modify fun _ _ => hnow, ?_⟩
  rw [shown_modify fun _ _ => hnow, hear_singleton, hnow, hget]
  show Function.update c.shown id ((c.shown id).map _) = _
  rw [shown_of_get? hget]
  rfl

lemma told_clear : Told .remove c.entries c c.clear.2 := by
  refine ⟨.nil, ?_⟩
  have hgone : ∀ (told : List Breakpoint) (known : Nat → Option Breakpoint),
      hear .remove known told = fun id => if told.any (·.id = id) then none else known id := by
    intro told
    induction told with
    | nil => exact fun known => rfl
    | cons b rest ih =>
      intro known
      refine (ih _).trans (funext fun id => ?_)
      show (if _ then none else Function.update known b.id none id) = _
      rw [List.any_cons, Function.update_apply]
      by_cases hid : b.id = id
      · simp [hid]
      · simp [hid, Ne.symm hid]
  rw [hgone]
  funext id
  show _ = none
  split
  · rfl
  · next hnot =>
    rw [shown, Option.map_eq_none_iff]
    simpa [get?] using hnot

/-! ## Breakpoints that follow their anchors -/

/-- A breakpoint is moved, or it stays where it is. -/
lemma relocate_cases (c : Catalog) (id line : Nat) (anchor : Option Text.Anchor) :
    c.relocate id line anchor = (false, c) ∨ c.relocate id line anchor = (true, c.modify id (moved line anchor)) := by
  unfold relocate
  split
  · exact .inl rfl
  · split
    · split
      · exact .inl rfl
      · exact .inr rfl
    · exact .inr rfl

lemma id_moved (line : Nat) (anchor : Option Text.Anchor) (b : Breakpoint) : (moved line anchor b).id = b.id := by
  unfold moved
  split <;> rfl

/-- Sending one breakpoint to its anchor changes that one only, and it is given if a change is to be seen. -/
lemma told_follow (h : c.Listed) (hget : c.get? b.id = some b) (f : Text.Lines) (drift : Int) :
    Told .change (c.follow f drift b).1.toList c (c.follow f drift b).2 ∧
      ∀ id, id ≠ b.id → (c.follow f drift b).2.get? id = c.get? id := by
  have hmoved : ∀ line anchor (x : Breakpoint), x.id = b.id → (moved line anchor x).id = b.id :=
    fun line anchor x hx => (id_moved line anchor x).trans hx
  have hstays : Told .change [] c c ∧ ∀ id, id ≠ b.id → c.get? id = c.get? id := ⟨⟨h, rfl⟩, fun _ _ => rfl⟩
  have hother : ∀ line anchor id, id ≠ b.id → (c.modify b.id (moved line anchor)).get? id = c.get? id := by
    intro line anchor id hid
    rw [get?_modify (hmoved line anchor), Function.update_of_ne hid]
  unfold follow
  split
  · exact hstays
  · next project path line column hk =>
    split
    · next a _ =>
      -- it is anchored on its own line
      have hsame : (c.relocate b.id line (some a)).2.Listed ∧ (c.relocate b.id line (some a)).2.shown = c.shown ∧
          ∀ id, id ≠ b.id → (c.relocate b.id line (some a)).2.get? id = c.get? id := by
        rcases relocate_cases c b.id line (some a) with heq | heq
        · rw [heq]
          exact ⟨h, rfl, fun _ _ => rfl⟩
        · rw [heq]
          refine ⟨h.modify (hmoved _ _), shown_modify_same (hmoved _ _) fun x hx => ?_, hother _ _⟩
          obtain rfl := Option.some.inj (hget.symm.trans hx)
          simp [moved, unanchored, Kind.stored, hk]
      exact ⟨⟨hsame.1, hsame.2.1.symm⟩, hsame.2.2⟩
    · exact hstays
  · split
    · exact hstays
    · split
      · exact hstays
      · next now _ _ =>
        rcases relocate_cases c b.id now none with heq | heq
        · rw [heq]
          exact hstays
        · rw [heq]
          refine ⟨⟨h.modify (hmoved _ _), ?_⟩, hother _ _⟩
          dsimp only
          rw [if_pos rfl, get?_modify (hmoved _ _), Function.update_self, hget, shown_modify (hmoved _ _), hget]
          show Function.update c.shown (moved now none b).id ((c.shown (moved now none b).id).map _) = _
          rw [id_moved, shown_of_get? hget]
          rfl

/-- Breakpoints are sent to their anchors one after the other, each as it was when they were listed. -/
lemma told_followAll {l : List Breakpoint} (h : c.Listed) (hids : l.Pairwise (·.id ≠ ·.id))
    (hget : ∀ b ∈ l, c.get? b.id = some b) (f : Text.Lines) (drift : Int) :
    Told .change (followAll f drift l c).1 c (followAll f drift l c).2 := by
  induction l generalizing c with
  | nil => exact ⟨h, rfl⟩
  | cons b rest ih =>
    obtain ⟨hfirst, hrest⟩ := List.pairwise_cons.mp hids
    obtain ⟨htold, hother⟩ := told_follow h (hget b List.mem_cons_self) f drift
    have hnext : ∀ x ∈ rest, (c.follow f drift b).2.get? x.id = some x := by
      intro x hx
      rw [hother x.id (hfirst x hx).symm]
      exact hget x (List.mem_cons_of_mem _ hx)
    have hmore := ih htold.listed hrest hnext
    refine ⟨hmore.listed, ?_⟩
    show hear .change c.shown ((c.follow f drift b).1.toList ++ _) = _
    rw [hear_append, htold.shown]
    exact hmore.shown

lemma told_followFile (h : c.Listed) (path : Path) (f : Text.Lines) (drift : Int) :
    Told .change (followAll f drift (c.forFile path) c).1 c (followAll f drift (c.forFile path) c).2 := by
  refine told_followAll h ?_ (fun b hb => h.get?_eq_some_iff.mpr ⟨(mem_forFile.mp hb).1, rfl⟩) f drift
  have hids : (c.entries.filter (·.isIn path)).Pairwise (·.id ≠ ·.id) :=
    (List.Pairwise.imp (fun hlt => Nat.ne_of_lt hlt) h).filter _
  exact (List.mergeSort_perm ..).symm.pairwise hids fun hne => hne.symm

/-! ## What adapters answer -/

/-- Ids that do not occur among those whose verification changed are as before, and no id comes or goes. -/
lemma get?_applyVerification (c : Catalog) (ids : List Nat) (responses : List BreakpointResponse) (id : Nat) :
    ((c.applyVerification ids responses).2.get? id).isSome = (c.get? id).isSome ∧
      (id ∉ (c.applyVerification ids responses).1 → (c.applyVerification ids responses).2.get? id = c.get? id) := by
  induction ids generalizing c responses with
  | nil => exact ⟨rfl, fun _ => rfl⟩
  | cons i ids ih =>
    cases responses with
    | nil => exact ⟨rfl, fun _ => rfl⟩
    | cons r rs =>
      rw [applyVerification]
      dsimp only
      split
      · split
        · exact ih c rs
        · let verify : Breakpoint → Breakpoint := fun b => { b with verification := some (.ofResponse r) }
          have hmodify : (c.modify i verify).get? = Function.update c.get? i ((c.get? i).map verify) :=
            get?_modify fun _ h => h
          obtain ⟨hsome, hsame⟩ := ih (c.modify i verify) rs
          rw [hmodify] at hsome hsame
          constructor
          · rw [hsome]
            by_cases hid : id = i
            · rw [hid, Function.update_self, Option.isSome_map]
            · rw [Function.update_of_ne hid]
          · intro hnot
            obtain ⟨hid, hrest⟩ := List.ne_and_not_mem_of_not_mem_cons hnot
            rw [hsame hrest, Function.update_of_ne hid]
      · exact ih c rs

lemma Listed.applyVerification (h : c.Listed) (ids : List Nat) (responses : List BreakpointResponse) :
    (c.applyVerification ids responses).2.Listed := by
  induction ids generalizing c responses with
  | nil => exact h
  | cons i ids ih =>
    cases responses with
    | nil => exact h
    | cons r rs =>
      rw [Catalog.applyVerification]
      dsimp only
      split
      · split
        · exact ih h rs
        · exact ih (h.modify (f := fun b => { b with verification := some (.ofResponse r) }) fun _ h => h) rs
      · exact ih h rs

/-- An editor that is told how breakpoints are now has them as they are now. -/
lemma hear_current (d : Catalog) (ids : List Nat) (known : Nat → Option Breakpoint)
    (hknown : ∀ id ∈ ids, (known id).isSome = (d.get? id).isSome) :
    hear .change known (ids.filterMap d.get?) = fun id => if id ∈ ids then d.shown id else known id := by
  induction ids generalizing known with
  | nil => exact funext fun id => (if_neg List.not_mem_nil).symm
  | cons i rest ih =>
    have hfirst := hknown i List.mem_cons_self
    cases hget : d.get? i with
    | none =>
      rw [List.filterMap_cons_none hget, ih known fun id hid => hknown id (List.mem_cons_of_mem _ hid)]
      funext id
      by_cases hid : id = i
      · have hnone : known i = none := by simpa [hget] using hfirst
        simp [hid, hnone, shown, hget]
      · simp [hid]
    | some b =>
      obtain rfl := id_of_get? hget
      obtain ⟨before, hbefore⟩ := Option.isSome_iff_exists.mp (hfirst.trans (by rw [hget]; rfl))
      have hrevise : Debug.Change.revise .change b.id b.unanchored known = Function.update known b.id (d.shown b.id) := by
        rw [shown_of_get? hget]
        show Function.update known b.id ((known b.id).map _) = _
        rw [hbefore]
        rfl
      rw [List.filterMap_cons_some hget]
      show hear .change (Debug.Change.revise .change b.id b.unanchored known) _ = _
      rw [hrevise, ih]
      · funext id
        by_cases hid : id = b.id
        · simp [hid]
        · simp [hid]
      · intro id hid
        by_cases heq : id = b.id
        · rw [heq, Function.update_self, shown, Option.isSome_map]
        · rw [Function.update_of_ne heq]
          exact hknown id (List.mem_cons_of_mem _ hid)

lemma told_applyVerification (h : c.Listed) (ids : List Nat) (responses : List BreakpointResponse) :
    let r := c.applyVerification ids responses
    Told .change (r.1.filterMap r.2.get?) c r.2 := by
  intro r
  refine ⟨h.applyVerification ids responses, ?_⟩
  rw [hear_current]
  · funext id
    split
    · rfl
    · next hnot => exact congrArg (Option.map unanchored) ((get?_applyVerification c ids responses id).2 hnot).symm
  · intro id _
    rw [shown, Option.isSome_map]
    exact (get?_applyVerification c ids responses id).1.symm

end Operations

end Catalog

end Breakpoint

end Switchboard.Debug
