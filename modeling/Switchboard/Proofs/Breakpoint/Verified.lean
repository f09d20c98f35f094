import Switchboard.Proofs.Breakpoint.Edits
import Switchboard.Proofs.Breakpoint.Following

/-!
# Verifications in a catalog

* `Retains`: breakpoints have the verifications that they had before, and new ones have none;
* `Inherits`: nothing has happened to breakpoints but edits; so it is with everything that editors do
  (`Sound.inherits_addLine` and the others);
* `Sound.retains_followAll`: breakpoints that follow their anchors keep their verifications;
* `Answers`, `Sound.verification_applyVerification`: recording answers changes the breakpoints that they are for.

Nothing but the answers of an adapter changes a verification, and answers find their breakpoints by ids that no other
breakpoint gets.
-/

namespace Switchboard.Debug.Breakpoint.Catalog

variable {c d e : Catalog}

/-! ## What keeps verifications -/

/-- Every breakpoint of `d` has the verification that it had in `c`, or it is new and has none. -/
structure Retains (c d : Catalog) : Prop where
  sound : Sound d
  next : c.nextId ≤ d.nextId
  old : ∀ b ∈ d.entries, (∃ a ∈ c.entries, a.id = b.id ∧ a.verification = b.verification) ∨
    c.nextId ≤ b.id ∧ b.verification = none

namespace Retains

lemma refl (h : Sound c) : Retains c c := ⟨h, Nat.le_refl _, fun b hb => .inl ⟨b, hb, rfl, rfl⟩⟩

lemma trans (hcd : Retains c d) (hde : Retains d e) : Retains c e where
  sound := hde.sound
  next := Nat.le_trans hcd.next hde.next
  old b hb := by
    rcases hde.old b hb with ⟨a, ha, hid, hv⟩ | ⟨hid, hv⟩
    · rcases hcd.old a ha with ⟨x, hx, hxid, hxv⟩ | ⟨haid, hav⟩
      · exact .inl ⟨x, hx, hxid.trans hid, hxv.trans hv⟩
      · exact .inr ⟨hid ▸ haid, hv.symm.trans hav⟩
    · exact .inr ⟨Nat.le_trans hcd.next hid, hv⟩

end Retains

/-- A breakpoint changes in anything but its id and its verification. -/
lemma retains_modify {id : Nat} {g : Breakpoint → Breakpoint} (hd : Sound (c.modify id g))
    (hg : ∀ b ∈ c.entries, b.id = id → (g b).id = b.id ∧ (g b).verification = b.verification) :
    Retains c (c.modify id g) := by
  refine ⟨hd, Nat.le_refl _, fun x hx => .inl ?_⟩
  obtain ⟨b, hb, rfl⟩ := List.mem_map.mp hx
  refine ⟨b, hb, ?_⟩
  by_cases hid : b.id = id
  · rw [if_pos hid]
    exact ⟨(hg b hb hid).1.symm, (hg b hb hid).2.symm⟩
  · rw [if_neg hid]
    exact ⟨rfl, rfl⟩

/-! ## What editors do -/

/-- Every breakpoint of `d` is one of `c`, edited or as it was, or it is new and not verified. -/
structure Inherits (c d : Catalog) : Prop where
  sound : Sound d
  next : c.nextId ≤ d.nextId
  old : ∀ b ∈ d.entries, (∃ a ∈ c.entries, Keeps a b) ∨ c.nextId ≤ b.id ∧ b.verification = none

lemma Inherits.retains (h : Inherits c d) : Retains c d where
  sound := h.sound
  next := h.next
  old b hb := (h.old b hb).imp_left fun ⟨a, ha, hkeeps⟩ => ⟨a, ha, hkeeps.id.symm, hkeeps.verification.symm⟩

/-- Breakpoints that go leave the others as they are. -/
lemma inherits_of_subset (hd : Sound d) (hnext : c.nextId ≤ d.nextId) (hsub : ∀ b ∈ d.entries, b ∈ c.entries) :
    Inherits c d :=
  ⟨hd, hnext, fun b hb => .inl ⟨b, hsub b hb, .refl b⟩⟩

lemma Inherits.refl (h : Sound c) : Inherits c c := inherits_of_subset h (Nat.le_refl _) fun _ hb => hb

/-- A breakpoint is edited. -/
lemma inherits_modify {id : Nat} {g : Breakpoint → Breakpoint} (hd : Sound (c.modify id g))
    (hg : ∀ b ∈ c.entries, b.id = id → Keeps b (g b)) : Inherits c (c.modify id g) := by
  refine ⟨hd, Nat.le_refl _, fun x hx => .inl ?_⟩
  obtain ⟨b, hb, rfl⟩ := List.mem_map.mp hx
  refine ⟨b, hb, ?_⟩
  by_cases hid : b.id = id
  · rw [if_pos hid]
    exact hg b hb hid
  · rw [if_neg hid]
    exact .refl b

/-- A breakpoint is made under the next id. -/
lemma inherits_of_insert (hc : Sound c) (hd : Sound d) (hnext : c.nextId ≤ d.nextId) {b : Breakpoint}
    (hid : b.id = c.nextId) (hnone : b.verification = none) (hentries : d.entries = insertOrdered b c.entries) :
    Inherits c d := by
  have hfree : ∀ a ∈ c.entries, a.id ≠ b.id := fun a ha => hid ▸ Nat.ne_of_lt (hc.below a ha)
  refine ⟨hd, hnext, fun x hx => ?_⟩
  rw [hentries] at hx
  rcases (inserts.mem_iff hfree).mp hx with rfl | hx
  · exact .inr ⟨Nat.le_of_eq hid.symm, hnone⟩
  · exact .inl ⟨x, hx, .refl x⟩

lemma Sound.inherits_addLine (h : Sound c) (hroom : c.nextId + 1 < idLimit) (project : String) (path : Path) (line : Nat)
    (column : Option Nat) (anchor : Option Text.Anchor) : Inherits c (c.addLine project path line column anchor).2 := by
  have hsound := h.addLine hroom project path line column anchor
  have hnext := nextId_le_perform hroom (.addLine project path line column anchor)
  cases hfind : c.findLine? path line with
  | some b =>
    have heq : (c.addLine project path line column anchor).2 = c := by
      simp only [Catalog.addLine, hfind, Option.isSome_some, if_true]
    rw [heq]
    exact .refl h
  | none =>
    apply inherits_of_insert h hsound hnext (b := { id := c.nextId, kind := .line project path line column anchor }) rfl rfl
    simp [Catalog.addLine, hfind, allocate]

lemma Sound.inherits_setException (h : Sound c) (hroom : c.nextId + 1 < idLimit) (caught uncaught : Bool) :
    Inherits c (c.setException caught uncaught).2 := by
  have hsound := h.setException hroom caught uncaught
  have hnext := nextId_le_perform hroom (.setException caught uncaught)
  cases hex : c.exception? with
  | some b =>
    have heq : (c.setException caught uncaught).2
        = c.modify b.id fun b => { b with kind := .exception caught uncaught } := by
      simp only [Catalog.setException, hex]
    rw [heq] at hsound ⊢
    obtain ⟨hb, hexception⟩ := h.exception?_eq_some_iff.mp hex
    refine inherits_modify hsound fun a ha hid => ?_
    obtain rfl := h.eq_of_id_eq ha hb hid
    exact ⟨rfl, rfl, hexception.symm, fun hline => by rw [hexception] at hline; cases hline⟩
  | none =>
    apply inherits_of_insert h hsound hnext (b := { id := c.nextId, kind := .exception caught uncaught }) rfl rfl
    simp only [Catalog.setException, hex, allocate]

lemma Sound.inherits_remove (h : Sound c) (id : Nat) : Inherits c (c.remove id).2 := by
  apply inherits_of_subset (h.remove id) (Nat.le_of_eq (nextId_remove c id).symm)
  intro b hb
  unfold Catalog.remove at hb
  split at hb
  · exact hb
  · exact List.mem_of_mem_filter hb

lemma inherits_clear : Inherits c c.clear.2 :=
  inherits_of_subset Sound.clear (Nat.le_refl _) fun b hb => by cases hb

lemma Sound.inherits_edited (h : Sound c) (id : Nat) (edits : List (String × String)) :
    Inherits c (c.edited id edits) := by
  have hsound := h.edited id edits
  unfold Catalog.edited at hsound ⊢
  cases hget : c.get? id with
  | none => exact .refl h
  | some b =>
    obtain ⟨hb, rfl⟩ := h.get?_eq_some_iff.mp hget
    rw [hget] at hsound
    cases happly : b.applyAll edits with
    | error e =>
      simp only [happly]
      exact .refl h
    | ok r =>
      obtain ⟨b', cleared⟩ := r
      simp only [happly] at hsound ⊢
      cases cleared with
      | true => exact h.inherits_remove b.id
      | false =>
        have hkeeps : Keeps b b' :=
          applyAll_induction (P := Keeps b) (fun _ _ _ _ hx hy => hx.trans (keeps_apply hy)) (.refl b) happly
        refine inherits_modify hsound fun a ha hid => ?_
        obtain rfl := h.eq_of_id_eq ha hb hid
        exact hkeeps

/-! ## Files that are followed -/

lemma Sound.retains_relocate (h : Sound c) (id line : Nat) (anchor : Option Text.Anchor) :
    Retains c (c.relocate id line anchor).2 := by
  have hsound := h.relocate id line anchor
  rcases relocate_cases c id line anchor with heq | heq
  · rw [heq]
    exact .refl h
  · rw [heq] at hsound ⊢
    apply retains_modify hsound
    intro b _ _
    refine ⟨id_moved line anchor b, ?_⟩
    cases hk : b.kind <;> simp [moved, hk]

lemma Sound.retains_follow (h : Sound c) (f : Text.Lines) (drift : Int) (b : Breakpoint) :
    Retains c (c.follow f drift b).2 := by
  unfold Catalog.follow
  split
  · exact .refl h
  · split
    · exact h.retains_relocate ..
    · exact .refl h
  · split
    · exact .refl h
    · split
      · exact .refl h
      · exact h.retains_relocate ..

lemma Sound.retains_followAll (h : Sound c) (f : Text.Lines) (drift : Int) (l : List Breakpoint) :
    Retains c (followAll f drift l c).2 := by
  induction l generalizing c with
  | nil => exact .refl h
  | cons b rest ih =>
    have hfirst := h.retains_follow f drift b
    exact hfirst.trans (ih hfirst.sound)

/-! ## Answers -/

/-- The answer for a breakpoint is the one at its position. -/
def Answers (ids : List Nat) (responses : List BreakpointResponse) (id : Nat) (r : BreakpointResponse) : Prop :=
  ∃ k : Nat, ids[k]? = some id ∧ responses[k]? = some r

lemma answers_cons {i id : Nat} {ids : List Nat} {x r : BreakpointResponse} {rs : List BreakpointResponse} :
    Answers (i :: ids) (x :: rs) id r ↔ i = id ∧ x = r ∨ Answers ids rs id r := by
  constructor
  · rintro ⟨k, hid, hr⟩
    cases k with
    | zero => exact .inl ⟨Option.some.inj hid, Option.some.inj hr⟩
    | succ k => exact .inr ⟨k, hid, hr⟩
  · rintro (⟨rfl, rfl⟩ | ⟨k, hid, hr⟩)
    · exact ⟨0, rfl, rfl⟩
    · exact ⟨k + 1, hid, hr⟩

lemma Answers.mem {ids : List Nat} {rs : List BreakpointResponse} {id : Nat} {r : BreakpointResponse}
    (h : Answers ids rs id r) : id ∈ ids := by
  obtain ⟨k, hid, -⟩ := h
  exact List.mem_of_getElem? hid

/-- An id that is listed once gets one answer. -/
lemma Answers.unique {ids : List Nat} {rs : List BreakpointResponse} {id : Nat} {r r' : BreakpointResponse}
    (hnodup : ids.Nodup) (h : Answers ids rs id r) (h' : Answers ids rs id r') : r = r' := by
  obtain ⟨k, hk, hr⟩ := h
  obtain ⟨k', hk', hr'⟩ := h'
  obtain rfl := (List.getElem?_inj (List.getElem?_eq_some_iff.mp hk).1 hnodup).mp (hk.trans hk'.symm)
  exact Option.some.inj (hr.symm.trans hr')

/-- Answers are recorded one after the other, and one that changes nothing may as well be recorded. -/
lemma Sound.applyVerification_cons (h : Sound c) (id : Nat) (ids : List Nat) (r : BreakpointResponse)
    (rs : List BreakpointResponse) :
    (c.applyVerification (id :: ids) (r :: rs)).2
      = ((c.modify id fun b => { b with verification := some (.ofResponse r) }).applyVerification ids rs).2 := by
  rw [Catalog.applyVerification]
  dsimp only
  cases hget : c.get? id with
  | none =>
    have hsame : (c.modify id fun b => { b with verification := some (.ofResponse r) }) = c := by
      rw [Catalog.modify, List.map_congr_left fun b hb => if_neg (get?_eq_none_iff.mp hget b hb), List.map_id']
    rw [hsame]
  | some b =>
    obtain ⟨hb, rfl⟩ := h.get?_eq_some_iff.mp hget
    by_cases hv : b.verification = some (.ofResponse r)
    · have hsame : (c.modify b.id fun b => { b with verification := some (.ofResponse r) }) = c := by
        rw [h.modify_eq hb]
        exact (congrArg (fun x => c.modify b.id fun _ => x) (by rw [← hv])).trans (h.modify_self hb)
      rw [hsame]
      simp only [if_pos hv]
    · simp only [if_neg hv]

/-- When answers have been recorded, a breakpoint has the verification that its answer means, and one that got no answer
has the verification that it had. -/
theorem Sound.verification_applyVerification (h : Sound c) {ids : List Nat} (hnodup : ids.Nodup)
    (rs : List BreakpointResponse) {b : Breakpoint} (hb : b ∈ (c.applyVerification ids rs).2.entries) :
    ∃ a ∈ c.entries, a.id = b.id ∧
      ((∃ r, Answers ids rs b.id r ∧ b.verification = some (.ofResponse r)) ∨
        (∀ r, ¬ Answers ids rs b.id r) ∧ b.verification = a.verification) := by
  induction ids generalizing c rs with
  | nil => exact ⟨b, hb, rfl, .inr ⟨fun r hr => absurd hr.mem List.not_mem_nil, rfl⟩⟩
  | cons id ids ih =>
    cases rs with
    | nil => exact ⟨b, hb, rfl, .inr ⟨fun r ⟨k, _, hr⟩ => by simp at hr, rfl⟩⟩
    | cons x rs =>
      obtain ⟨hnew, hrest⟩ := List.nodup_cons.mp hnodup
      have hsound : Sound (c.modify id fun b => { b with verification := some (.ofResponse x) }) :=
        h.modify_of_samePlace fun b _ _ => .of_kind rfl rfl
      rw [h.applyVerification_cons] at hb
      obtain ⟨y, hy, hyb, hanswered⟩ := ih hsound hrest rs hb
      obtain ⟨a, ha, rfl⟩ := List.mem_map.mp hy
      by_cases hid : a.id = id
      · rw [if_pos hid] at hyb hanswered
        -- the first answer is for this breakpoint, and no other one is
        have hlater : ∀ r, ¬ Answers ids rs b.id r := fun r hr => hnew (hid ▸ hyb ▸ hr.mem)
        rcases hanswered with ⟨r, hr, -⟩ | ⟨-, hv⟩
        · exact absurd hr (hlater r)
        · exact ⟨a, ha, hyb, .inl ⟨x, answers_cons.mpr (.inl ⟨hid.symm.trans hyb, rfl⟩), hv⟩⟩
      · rw [if_neg hid] at hyb hanswered
        have hcons : ∀ r, Answers (id :: ids) (x :: rs) b.id r ↔ Answers ids rs b.id r := by
          intro r
          rw [answers_cons, or_iff_right]
          exact fun hfirst => hid (hyb.trans hfirst.1.symm)
        refine ⟨a, ha, hyb, ?_⟩
        simpa only [hcons] using hanswered

/-- Recording answers makes no breakpoints and moves none. -/
lemma Sound.exists_mem_of_applyVerification (h : Sound c) (ids : List Nat) (rs : List BreakpointResponse) {b : Breakpoint}
    (hb : b ∈ (c.applyVerification ids rs).2.entries) : ∃ a ∈ c.entries, a.id = b.id ∧ a.kind = b.kind := by
  induction ids generalizing c rs with
  | nil => exact ⟨b, hb, rfl, rfl⟩
  | cons id ids ih =>
    cases rs with
    | nil => exact ⟨b, hb, rfl, rfl⟩
    | cons x rs =>
      have hsound : Sound (c.modify id fun b => { b with verification := some (.ofResponse x) }) :=
        h.modify_of_samePlace fun b _ _ => .of_kind rfl rfl
      rw [h.applyVerification_cons] at hb
      obtain ⟨y, hy, hyid, hykind⟩ := ih hsound rs hb
      obtain ⟨a, ha, rfl⟩ := List.mem_map.mp hy
      refine ⟨a, ha, ?_⟩
      rw [← hyid, ← hykind]
      split <;> exact ⟨rfl, rfl⟩

end Switchboard.Debug.Breakpoint.Catalog
