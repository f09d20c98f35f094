import Switchboard.Proofs.Breakpoint.Invariant

/-!
# What a catalog says about a file and about exceptions

* `Topic`: a file or exceptions; `Topic.covers`: the breakpoints that belong to it;
* `Catalog.about`: what a catalog says about a topic, apart from verifications;
* `Catalog.Change`: a change that stays within some topics, one lemma for each operation on catalogs;
* `Sound.lists`: what an adapter is sent for a file are its enabled breakpoints in order of their lines.
-/

namespace Switchboard.Debug

open Breakpoint (Catalog)

/-- What an adapter is told about. -/
inductive Topic where
  | file (path : Path)
  | exceptions

/-- The breakpoints that belong to a topic. -/
def Topic.covers : Topic → Breakpoint → Bool
  | file path, b => b.isIn path
  | exceptions, b => b.isException

/-- Spellings of one topic. -/
def Topic.Same : Topic → Topic → Prop
  | file p, file q => p.components = q.components
  | exceptions, exceptions => True
  | _, _ => False

namespace Topic.Same

lemma refl (t : Topic) : t.Same t := by
  cases t with
  | file path => rfl
  | exceptions => trivial

lemma symm {t u : Topic} (h : t.Same u) : u.Same t := by
  cases t <;> cases u <;> first | exact h | exact Eq.symm h

lemma trans {t u v : Topic} (htu : t.Same u) (huv : u.Same v) : t.Same v := by
  cases t <;> cases u <;> cases v <;> first | trivial | exact Eq.trans htu huv

end Topic.Same

namespace Breakpoint

/-- A breakpoint without what adapters said of it. -/
def unverified (b : Breakpoint) : Breakpoint := { b with verification := none }

/-- The topic of a breakpoint. -/
def topic (b : Breakpoint) : Topic :=
  match b.kind with
  | .line _ path _ _ _ => .file path
  | .exception _ _ => .exceptions

lemma covers_iff {t : Topic} {b : Breakpoint} : t.covers b = true ↔ b.topic.Same t := by
  cases t with
  | file path =>
    show b.isIn path = true ↔ _
    rw [isIn_iff]
    cases hk : b.kind <;> simp [path?, topic, Topic.Same, hk]
  | exceptions =>
    show b.isException = true ↔ _
    cases hk : b.kind <;> simp [isException, topic, Topic.Same, hk]

/-- Breakpoints of the same file, or both on exceptions, have the same topic. -/
lemma topic_congr {a b : Breakpoint} (h : Catalog.fileOf? a = Catalog.fileOf? b) : a.topic = b.topic := by
  unfold Catalog.fileOf? at h
  unfold topic
  cases ha : a.kind <;> cases hb : b.kind <;> simp_all

lemma topic_of_fileOf? {b : Breakpoint} {f : String × Path} (h : Catalog.fileOf? b = some f) : b.topic = .file f.2 := by
  cases hk : b.kind with
  | line project path line column anchor =>
    rw [Catalog.fileOf?, hk] at h
    obtain rfl := Option.some.inj h
    rw [topic, hk]
  | exception caught uncaught =>
    rw [Catalog.fileOf?, hk] at h
    cases h

lemma covers_congr {a b : Breakpoint} (h : Catalog.fileOf? a = Catalog.fileOf? b) (t : Topic) :
    t.covers a = t.covers b := by
  rw [Bool.eq_iff_iff, covers_iff, covers_iff, topic_congr h]

namespace Catalog

/-! ## What a catalog says -/

/-- What a catalog says about a topic, apart from verifications. -/
def about (c : Catalog) (t : Topic) : List Breakpoint := (c.entries.filter t.covers).map unverified

/-- The enabled breakpoints of a file as an adapter is sent them. -/
def listing (c : Catalog) (path : Path) : List SourceBreakpoint := (c.forFile path).filterMap toSource?

/-- What an adapter is sent for a file is told by what the catalog says about it. -/
lemma listing_eq (c : Catalog) (path : Path) :
    c.listing path = ((c.about (.file path)).mergeSort fun a b => a.line?.getD 0 ≤ b.line?.getD 0).filterMap toSource? := by
  have hsort : ((c.entries.filter (·.isIn path)).mergeSort fun a b => a.line?.getD 0 ≤ b.line?.getD 0).map unverified
      = (c.about (.file path)).mergeSort fun a b => a.line?.getD 0 ≤ b.line?.getD 0 :=
    List.map_mergeSort fun a _ b _ => rfl
  rw [← hsort, List.filterMap_map]
  rfl

lemma listing_congr {c d : Catalog} {path : Path} (h : d.about (.file path) = c.about (.file path)) :
    d.listing path = c.listing path := by
  rw [listing_eq, listing_eq, h]

/-- The exception breakpoint, apart from its verification, is told by what the catalog says about exceptions. -/
lemma Sound.exception?_eq_head? {c : Catalog} (h : Sound c) :
    c.exception?.map unverified = (c.about .exceptions).head? := by
  have hhead : (c.about .exceptions).head? = ((c.entries.filter (·.isException)).head?).map unverified := by
    rw [about, List.head?_map]
    rfl
  rw [hhead]
  congr 1
  cases hfirst : (c.entries.filter (·.isException)).head? with
  | none =>
    rw [List.head?_eq_none_iff, List.filter_eq_nil_iff] at hfirst
    cases hex : c.exception? with
    | none => rfl
    | some b =>
      obtain ⟨hb, hbex⟩ := h.exception?_eq_some_iff.mp hex
      exact absurd hbex (hfirst b hb)
  | some b =>
    obtain ⟨hb, hbex⟩ := List.mem_filter.mp (List.mem_of_mem_head? hfirst)
    exact h.exception?_eq_some_iff.mpr ⟨hb, hbex⟩

lemma flags_congr {b d : Debugger} (hb : Sound b.breakpoints) (hd : Sound d.breakpoints)
    (h : d.breakpoints.about .exceptions = b.breakpoints.about .exceptions) :
    d.exceptionFlags = b.exceptionFlags := by
  have hsame : d.breakpoints.exception?.map unverified = b.breakpoints.exception?.map unverified := by
    rw [hd.exception?_eq_head?, hb.exception?_eq_head?, h]
  unfold Debugger.exceptionFlags
  cases hx : d.breakpoints.exception? with
  | none =>
    rw [hx] at hsame
    rw [Option.map_eq_none_iff.mp hsame.symm]
  | some x =>
    rw [hx] at hsame
    obtain ⟨y, hy, hxy⟩ := Option.map_eq_some_iff.mp hsame.symm
    have henabled : y.enabled = x.enabled := by
      show y.unverified.enabled = x.unverified.enabled
      rw [hxy]
    have hkind : y.kind = x.kind := by
      show y.unverified.kind = x.unverified.kind
      rw [hxy]
    simp only [hy, henabled, hkind]

/-- The breakpoints of a file as an adapter should know them. -/
structure Lists (c : Catalog) (path : Path) (l : List SourceBreakpoint) : Prop where
  ascending : l.Pairwise (·.line < ·.line)
  complete : ∀ x, x ∈ l ↔ ∃ b ∈ c.entries, b.isIn path = true ∧ b.toSource? = some x

lemma line?_of_toSource? {b : Breakpoint} {x : SourceBreakpoint} (h : b.toSource? = some x) :
    b.line? = some x.line := by
  unfold toSource? at h
  split at h
  · cases h
  · next hk =>
    split at h
    · obtain rfl := Option.some.inj h
      simp only [line?, hk]
    · cases h

lemma mem_forFile {c : Catalog} {path : Path} {b : Breakpoint} :
    b ∈ c.forFile path ↔ b ∈ c.entries ∧ b.isIn path = true := by
  rw [forFile, List.mem_mergeSort, List.mem_filter]

/-- The breakpoints of a file are in strictly ascending order of their lines. -/
lemma Sound.pairwise_forFile {c : Catalog} (h : Sound c) (path : Path) :
    (c.forFile path).Pairwise fun a b => ∀ l m, a.line? = some l → b.line? = some m → l < m := by
  have hsorted : (c.forFile path).Pairwise fun a b => (decide (a.line?.getD 0 ≤ b.line?.getD 0)) = true := by
    apply List.pairwise_mergeSort
    · intro a b d hab hbd
      rw [decide_eq_true_eq] at hab hbd ⊢
      exact Nat.le_trans hab hbd
    · intro a b
      rw [Bool.or_eq_true, decide_eq_true_eq, decide_eq_true_eq]
      exact Nat.le_total ..
  have hnodup : (c.forFile path).Nodup := by
    rw [forFile, (List.mergeSort_perm ..).nodup_iff]
    exact (h.ordered.imp fun hlt heq => by simp [heq] at hlt).filter _
  refine (hsorted.and hnodup).imp_of_mem fun {a b} ha hb hab l m hl hm => ?_
  obtain ⟨hle, hne⟩ := hab
  rw [hl, hm, decide_eq_true_eq] at hle
  obtain ⟨hac, hain⟩ := mem_forFile.mp ha
  obtain ⟨hbc, hbin⟩ := mem_forFile.mp hb
  refine Nat.lt_of_le_of_ne hle fun heq => hne (h.apart a hac b hbc path l ?_ ?_)
  · exact isAt_iff.mpr ⟨hain, hl⟩
  · exact isAt_iff.mpr ⟨hbin, hm.trans (congrArg some heq.symm)⟩

/-- What an adapter is sent for a file are its enabled breakpoints, in ascending order of their lines. -/
theorem Sound.lists {c : Catalog} (h : Sound c) (path : Path) : Lists c path (c.listing path) where
  ascending := by
    rw [listing, List.pairwise_filterMap]
    refine (h.pairwise_forFile path).imp ?_
    intro a b hab x hx y hy
    exact hab _ _ (line?_of_toSource? hx) (line?_of_toSource? hy)
  complete x := by
    simp only [listing, List.mem_filterMap, mem_forFile, and_assoc]

/-! ## Changes within some topics -/

/-- A sound catalog becomes another one; what it says changes for some topics only, and no breakpoint is in a file
under a project that had none there, but for some new ones. -/
structure Change (touched : Topic → Prop) (new : List (String × Path)) (c d : Catalog) : Prop where
  sound : Sound d
  about : ∀ t, ¬ touched t → d.about t = c.about t
  files : ∀ b ∈ d.entries, ∀ f, fileOf? b = some f → f ∈ new ∨ ∃ a ∈ c.entries, fileOf? a = some f

namespace Change

variable {touched : Topic → Prop} {new : List (String × Path)} {c d e : Catalog}

lemma refl (h : Sound c) : Change touched new c c := ⟨h, fun _ _ => rfl, fun b hb _ hf => .inr ⟨b, hb, hf⟩⟩

lemma trans (hcd : Change touched new c d) (hde : Change touched new d e) : Change touched new c e where
  sound := hde.sound
  about t ht := (hde.about t ht).trans (hcd.about t ht)
  files b hb f hf := by
    rcases hde.files b hb f hf with hnew | ⟨a, ha, haf⟩
    · exact .inl hnew
    · exact hcd.files a ha f haf

lemma mono {touched' : Topic → Prop} (h : Change touched new c d) (hsub : ∀ t, touched t → touched' t) :
    Change touched' new c d :=
  ⟨h.sound, fun t ht => h.about t fun ht' => ht (hsub t ht'), h.files⟩

end Change

variable {touched : Topic → Prop} {new : List (String × Path)} {c : Catalog}

/-- Breakpoints change one by one and stay in their files. -/
lemma change_map {d : Catalog} (hd : Sound d) (g : Breakpoint → Breakpoint) (hentries : d.entries = c.entries.map g)
    (hfile : ∀ b ∈ c.entries, fileOf? (g b) = fileOf? b)
    (hsame : ∀ b ∈ c.entries, ∀ t, ¬ touched t → t.covers b = true → (g b).unverified = b.unverified) :
    Change touched new c d where
  sound := hd
  about t ht := by
    have hcovers : ∀ b ∈ c.entries, t.covers (g b) = t.covers b := fun b hb => covers_congr (hfile b hb) t
    rw [about, about, hentries, List.filter_map, List.map_map]
    have hfilter : c.entries.filter (t.covers ∘ g) = c.entries.filter t.covers := List.filter_congr hcovers
    rw [hfilter]
    apply List.map_congr_left
    intro b hb
    obtain ⟨hmem, hb⟩ := List.mem_filter.mp hb
    exact hsame b hmem t ht hb
  files x hx f hf := by
    rw [hentries] at hx
    obtain ⟨b, hb, rfl⟩ := List.mem_map.mp hx
    exact .inr ⟨b, hb, (hfile b hb).symm.trans hf⟩

/-- The breakpoint of an id changes and stays in its file. -/
lemma change_modify {id : Nat} {g : Breakpoint → Breakpoint} (hd : Sound (c.modify id g))
    (hfile : ∀ b ∈ c.entries, b.id = id → fileOf? (g b) = fileOf? b)
    (hsame : ∀ b ∈ c.entries, b.id = id → ∀ t, ¬ touched t → t.covers b = true → (g b).unverified = b.unverified) :
    Change touched new c (c.modify id g) := by
  apply change_map hd (fun b => if b.id = id then g b else b) rfl
  · intro b hb
    by_cases hid : b.id = id
    · rw [if_pos hid, hfile b hb hid]
    · rw [if_neg hid]
  · intro b hb t ht hcovers
    by_cases hid : b.id = id
    · rw [if_pos hid, hsame b hb hid t ht hcovers]
    · rw [if_neg hid]

/-! ## Operations -/

lemma Sound.change_addLine (h : Sound c) (hroom : c.nextId + 1 < idLimit) (project : String) (path : Path)
    (line : Nat) (column : Option Nat) (anchor : Option Text.Anchor) :
    Change (Topic.file path).Same [(project, path)] c (c.addLine project path line column anchor).2 := by
  have hsound := h.addLine hroom project path line column anchor
  cases hfind : c.findLine? path line with
  | some b =>
    have heq : (c.addLine project path line column anchor).2 = c := by
      simp only [Catalog.addLine, hfind, Option.isSome_some, if_true]
    rw [heq]
    exact .refl h
  | none =>
    have hnew : ∀ x ∈ c.entries, x.id ≠ c.nextId := fun x hx => Nat.ne_of_lt (h.below x hx)
    have hentries : (c.addLine project path line column anchor).2.entries
        = insertOrdered { id := c.nextId, kind := .line project path line column anchor } c.entries := by
      simp [Catalog.addLine, hfind, allocate]
    refine ⟨hsound, fun t ht => ?_, fun b hb f hf => ?_⟩
    · have hcovers : t.covers { id := c.nextId, kind := .line project path line column anchor } = false := by
        rw [Bool.eq_false_iff]
        exact fun hcovers => ht (covers_iff.mp hcovers)
      rw [about, hentries, inserts.filter hnew hcovers]
      rfl
    · rw [hentries] at hb
      rcases (inserts.mem_iff hnew).mp hb with rfl | hb
      · exact .inl (List.mem_singleton.mpr (Option.some.inj hf).symm)
      · exact .inr ⟨b, hb, hf⟩

lemma Sound.change_setException (h : Sound c) (hroom : c.nextId + 1 < idLimit) (caught uncaught : Bool) :
    Change Topic.exceptions.Same [] c (c.setException caught uncaught).2 := by
  have hsound := h.setException hroom caught uncaught
  cases hex : c.exception? with
  | some x =>
    obtain ⟨hx, hxex⟩ := h.exception?_eq_some_iff.mp hex
    have heq : (c.setException caught uncaught).2
        = c.modify x.id fun b => { b with kind := .exception caught uncaught } := by
      simp only [Catalog.setException, hex]
    rw [heq] at hsound ⊢
    have htopic : ∀ b ∈ c.entries, b.id = x.id → b.topic = .exceptions ∧ fileOf? b = none := by
      intro b hb hid
      obtain rfl := h.eq_of_id_eq hb hx hid
      unfold isException at hxex
      cases hk : b.kind with
      | line project path line column anchor => simp [hk] at hxex
      | exception caught uncaught => simp [topic, fileOf?, hk]
    apply change_modify hsound
    · intro b hb hid
      rw [(htopic b hb hid).2]
      rfl
    · intro b hb hid t ht hcovers
      rw [covers_iff, (htopic b hb hid).1] at hcovers
      exact absurd hcovers ht
  | none =>
    have hnew : ∀ x ∈ c.entries, x.id ≠ c.nextId := fun x hx => Nat.ne_of_lt (h.below x hx)
    have hentries : (c.setException caught uncaught).2.entries
        = insertOrdered { id := c.nextId, kind := .exception caught uncaught } c.entries := by
      simp only [Catalog.setException, hex, allocate]
    refine ⟨hsound, fun t ht => ?_, fun b hb f hf => ?_⟩
    · have hcovers : t.covers { id := c.nextId, kind := .exception caught uncaught } = false := by
        rw [Bool.eq_false_iff]
        exact fun hcovers => ht (covers_iff.mp hcovers)
      rw [about, hentries, inserts.filter hnew hcovers]
      rfl
    · rw [hentries] at hb
      rcases (inserts.mem_iff hnew).mp hb with rfl | hb
      · cases hf
      · exact .inr ⟨b, hb, hf⟩

lemma Sound.change_remove (h : Sound c) {b : Breakpoint} (hb : b ∈ c.entries) :
    Change b.topic.Same [] c (c.remove b.id).2 := by
  have hsound := h.remove b.id
  have hget : c.get? b.id = some b := h.get?_eq_some_iff.mpr ⟨hb, rfl⟩
  have hentries : (c.remove b.id).2.entries = c.entries.filter (·.id ≠ b.id) := by
    simp only [Catalog.remove, hget]
  refine ⟨hsound, fun t ht => ?_, fun x hx f hf => ?_⟩
  · rw [about, about, hentries, List.filter_filter]
    congr 1
    apply List.filter_congr
    intro x hx
    by_cases hid : x.id = b.id
    · -- the breakpoint that goes is not of this topic
      obtain rfl := h.eq_of_id_eq hx hb hid
      have hcovers : t.covers x = false := by
        rw [Bool.eq_false_iff]
        exact fun hcovers => ht (covers_iff.mp hcovers)
      rw [hcovers, Bool.false_and]
    · simp [hid]
  · rw [hentries] at hx
    exact .inr ⟨x, List.mem_of_mem_filter hx, hf⟩

lemma fileOf?_of_samePlace {a b : Breakpoint} (h : SamePlace a b) : fileOf? a = fileOf? b := by
  have hpath := h.path?
  have hproject := h.project?
  cases ha : a.kind <;> cases hb : b.kind <;> simp_all [path?, project?, fileOf?]

lemma Sound.change_edited (h : Sound c) (id : Nat) (edits : List (String × String)) :
    Change (fun t => ∃ b ∈ c.entries, b.id = id ∧ b.topic.Same t) [] c (c.edited id edits) := by
  have hsound := h.edited id edits
  unfold Catalog.edited at hsound ⊢
  cases hget : c.get? id with
  | none => exact .refl h
  | some b =>
    obtain ⟨hb, rfl⟩ := h.get?_eq_some_iff.mp hget
    rw [hget] at hsound
    cases happly : b.applyAll edits with
    | error e =>
      simp only [happly]
      exact .refl h
    | ok r =>
      obtain ⟨b', cleared⟩ := r
      simp only [happly] at hsound ⊢
      cases cleared with
      | true => exact (h.change_remove hb).mono fun t ht => ⟨b, hb, rfl, ht⟩
      | false =>
        apply change_modify hsound
        · intro a ha hid
          rw [h.eq_of_id_eq ha hb hid]
          exact fileOf?_of_samePlace (samePlace_of_applyAll happly)
        · intro a ha hid t ht hcovers
          exact absurd ⟨a, ha, hid, covers_iff.mp hcovers⟩ ht

/-- Relocation moves breakpoints within their files. -/
lemma files_relocate (c : Catalog) (id line : Nat) (anchor : Option Text.Anchor) :
    ∀ x ∈ (c.relocate id line anchor).2.entries, ∃ b ∈ c.entries, b.id = x.id ∧ fileOf? b = fileOf? x := by
  have hmodify : ∀ x ∈ (c.modify id (moved line anchor)).entries, ∃ b ∈ c.entries, b.id = x.id ∧ fileOf? b = fileOf? x := by
    intro x hx
    obtain ⟨b, hb, rfl⟩ := List.mem_map.mp hx
    refine ⟨b, hb, ?_⟩
    split
    · cases hk : b.kind <;> simp [moved, fileOf?, hk]
    · exact ⟨rfl, rfl⟩
  unfold relocate
  split
  · exact fun x hx => ⟨x, hx, rfl, rfl⟩
  · split
    · split
      · exact fun x hx => ⟨x, hx, rfl, rfl⟩
      · exact hmodify
    · exact hmodify

lemma Sound.change_relocate (h : Sound c) {id : Nat} {path : Path}
    (hid : ∀ b ∈ c.entries, b.id = id → b.isIn path = true) (line : Nat) (anchor : Option Text.Anchor) :
    Change (Topic.file path).Same [] c (c.relocate id line anchor).2 := by
  have hsound := h.relocate id line anchor
  have hmodify (hd : Sound (c.modify id (moved line anchor))) :
      Change (Topic.file path).Same [] c (c.modify id (moved line anchor)) := by
    apply change_modify hd
    · intro b _ _
      cases hk : b.kind <;> simp [moved, fileOf?, hk]
    · intro b hb hbid t ht hcovers
      have hin : b.topic.Same (.file path) := covers_iff.mp (hid b hb hbid)
      exact absurd (hin.symm.trans (covers_iff.mp hcovers)) ht
  unfold Catalog.relocate at hsound ⊢
  split
  · exact .refl h
  · next p hp =>
    rw [hp] at hsound
    dsimp only at hsound
    split
    · next other hother =>
      rw [hother] at hsound
      dsimp only at hsound
      split
      · exact .refl h
      · next hne =>
        rw [if_neg hne] at hsound
        exact hmodify hsound
    · next hnone =>
      rw [hnone] at hsound
      exact hmodify hsound

lemma Sound.change_follow (h : Sound c) (f : Text.Lines) (drift : Int) {b : Breakpoint} {path : Path}
    (hid : ∀ x ∈ c.entries, x.id = b.id → x.isIn path = true) :
    Change (Topic.file path).Same [] c (c.follow f drift b).2 ∧
      ∀ x ∈ (c.follow f drift b).2.entries, ∃ a ∈ c.entries, a.id = x.id ∧ fileOf? a = fileOf? x := by
  have hstay : Change (Topic.file path).Same [] c c ∧ ∀ x ∈ c.entries, ∃ a ∈ c.entries, a.id = x.id ∧ fileOf? a = fileOf? x :=
    ⟨.refl h, fun x hx => ⟨x, hx, rfl, rfl⟩⟩
  have hmove : ∀ line anchor, Change (Topic.file path).Same [] c (c.relocate b.id line anchor).2 ∧
      ∀ x ∈ (c.relocate b.id line anchor).2.entries, ∃ a ∈ c.entries, a.id = x.id ∧ fileOf? a = fileOf? x :=
    fun line anchor => ⟨h.change_relocate hid line anchor, files_relocate c b.id line anchor⟩
  unfold follow
  split
  · exact hstay
  · split
    · exact hmove _ _
    · exact hstay
  · split
    · exact hstay
    · split
      · exact hstay
      · exact hmove _ _

/-- Breakpoints of a file that follow their anchors stay within it. -/
lemma Sound.change_followAll (h : Sound c) {f : Text.Lines} {drift : Int} {path : Path} {l : List Breakpoint}
    (hl : ∀ b ∈ l, ∀ x ∈ c.entries, x.id = b.id → x.isIn path = true) :
    Change (Topic.file path).Same [] c (followAll f drift l c).2 := by
  induction l generalizing c with
  | nil => exact .refl h
  | cons b rest ih =>
    obtain ⟨hchange, hfiles⟩ := h.change_follow f drift (hl b (List.mem_cons_self ..))
    refine hchange.trans (ih hchange.sound fun a ha x hx hxa => ?_)
    obtain ⟨y, hy, hyid, hyfile⟩ := hfiles x hx
    have hyin := hl a (List.mem_cons_of_mem _ ha) y hy (hyid.trans hxa)
    exact (covers_congr hyfile (.file path)).symm.trans hyin

lemma change_clear : Change (fun t => ∃ b ∈ c.entries, b.topic.Same t) [] c c.clear.2 where
  sound := Sound.clear
  about t ht := by
    have hnone : c.entries.filter t.covers = [] := by
      rw [List.filter_eq_nil_iff]
      exact fun b hb hcovers => ht ⟨b, hb, covers_iff.mp hcovers⟩
    rw [about, about, hnone]
    rfl
  files b hb := by cases hb

lemma Sound.change_applyVerification (h : Sound c) (ids : List Nat) (responses : List BreakpointResponse) :
    Change (fun _ => False) [] c (c.applyVerification ids responses).2 := by
  induction ids generalizing c responses with
  | nil => exact .refl h
  | cons id ids ih =>
    cases responses with
    | nil => exact .refl h
    | cons r rs =>
      have hrecorded : Sound (c.modify id fun b => { b with verification := some (.ofResponse r) }) :=
        h.modify_of_samePlace fun b _ _ => .of_kind rfl rfl
      have hchange : Change (fun _ => False) [] c (c.modify id fun b => { b with verification := some (.ofResponse r) }) :=
        change_modify hrecorded (fun _ _ _ => rfl) fun _ _ _ _ _ _ => rfl
      rw [Catalog.applyVerification]
      dsimp only
      split
      · split
        · exact ih h rs
        · exact hchange.trans (ih hrecorded rs)
      · exact ih h rs

end Catalog

end Breakpoint

end Switchboard.Debug
