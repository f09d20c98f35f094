import Switchboard.Proofs.Breakpoint.Following
import Switchboard.Proofs.Debug.Stored

/-!
# Breakpoint catalogs in files

* `Catalog.Tidy`, `Catalog.entries_ofList`: a list without collisions is taken in as it is;
* `Catalog.Storable`: a catalog all of whose entries can be written;
* `Storable.addLine`, `setException`, `edited`, `clear`, `followAll`, `applyVerification`: operations keep it;
* `Catalog.stored_followAll`: if no breakpoint is on another line then, the same is stored of all.
-/

namespace Switchboard.Debug.Breakpoint

/-- What is kept of a breakpoint is at its place. -/
lemma samePlace_stored (b : Breakpoint) : SamePlace b.stored b := by
  constructor
  · rfl
  all_goals
    simp only [isException, Breakpoint.path?, Breakpoint.line?, Breakpoint.project?, stored]
    cases b.kind <;> rfl

namespace Catalog

/-! ## Taking in what was stored -/

/-- A list in which no breakpoint is in the way of another one. -/
structure Tidy (l : List Breakpoint) : Prop where
  ordered : l.Pairwise (·.id < ·.id)
  apart : ∀ a ∈ l, ∀ b ∈ l, ∀ path line, a.isAt path line = true → b.isAt path line = true → a = b
  alone : ∀ a ∈ l, ∀ b ∈ l, a.isException = true → b.isException = true → a = b

lemma Sound.tidy {c : Catalog} (h : Sound c) : Tidy c.entries where
  ordered := h.ordered
  apart := h.apart
  alone := fun _ ha _ hb => h.eq_of_isException ha hb

/-- What is kept of a tidy list is tidy. -/
lemma Tidy.map_stored {l : List Breakpoint} (h : Tidy l) : Tidy (l.map stored) where
  ordered := List.pairwise_map.mpr h.ordered
  apart := by
    intro a' ha' b' hb' path line haat hbat
    obtain ⟨a, ha, rfl⟩ := List.mem_map.mp ha'
    obtain ⟨b, hb, rfl⟩ := List.mem_map.mp hb'
    rw [a.samePlace_stored.isAt] at haat
    rw [b.samePlace_stored.isAt] at hbat
    rw [h.apart a ha b hb path line haat hbat]
  alone := by
    intro a' ha' b' hb' haex hbex
    obtain ⟨a, ha, rfl⟩ := List.mem_map.mp ha'
    obtain ⟨b, hb, rfl⟩ := List.mem_map.mp hb'
    rw [a.samePlace_stored.isException] at haex
    rw [b.samePlace_stored.isException] at hbex
    rw [h.alone a ha b hb haex hbex]

/-- A stored breakpoint is taken in behind the others if it is in the way of none of them. -/
lemma restore_last {c : Catalog} {b : Breakpoint} (hid : ∀ x ∈ c.entries, x.id < b.id)
    (hplace : ∀ x ∈ c.entries, ∀ path line, x.isAt path line = true → ¬ b.isAt path line = true)
    (hslot : b.isException = true → c.exceptionId = none) :
    (c.restore b).entries = c.entries ++ [b] ∧
      (c.restore b).exceptionId = if b.isException then some b.id else c.exceptionId := by
  have hget : c.get? b.id = none := by
    rw [Sound.get?_eq_none_iff]
    intro x hx
    exact Nat.ne_of_lt (hid x hx)
  have hlast := inserts.last hid
  unfold restore
  cases hk : b.kind with
  | line project path line column anchor =>
    have hfind : c.findLine? path line = none := by
      rw [Sound.findLine?_eq_none_iff]
      intro x hx hat
      refine hplace x hx path line hat ?_
      simp [isAt, isIn, Breakpoint.path?, Breakpoint.line?, hk, Path.same]
    simp [hfind, hget, hlast]
  | exception caught uncaught =>
    have hnone : c.exceptionId = none := hslot (by simp [isException, hk])
    simp [hnone, hget, hlast]

/-- A tidy list is taken in as it is. -/
theorem entries_ofList {l : List Breakpoint} (h : Tidy l) : (ofList l).entries = l := by
  -- a slot that is taken is taken by an exception breakpoint among those that came before
  have hfold : ∀ (rest : List Breakpoint) (c : Catalog),
      (c.exceptionId ≠ none → ∃ x ∈ c.entries, x.isException = true) → Tidy (c.entries ++ rest) →
      (rest.foldl restore c).entries = c.entries ++ rest := by
    intro rest
    induction rest with
    | nil =>
      intro c _ _
      exact (List.append_nil _).symm
    | cons b rest ih =>
      intro c hslot htidy
      have hb : b ∈ c.entries ++ b :: rest := by simp
      have hmem : ∀ x ∈ c.entries, x ∈ c.entries ++ b :: rest := fun x hx => List.mem_append_left _ hx
      have hid : ∀ x ∈ c.entries, x.id < b.id :=
        fun x hx => (List.pairwise_append.mp htidy.ordered).2.2 x hx b List.mem_cons_self
      have hplace : ∀ x ∈ c.entries, ∀ path line, x.isAt path line = true → ¬ b.isAt path line = true := by
        intro x hx path line hxat hbat
        have heq := htidy.apart x (hmem x hx) b hb path line hxat hbat
        have hlt := hid x hx
        rw [heq] at hlt
        exact Nat.lt_irrefl _ hlt
      have hfree : b.isException = true → c.exceptionId = none := by
        intro hex
        by_contra htaken
        obtain ⟨x, hx, hxex⟩ := hslot htaken
        have heq := htidy.alone x (hmem x hx) b hb hxex hex
        have hlt := hid x hx
        rw [heq] at hlt
        exact Nat.lt_irrefl _ hlt
      obtain ⟨hentries, hexception⟩ := restore_last hid hplace hfree
      have hsplit : c.entries ++ b :: rest = (c.restore b).entries ++ rest := by
        rw [hentries, List.append_assoc]
        rfl
      rw [List.foldl_cons, hsplit]
      refine ih (c.restore b) ?_ (hsplit ▸ htidy)
      intro htaken
      rw [hentries]
      rw [hexception] at htaken
      by_cases hex : b.isException = true
      · exact ⟨b, by simp, hex⟩
      · rw [if_neg hex] at htaken
        obtain ⟨x, hx, hxex⟩ := hslot htaken
        exact ⟨x, List.mem_append_left _ hx, hxex⟩
  exact hfold l {} (fun htaken => absurd rfl htaken) h

/-- What is kept of a catalog is what a new one takes in. -/
theorem Sound.entries_ofList_stored {c : Catalog} (h : Sound c) :
    (ofList (c.entries.map stored)).entries = c.entries.map stored :=
  entries_ofList h.tidy.map_stored

/-! ## Catalogs that can be written -/

/-- A catalog all of whose entries can be written. -/
structure Storable (c : Catalog) : Prop where
  sound : Sound c
  fits : ∀ b ∈ c.entries, b.Fits

lemma storable_empty : Storable {} := ⟨sound_empty, fun _ hb => absurd hb List.not_mem_nil⟩

namespace Storable

variable {c : Catalog}

/-- A catalog with a new entry. -/
lemma put {b : Breakpoint} {d : Catalog} (h : Storable c) (hsound : Sound d) (hentries : d.entries = insertOrdered b c.entries)
    (hid : ∀ x ∈ c.entries, x.id ≠ b.id) (hb : b.Fits) : Storable d := by
  refine ⟨hsound, ?_⟩
  intro x hx
  rw [hentries, inserts.mem_iff hid] at hx
  rcases hx with rfl | hx
  · exact hb
  · exact h.fits x hx

/-- A catalog with a changed entry. -/
lemma modify {id : Nat} {g : Breakpoint → Breakpoint} (h : Storable c) (hsound : Sound (c.modify id g))
    (hg : ∀ b ∈ c.entries, b.id = id → (g b).Fits) : Storable (c.modify id g) := by
  refine ⟨hsound, ?_⟩
  intro x hx
  obtain ⟨b, hb, rfl⟩ := List.mem_map.mp hx
  split
  · next hid => exact hg b hb hid
  · exact h.fits b hb

/-- The next id is of the type of ids. -/
lemma nextId_le (hroom : c.nextId + 1 < idLimit) : c.nextId ≤ 0xFFFFFFFFFFFFFFFF := by
  have hlimit : idLimit = 0xFFFFFFFFFFFFFFFF + 1 := rfl
  omega

lemma addLine (h : Storable c) (hroom : c.nextId + 1 < idLimit) (project : String) (path : Path) {line : Nat}
    {column : Option Nat} (anchor : Option Text.Anchor) (hline : line ≤ 0xFFFFFFFF)
    (hcolumn : ∀ m ∈ column, m ≤ 0xFFFFFFFF) : Storable (c.addLine project path line column anchor).2 := by
  have hsound := h.sound.addLine hroom project path line column anchor
  have hnew : ∀ x ∈ c.entries, x.id ≠ c.nextId := fun x hx => Nat.ne_of_lt (h.sound.below x hx)
  unfold Catalog.addLine at hsound ⊢
  split
  · exact h
  · next hfree =>
    rw [if_neg hfree] at hsound
    exact h.put hsound rfl hnew ⟨nextId_le hroom, hline, hcolumn⟩

lemma setException (h : Storable c) (hroom : c.nextId + 1 < idLimit) (caught uncaught : Bool) :
    Storable (c.setException caught uncaught).2 := by
  have hsound := h.sound.setException hroom caught uncaught
  have hnew : ∀ x ∈ c.entries, x.id ≠ c.nextId := fun x hx => Nat.ne_of_lt (h.sound.below x hx)
  unfold Catalog.setException at hsound ⊢
  split
  · next b hb =>
    rw [hb] at hsound
    refine h.modify hsound ?_
    intro x hx _
    exact ⟨(h.fits x hx).id, trivial⟩
  · next hnone =>
    rw [hnone] at hsound
    exact h.put hsound rfl hnew ⟨nextId_le hroom, trivial⟩

lemma clear : Storable c.clear.2 := ⟨Sound.clear, fun _ hb => absurd hb List.not_mem_nil⟩

/-- Edits leave numbers as they are. -/
lemma fits_of_apply {b b' : Breakpoint} {p : Property} {value : String} (hb : b.Fits) (h : b.apply p value = .ok b') :
    b'.Fits := by
  cases p with
  | clear => simp [apply, throw, throwThe, MonadExceptOf.throw] at h
  | condition | hitCondition | logMessage =>
    simp only [apply, pure, Except.pure, Except.ok.injEq] at h
    exact h ▸ ⟨hb.id, hb.kind⟩
  | enabled | conditionEnabled =>
    obtain ⟨on, -, h⟩ := ok_of_bind_eq_ok h
    simp only [pure, Except.pure, Except.ok.injEq] at h
    exact h ▸ ⟨hb.id, hb.kind⟩
  | caught | uncaught =>
    obtain ⟨on, -, h⟩ := ok_of_bind_eq_ok h
    cases hk : b.kind with
    | line project path line column anchor => simp [hk, throw, throwThe, MonadExceptOf.throw] at h
    | exception caught uncaught =>
      simp only [hk, pure, Except.pure, Except.ok.injEq] at h
      exact h ▸ ⟨hb.id, trivial⟩

lemma edited (h : Storable c) (id : Nat) (edits : List (String × String)) : Storable (c.edited id edits) := by
  have hsound := h.sound.edited id edits
  unfold Catalog.edited at hsound ⊢
  cases hget : c.get? id with
  | none => exact h
  | some b =>
    obtain ⟨hb, rfl⟩ := h.sound.get?_eq_some_iff.mp hget
    rw [hget] at hsound
    dsimp only at hsound ⊢
    cases happly : b.applyAll edits with
    | error e => exact h
    | ok r =>
      obtain ⟨b', cleared⟩ := r
      rw [happly] at hsound
      cases cleared with
      | true =>
        refine ⟨hsound, ?_⟩
        intro x hx
        simp only [Catalog.remove, hget] at hx
        exact h.fits x (List.mem_of_mem_filter hx)
      | false =>
        refine h.modify hsound ?_
        intro _ _ _
        exact applyAll_induction (fun _ _ _ _ hx hy => fits_of_apply hx hy) (h.fits b hb) happly

end Storable

/-! ## What is kept of changed entries -/

/-- A change of entries of which the same is stored. -/
lemma stored_modify {c : Catalog} {id : Nat} {g : Breakpoint → Breakpoint}
    (h : ∀ b ∈ c.entries, b.id = id → (g b).stored = b.stored) :
    (c.modify id g).entries.map stored = c.entries.map stored := by
  rw [Catalog.modify, List.map_map]
  refine List.map_congr_left ?_
  intro b hb
  show (if b.id = id then g b else b).stored = b.stored
  split
  · next hid => exact h b hb hid
  · rfl

/-- What adapters answer is not stored. -/
lemma Storable.applyVerification {c : Catalog} (h : Storable c) (ids : List Nat) (responses : List BreakpointResponse) :
    Storable (c.applyVerification ids responses).2 ∧
      (c.applyVerification ids responses).2.entries.map stored = c.entries.map stored := by
  induction ids generalizing c responses with
  | nil => exact ⟨h, rfl⟩
  | cons id ids ih =>
    cases responses with
    | nil => exact ⟨h, rfl⟩
    | cons r rs =>
      let g : Breakpoint → Breakpoint := fun b => { b with verification := some (.ofResponse r) }
      have hsound : Sound (c.modify id g) := h.sound.modify_of_samePlace fun b _ _ => .of_kind rfl rfl
      have hstorable : Storable (c.modify id g) := h.modify hsound fun b hb _ => ⟨(h.fits b hb).id, (h.fits b hb).kind⟩
      have hstored : (c.modify id g).entries.map stored = c.entries.map stored := stored_modify fun _ _ _ => rfl
      rw [Catalog.applyVerification]
      dsimp only
      split
      · split
        · exact ih h rs
        · obtain ⟨hrest, hsame⟩ := ih hstorable rs
          exact ⟨hrest, hsame.trans hstored⟩
      · exact ih h rs

/-! ## Breakpoints that follow their anchors -/

section Following

variable {f : Text.Lines} {drift : Int} {c : Catalog} {b : Breakpoint} {l : List Breakpoint}

/-- The line of an anchor is of the type of lines. -/
lemma currentLine?_le {a : Text.Anchor} {n : Nat} (h : currentLine? f drift a = some n) : n ≤ 0xFFFFFFFF := by
  have hlimit : lineLimit = 0xFFFFFFFF + 1 := rfl
  obtain ⟨offset, -, hn⟩ := Option.bind_eq_some_iff.mp h
  split at hn
  · split at hn
    · obtain rfl := Option.some.inj hn
      omega
    · cases hn
  · cases hn

lemma fits_landed (h : b.Fits) : (c.landed f drift b).Fits := by
  have hkind := h.kind
  unfold landed
  split
  · exact h
  · next hk =>
    rw [hk] at hkind
    exact ⟨h.id, hkind⟩
  · next hk =>
    rw [hk] at hkind
    split
    · exact h
    · next now hnow =>
      split
      · exact h
      · exact ⟨h.id, currentLine?_le hnow, hkind.2⟩

/-- Of a breakpoint that lands on its line the same is stored. -/
lemma stored_landed (h : (c.landed f drift b).line? = b.line?) : (c.landed f drift b).stored = b.stored := by
  unfold landed at h ⊢
  split
  · rfl
  · next hk => simp [stored, Kind.stored, hk]
  · next hk =>
    rw [hk] at h
    dsimp only at h
    split
    · rfl
    · next now hnow =>
      rw [hnow] at h
      dsimp only at h
      split
      · rfl
      · next hfree =>
        rw [if_neg hfree] at h
        simp only [Breakpoint.line?, hk, Option.some.injEq] at h
        simp [stored, Kind.stored, hk, h]

lemma Storable.follow (h : Storable c) (hb : b ∈ c.entries) : Storable (c.follow f drift b).2 := by
  have hsound := h.sound.follow f drift b
  rw [h.sound.follow_eq hb] at hsound ⊢
  exact h.modify hsound fun _ _ _ => fits_landed (h.fits b hb)

/-- Following anchors changes lines only, and breakpoints whose lines it changes are given. -/
theorem Storable.followAll (h : Storable c) (hawaits : Awaits c l) :
    Storable (Catalog.followAll f drift l c).2 ∧
      ((Catalog.followAll f drift l c).1 = [] →
        (Catalog.followAll f drift l c).2.entries.map stored = c.entries.map stored) := by
  induction l generalizing c with
  | nil => exact ⟨h, fun _ => rfl⟩
  | cons b rest ih =>
    have hb := hawaits.mem b List.mem_cons_self
    obtain ⟨hstorable, hsame⟩ := ih (h.follow hb) (hawaits.next f drift)
    refine ⟨hstorable, ?_⟩
    intro hnone
    have hparts : (c.follow f drift b).1.toList ++ (Catalog.followAll f drift rest (c.follow f drift b).2).1 = [] := hnone
    obtain ⟨hfirst, hrest⟩ := List.append_eq_nil_iff.mp hparts
    refine (hsame hrest).trans ?_
    rw [h.sound.follow_eq hb] at hfirst ⊢
    refine stored_modify ?_
    intro x hx hid
    obtain rfl := h.sound.eq_of_id_eq hx hb hid
    refine stored_landed ?_
    -- it would be given if it were on another line
    by_contra hmoved
    rw [if_neg hmoved] at hfirst
    cases hfirst

end Following

end Catalog

end Switchboard.Debug.Breakpoint
