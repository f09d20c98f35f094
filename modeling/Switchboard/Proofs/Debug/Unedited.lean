import Switchboard.Proofs.Breakpoint.Unedited
import Switchboard.Proofs.Debug.Verifying

/-!
# Breakpoints while their file is not edited

* `Relocates`, `Moves`: a command sends the breakpoints of a file to their anchors, and a breakpoint is moved by that;
* `Unchanged`: whenever the file is read for that it has the same text, or cannot be read;
* `kind_succ`: nothing else than a relocation changes the line or the anchor of a breakpoint;
* `put_of_add`: what an editor puts into a file is anchored there;
* `moves_iff_overhangs`: such a breakpoint leaves its line only if its column is right after the break.

The column may be one more than the line has characters, its break included. The anchor of such a place is the first
character of the next line, and that is where the breakpoint is sent when its file is next synchronized.
-/

namespace Switchboard.Debug.Upkeep

open Breakpoint (Catalog Put lineOn anchorIn? lineLimit)
open Breakpoint.Catalog (Sound Inherits followAll)

/-- In this turn a command sends the breakpoints of a file to their anchors. -/
def Relocates (r : Run) (n : Nat) (q : Path) : Prop := ∃ i s, r.schedule n = .step i ∧ r.Stands n i (.tell s (.file q))

/-- The breakpoint of an id is among those that this gives as moved. -/
def Moves (r : Run) (n id : Nat) : Prop :=
  ∃ q, Relocates r n q ∧ ∃ y ∈ ((r.moment n).state.debugger.relocate (r.moment n).state.disk q).1, y.id = id

/-- From turn `m` to turn `n` a file has this text whenever its breakpoints are sent to their anchors, or it cannot be
read; the anchors are where they were issued. -/
def Unchanged (r : Run) (f : Text.Lines) (path : Path) (m n : Nat) : Prop :=
  ∀ t q, m ≤ t → t < n → Relocates r t q → path.same q = true →
    ((r.moment t).state.debugger.shown? (r.moment t).state.disk q = none ∨
        (r.moment t).state.debugger.shown? (r.moment t).state.disk q = some f) ∧
      (r.moment t).state.debugger.driftOf q = 0

/-! ## Turns -/

section Chores

variable {w w' : World}

/-- Only a relocation changes where a breakpoint is. -/
lemma kind_next {ch : Chore} {l : List Chore} (h : ch.next w = some (l, w')) (hsound : Sound w.debugger.breakpoints)
    (hroom : w.debugger.breakpoints.nextId + 1 < Catalog.idLimit) (hch : ∀ s q, ch ≠ .tell s (.file q))
    {c : Breakpoint} (hc : c ∈ w'.debugger.breakpoints.entries) :
    (∃ a ∈ w.debugger.breakpoints.entries, a.id = c.id ∧ (a.isException = false → c.kind = a.kind)) ∨
      w.debugger.breakpoints.nextId ≤ c.id := by
  have hsame : w'.debugger.breakpoints = w.debugger.breakpoints →
      ∃ a ∈ w.debugger.breakpoints.entries, a.id = c.id ∧ (a.isException = false → c.kind = a.kind) :=
    fun heq => ⟨c, heq ▸ hc, rfl, fun _ => rfl⟩
  cases ch with
  | change call =>
    obtain ⟨-, rfl⟩ := Prod.mk.inj (Option.some.inj h)
    rcases (inherits_change hsound hroom call).old c hc with ⟨a, ha, hkeeps⟩ | ⟨hnew, -⟩
    · exact .inl ⟨a, ha, hkeeps.id.symm, hkeeps.place⟩
    · exact .inr hnew
  | record sent responses =>
    obtain ⟨-, rfl⟩ := Prod.mk.inj (Option.some.inj h)
    obtain ⟨a, ha, hid, hkind⟩ := hsound.exists_mem_of_applyVerification (sent.map (·.1)) responses hc
    exact .inl ⟨a, ha, hid, fun _ => hkind.symm⟩
  | errand e =>
    simp only [Chore.next] at h
    split at h
    · obtain ⟨-, rfl⟩ := Prod.mk.inj (Option.some.inj h)
      exact .inl (hsame rfl)
    · cases h
  | ask q c stage live =>
    obtain ⟨r, -, heq⟩ := Option.map_eq_some_iff.mp h
    obtain ⟨-, rfl⟩ := Prod.mk.inj heq
    exact .inl (hsame rfl)
  | tell s t =>
    cases t with
    | file q => exact absurd rfl (hch s q)
    | exceptions =>
      obtain ⟨-, rfl⟩ := Prod.mk.inj (Option.some.inj h)
      exact .inl (hsame rfl)
  | list s | choose e | check s t | read s path =>
    obtain ⟨-, rfl⟩ := Prod.mk.inj (Option.some.inj h)
    exact .inl (hsame rfl)

end Chores

section Turns

variable {r : Run} {n : Nat}

lemma Relocates.unique {q q' : Path} (h : Relocates r n q) (h' : Relocates r n q') : q' = q := by
  obtain ⟨i, s, turn, hstands⟩ := h
  obtain ⟨i', s', turn', hstands'⟩ := h'
  obtain rfl := Ensemble.Turn.step.inj (turn'.symm.trans turn)
  injection hstands'.eq hstands with _ htopic
  exact Topic.file.inj htopic

lemma catalog_of_relocates {q : Path} (h : Relocates r n q) :
    r.catalog (n + 1) = ((r.moment n).state.debugger.relocate (r.moment n).state.disk q).2.breakpoints := by
  obtain ⟨i, s, turn, job, rest, here⟩ := h
  have hstep : upkeep.step job (.tell s (.file q) :: rest) (r.moment n).state
      = some ([.read s q] ++ rest, (r.moment n).state.relocate q) := rfl
  have hplay := upkeep.play_succ_of_step turn here hstep
  rw [← breakpoints_relocate]
  exact congrArg (fun m : Ensemble.Moment World Job (List Chore) => m.state.debugger.breakpoints) hplay

/-- In a turn in which no breakpoints are sent to their anchors, all that were there stay where they are. -/
lemma kind_succ (hsound : Sound (r.catalog n)) (hroom : (r.catalog n).nextId + 1 < Catalog.idLimit)
    (hnone : ∀ q, ¬ Relocates r n q) {c : Breakpoint} (hc : c ∈ (r.catalog (n + 1)).entries) :
    (∃ a ∈ (r.catalog n).entries, a.id = c.id ∧ (a.isException = false → c.kind = a.kind)) ∨
      (r.catalog n).nextId ≤ c.id := by
  have hturn := upkeep.happens_play r.start r.schedule n
  have hlater : r.catalog (n + 1) = (upkeep.play r.start r.schedule (n + 1)).state.debugger.breakpoints := rfl
  rw [hlater] at hc
  generalize upkeep.play r.start r.schedule (n + 1) = later at hturn hc
  cases hturn with
  | still | begins job begun | around f other => exact .inl ⟨c, hc, rfl, fun _ => rfl⟩
  | moves i job before after state turn here steps =>
    cases before with
    | nil => cases steps
    | cons ch rest =>
      obtain ⟨x, hnext, heq⟩ := Option.map_eq_some_iff.mp steps
      obtain ⟨-, rfl⟩ := Prod.mk.inj heq
      exact kind_next hnext hsound hroom (fun s q hch => hnone q ⟨i, s, turn, job, rest, hch ▸ here⟩) hc

/-! ## Breakpoints that were put on a line -/

variable {f : Text.Lines} {path : Path} {line : Nat} {column : Option Nat} {id m : Nat}

/-- Every breakpoint of the id was put on the line and column. -/
def AllPut (r : Run) (f : Text.Lines) (path : Path) (line : Nat) (column : Option Nat) (n id : Nat) : Prop :=
  ∀ x ∈ (r.catalog n).entries, x.id = id → Put f path line column x

/-- When its line is left: the place is on another line, and that is free when it is the breakpoint's turn. -/
def Leaves (r : Run) (f : Text.Lines) (line : Nat) (column : Option Nat) (n id : Nat) : Prop :=
  lineOn f line column < lineLimit ∧ ∃ q before x after, Relocates r n q ∧
    (r.moment n).state.debugger.shown? (r.moment n).state.disk q = some f ∧
    (r.catalog n).forFile q = before ++ x :: after ∧ x.id = id ∧ x.line? = some line ∧ x.anchor? ≠ none ∧
    ¬ (followAll f 0 before (r.catalog n)).2.Taken q (lineOn f line column)

/-- In the turn of a relocation one that was put on a line leaves it or stays. -/
lemma moves_iff_leaves (hf : f.Broken) (hsound : Sound (r.catalog n)) (hsame : Unchanged r f path n (n + 1))
    (hput : AllPut r f path line column n id) :
    Moves r n id ↔ lineOn f line column ≠ line ∧ Leaves r f line column n id := by
  have hturn : ∀ {q : Path} {before after : List Breakpoint} {x : Breakpoint},
      (r.catalog n).forFile q = before ++ x :: after → x.id = id →
        x.isIn q = true ∧ Put f path line column x ∧ x ∈ (followAll f 0 before (r.catalog n)).2.entries := by
    intro q before after x hall hid
    have hawaits := hsound.awaits q
    obtain ⟨hmem, hin⟩ := Catalog.mem_forFile.mp (show x ∈ (r.catalog n).forFile q by simp [hall])
    rw [hall] at hawaits
    exact ⟨hin, hput x hmem hid, (hawaits.rest f 0).mem x (List.mem_cons_self ..)⟩
  constructor
  · rintro ⟨q, hq, hgiven⟩
    cases hshown : (r.moment n).state.debugger.shown? (r.moment n).state.disk q with
    | none =>
      rw [Debugger.relocate_eq_of_none hshown] at hgiven
      obtain ⟨y, hy, -⟩ := hgiven
      cases hy
    | some g =>
      obtain ⟨x, hx, hid, y, hget, hmoved⟩ := (Debugger.mem_relocate_iff hsound hshown id).mp hgiven
      obtain ⟨before, after, hall⟩ := List.append_of_mem hx
      obtain ⟨hin, hxput, hthere⟩ := hturn hall hid
      obtain ⟨hread, hdrift⟩ := hsame n q (Nat.le_refl n) (Nat.lt_succ_self n) hq ((hxput.isIn_iff q).mp hin)
      obtain rfl : g = f := by simpa [hshown] using hread
      rw [← hid, Debugger.get?_relocate hsound hshown hall, hdrift] at hget
      obtain rfl := Option.some.inj hget
      obtain ⟨hne, hlimit, hline, hanchor, hopen⟩ :=
        (Catalog.line?_landed_ne_iff_of_put hf hxput hthere hin).mp hmoved
      exact ⟨hne, hlimit, q, before, x, after, hq, hshown, hall, hid, hline, hanchor, hopen⟩
  · rintro ⟨hne, hlimit, q, before, x, after, hq, hshown, hall, rfl, hline, hanchor, hopen⟩
    obtain ⟨hin, hxput, hthere⟩ := hturn hall rfl
    have hdrift := (hsame n q (Nat.le_refl n) (Nat.lt_succ_self n) hq ((hxput.isIn_iff q).mp hin)).2
    have hget := Debugger.get?_relocate hsound hshown hall
    rw [hdrift] at hget
    refine ⟨q, hq, (Debugger.mem_relocate_iff hsound hshown x.id).mpr ⟨x, ?_, rfl, _, hget, ?_⟩⟩
    · rw [show (r.moment n).state.debugger.breakpoints.forFile q = _ from hall]
      simp
    · exact (Catalog.line?_landed_ne_iff_of_put hf hxput hthere hin).mpr ⟨hne, hlimit, hline, hanchor, hopen⟩

/-- In a turn in which its file is sent to the anchors a breakpoint that was put on a line remains one, and its line is
another one if it is among those given. -/
lemma put_succ_of_relocates (hf : f.Broken) (hsound : Sound (r.catalog n)) (hsame : Unchanged r f path n (n + 1))
    (hput : AllPut r f path line column n id) {q : Path} (hq : Relocates r n q) {c : Breakpoint}
    (hc : c ∈ (r.catalog (n + 1)).entries) (hid : c.id = id) :
    Put f path line column c ∧ ∃ a ∈ (r.catalog n).entries, a.id = id ∧ (Moves r n id ↔ c.line? ≠ a.line?) := by
  have hmoves : Moves r n id ↔ ∃ y ∈ ((r.moment n).state.debugger.relocate (r.moment n).state.disk q).1, y.id = id := by
    constructor
    · rintro ⟨q', hq', hgiven⟩
      exact hq.unique hq' ▸ hgiven
    · exact fun hgiven => ⟨q, hq, hgiven⟩
  rw [catalog_of_relocates hq] at hc
  rw [hmoves]
  cases hshown : (r.moment n).state.debugger.shown? (r.moment n).state.disk q with
  | none =>
    rw [Debugger.relocate_eq_of_none hshown] at hc ⊢
    exact ⟨hput c hc hid, c, hc, hid, by simp⟩
  | some g =>
    have hget := (Debugger.sound_relocate hsound hshown).get?_eq_some_iff.mpr ⟨hc, hid⟩
    obtain ⟨a, ha, haid, hother⟩ := Debugger.exists_mem_of_relocate hsound hshown hc
    have haput := hput a ha (haid.trans hid)
    refine ⟨?_, a, ha, haid.trans hid, ?_⟩
    · cases hin : a.isIn q with
      | false => exact hother hin ▸ haput
      | true =>
        obtain ⟨before, after, hall⟩ := List.append_of_mem (Catalog.mem_forFile.mpr ⟨ha, hin⟩)
        obtain ⟨hread, hdrift⟩ := hsame n q (Nat.le_refl n) (Nat.lt_succ_self n) hq ((haput.isIn_iff q).mp hin)
        obtain rfl : g = f := by simpa [hshown] using hread
        rw [← hid, ← haid, Debugger.get?_relocate hsound hshown hall, hdrift] at hget
        exact Option.some.inj hget ▸ haput.landed hf _
    · rw [Debugger.mem_relocate_iff hsound hshown]
      constructor
      · rintro ⟨x, hx, hxid, y, hy, hmoved⟩
        obtain rfl := Option.some.inj (hget.symm.trans hy)
        obtain rfl := hsound.eq_of_id_eq (Catalog.mem_forFile.mp hx).1 ha (hxid.trans (haid.trans hid).symm)
        exact hmoved
      · intro hmoved
        have hin : a.isIn q = true := by
          by_contra hout
          exact hmoved (congrArg Breakpoint.line? (hother (Bool.eq_false_iff.mpr hout)))
        exact ⟨a, Catalog.mem_forFile.mpr ⟨ha, hin⟩, haid.trans hid, c, hget, hmoved⟩

/-- So it is in every turn. -/
lemma put_succ (hf : f.Broken) (hsound : Sound (r.catalog n)) (hroom : (r.catalog n).nextId + 1 < Catalog.idLimit)
    (hsame : Unchanged r f path n (n + 1)) (hput : AllPut r f path line column n id) (hold : id < (r.catalog n).nextId)
    {c : Breakpoint} (hc : c ∈ (r.catalog (n + 1)).entries) (hid : c.id = id) :
    Put f path line column c ∧ ∃ a ∈ (r.catalog n).entries, a.id = id ∧ (Moves r n id ↔ c.line? ≠ a.line?) := by
  by_cases hrelocates : ∃ q, Relocates r n q
  · obtain ⟨q, hq⟩ := hrelocates
    exact put_succ_of_relocates hf hsound hsame hput hq hc hid
  · have hnone : ∀ q, ¬ Relocates r n q := fun q hq => hrelocates ⟨q, hq⟩
    rcases kind_succ hsound hroom hnone hc with ⟨a, ha, haid, hkind⟩ | hnew
    · have haput := hput a ha (haid.trans hid)
      have hkind := hkind haput.isException_eq
      refine ⟨haput.congr hkind, a, ha, haid.trans hid, iff_of_false ?_ ?_⟩
      · rintro ⟨q, hq, -⟩
        exact hnone q hq
      · rw [Breakpoint.line?, Breakpoint.line?, hkind]
        exact not_not_intro rfl
    · omega

/-! ## Runs -/

/-- As long as the file is unchanged, a breakpoint is on the line it was put on until it is moved, and then on the one on
which its place is. -/
lemma line?_of_unchanged (hf : f.Broken) (hstart : Sound r.start.debugger.breakpoints) (hmn : m ≤ n) (hroom : Room r n)
    (hsame : Unchanged r f path m n) {b : Breakpoint} (hb : b ∈ (r.catalog m).entries) (hput : Put f path line column b)
    (hline : b.line? = some line) :
    ∀ c ∈ (r.catalog n).entries, c.id = b.id → Put f path line column c ∧
      ((c.line? = some line ∧ ∀ t, m ≤ t → t < n → ¬ Moves r t b.id) ∨
        c.line? = some (lineOn f line column) ∧ lineOn f line column ≠ line ∧
          ∃ t, m ≤ t ∧ t < n ∧ Moves r t b.id) := by
  induction n, hmn using Nat.le_induction with
  | base =>
    intro c hc hid
    obtain rfl := (sound_catalog hstart hroom).eq_of_id_eq hc hb hid
    exact ⟨hput, .inl ⟨hline, fun t hle hlt => absurd hlt (Nat.not_lt.mpr hle)⟩⟩
  | succ n hmn ih =>
    have hbefore : Room r n := fun t ht => hroom t (Nat.lt_succ_of_lt ht)
    have ih := ih hbefore fun t q hle hlt => hsame t q hle (Nat.lt_succ_of_lt hlt)
    have hsound := sound_catalog hstart hbefore
    have hall : AllPut r f path line column n b.id := fun x hx hid => (ih x hx hid).1
    have hturn : Unchanged r f path n (n + 1) := fun t q hle hlt => hsame t q (hmn.trans hle) hlt
    have hold : b.id < (r.catalog n).nextId :=
      Nat.lt_of_lt_of_le ((sound_catalog hstart fun t ht => hbefore t (ht.trans_le hmn)).below b hb)
        (exists_mem_catalog hstart hbefore hmn).1
    intro c hc hid
    obtain ⟨hcput, a, ha, haid, hmoves⟩ := put_succ hf hsound (hroom n (Nat.lt_succ_self n)) hturn hall hold hc hid
    refine ⟨hcput, ?_⟩
    by_cases hmoved : Moves r n b.id
    · -- it was on its line till then, so it is on the other one now
      obtain ⟨hne, -, q, before, x, after, -, -, hfile, hxid, hxline, -⟩ :=
        (moves_iff_leaves hf hsound hturn hall).mp hmoved
      have hx := (Catalog.mem_forFile.mp (show x ∈ (r.catalog n).forFile q by simp [hfile])).1
      obtain rfl := hsound.eq_of_id_eq ha hx (haid.trans hxid.symm)
      refine .inr ⟨hcput.line?_eq.resolve_left ?_, hne, n, hmn, Nat.lt_succ_self n, hmoved⟩
      exact fun hstill => hmoves.mp hmoved (hstill.trans hxline.symm)
    · have hstill : c.line? = a.line? := by
        by_contra hother
        exact hmoved (hmoves.mpr hother)
      rw [hstill]
      rcases (ih a ha haid).2 with ⟨haline, hnever⟩ | ⟨haline, hne, t, hle, hlt, ht⟩
      · refine .inl ⟨haline, fun t hle hlt => ?_⟩
        rcases Nat.lt_succ_iff_lt_or_eq.mp hlt with hlt | rfl
        · exact hnever t hle hlt
        · exact hmoved
      · exact .inr ⟨haline, hne, t, hle, Nat.lt_succ_of_lt hlt, ht⟩

/-! ## What an editor puts into a file -/

/-- A breakpoint that an editor adds has the anchor of its place in the text that its file has then. -/
lemma kind_of_add (hsound : Sound (r.catalog n)) {i : Nat} {project : String} (turn : r.schedule n = .step i)
    (hstands : r.Stands n i (.change (.add project path line column)))
    (hread : (r.moment n).state.debugger.linesOf? (r.moment n).state.disk project path = some f) {c : Breakpoint}
    (hc : c ∈ (r.catalog (n + 1)).entries) (hnew : c.id = (r.catalog n).nextId) :
    c.kind = .line project path line column (anchorIn? f line column) := by
  obtain ⟨job, rest, here⟩ := hstands
  have hplay := upkeep.play_succ_of_step turn here rfl
  have hlater : r.catalog (n + 1)
      = ((Editing.Call.add project path line column).change (r.moment n).state).2.debugger.breakpoints :=
    congrArg (fun m : Ensemble.Moment World Job (List Chore) => m.state.debugger.breakpoints) hplay
  -- what has the next id was not there before
  have hadded : c ∉ (r.catalog n).entries := fun hmem => Nat.lt_irrefl _ (hnew ▸ hsound.below c hmem)
  rw [hlater, breakpoints_add] at hc
  split at hc
  · exact absurd hc hadded
  · rw [hread, Option.bind_some, Catalog.addLine] at hc
    split at hc
    · exact absurd hc hadded
    · rcases Catalog.inserts.mem_iff (fun a ha => Nat.ne_of_lt (hsound.below a ha)) |>.mp hc with rfl | hmem
      · rfl
      · exact absurd hmem hadded

end Turns

/-- While its file is unchanged, a breakpoint that has the anchor of its place, as an editor's have, or is yet to get it,
stays on its line and is not among those that relocations give, unless there is no such line or its column is right after
the break. Such a one is moved, to the line on which its place is, in the first turn in which the file is sent to the
anchors, the breakpoint has its anchor, and that line is free when it is its turn; there it stays. -/
theorem moves_iff_overhangs (r : Run) (text : String) (path : Path) (n : Nat)
    (hstart : Sound r.start.debugger.breakpoints) (hroom : Room r n) :
    let f := Text.Lines.ofText text
    (∀ t < n, ∀ i project line column, r.schedule t = .step i →
        r.Stands t i (.change (.add project path line column)) →
        (r.moment t).state.debugger.linesOf? (r.moment t).state.disk project path = some f →
        ∀ c ∈ (r.catalog (t + 1)).entries, c.id = (r.catalog t).nextId →
          c.kind = .line project path line column (anchorIn? f line column)) ∧
      ∀ m ≤ n, Unchanged r f path m n → ∀ b ∈ (r.catalog m).entries, ∀ project line column anchor,
        b.kind = .line project path line column anchor → (∀ a, anchor = some a → anchorIn? f line column = some a) →
        (∀ t, m ≤ t → t < n → (Moves r t b.id ↔
            (line = 0 ∨ f.Overhangs (.ofOneBased line (column.getD 1))) ∧ Leaves r f line column t b.id)) ∧
          ∀ c ∈ (r.catalog n).entries, c.id = b.id →
            (c.line? = some line ∧ ∀ t, m ≤ t → t < n → ¬ Moves r t b.id) ∨
              c.line? = some (lineOn f line column) ∧ lineOn f line column ≠ line ∧
                ∃ t, m ≤ t ∧ t < n ∧ Moves r t b.id := by
  intro f
  have hf : f.Broken := Text.Lines.broken_ofText text
  refine ⟨fun t ht i project line column turn hstands hread c hc hnew => ?_, ?_⟩
  · exact kind_of_add (sound_catalog hstart fun s hs => hroom s (hs.trans ht)) turn hstands hread hc hnew
  · intro m hmn hsame b hb project line column anchor hkind hanchor
    have hput : Put f path line column b := .of_kind hkind hanchor
    have hline : b.line? = some line := by simp [Breakpoint.line?, hkind]
    refine ⟨fun t hle hlt => ?_, fun c hc hid =>
      (line?_of_unchanged hf hstart hmn hroom hsame hb hput hline c hc hid).2⟩
    have hbefore : Room r t := fun s hs => hroom s (hs.trans hlt)
    have hall := line?_of_unchanged hf hstart hle hbefore (fun s q hms hst => hsame s q hms (hst.trans hlt)) hb hput hline
    rw [← Breakpoint.lineOn_ne_iff]
    exact moves_iff_leaves hf (sound_catalog hstart hbefore) (fun s q hts hst => hsame s q (hle.trans hts) (by omega))
      fun x hx hid => (hall x hx hid).1

/-! ### A column right after the break -/

/-- Two lines in a file, and a session that is ready. -/
def twoLines : World := { readySession with
  disk := { entries := [(["b.py"], .file "ab\ncd\n".toUTF8)] } }

/-- A breakpoint is added in the fourth column of the first line, which has three characters. -/
def overhanging : Run where
  start := twoLines
  schedule n := if n = 0 then .begins (.edit (.add "p" Debugger.blockPath 1 (some 4))) else .step 0

/-- The file whose breakpoints are sent to their anchors by a chore. -/
def Chore.relocated? : Chore → Option Path
  | .tell _ (.file q) => some q
  | _ => none

/-- When it is sent to the adapter it is moved to the second line, although the file is as it was. -/
theorem moves_overhanging :
    (∃ b ∈ (overhanging.catalog 2).entries, b.id = 1 ∧ b.line? = some 1) ∧
      Unchanged overhanging (.ofText "ab\ncd\n") Debugger.blockPath 2 6 ∧ (∃ t, 2 ≤ t ∧ t < 6 ∧ Moves overhanging t 1) ∧
      ∃ c ∈ (overhanging.catalog 6).entries, c.id = 1 ∧ c.line? = some 2 := by
  have hstart : Sound overhanging.start.debugger.breakpoints := Catalog.sound_empty
  have hroom : Room overhanging 6 := by
    unfold Room
    decide +kernel
  have hread : ∀ t < 6, ((overhanging.upNext t).bind fun x => x.2.relocated?).all (fun q => decide
      ((overhanging.moment t).state.debugger.shown? (overhanging.moment t).state.disk q = some (.ofText "ab\ncd\n") ∧
        (overhanging.moment t).state.debugger.driftOf q = 0)) = true := by
    decide +kernel
  have hsame : Unchanged overhanging (.ofText "ab\ncd\n") Debugger.blockPath 2 6 := by
    rintro t q - hlt ⟨i, s, turn, hstands⟩ -
    have hread := hread t hlt
    rw [hstands.upNext turn] at hread
    obtain ⟨hshown, hdrift⟩ := of_decide_eq_true hread
    exact ⟨.inr hshown, hdrift⟩
  have hadded : ∃ b ∈ (overhanging.catalog 2).entries, b.id = 1 ∧
      b.kind = .line "p" Debugger.blockPath 1 (some 4) (anchorIn? (.ofText "ab\ncd\n") 1 (some 4)) := by
    decide +kernel
  have hthere : ∃ c ∈ (overhanging.catalog 6).entries, c.id = 1 ∧ c.line? ≠ some 1 := by decide +kernel
  obtain ⟨b, hb, hid, hkind⟩ := hadded
  obtain ⟨c, hc, hcid, hline⟩ := hthere
  obtain ⟨-, hfile⟩ := moves_iff_overhangs overhanging "ab\ncd\n" Debugger.blockPath 6 hstart hroom
  obtain ⟨-, hplace⟩ := hfile 2 (by decide) hsame b hb "p" 1 (some 4) _ hkind fun a ha => ha
  rcases hplace c hc (hcid.trans hid.symm) with ⟨hstays, -⟩ | ⟨hgone, -, t, hle, hlt, hmoves⟩
  · exact absurd hstays hline
  · refine ⟨⟨b, hb, hid, by simp [Breakpoint.line?, hkind]⟩, hsame, ⟨t, hle, hlt, hid ▸ hmoves⟩, c, hc, hcid, ?_⟩
    rw [hgone]
    decide +kernel

end Switchboard.Debug.Upkeep
