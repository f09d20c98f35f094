import Switchboard.Proofs.Breakpoint.Shown
import Switchboard.Proofs.Debug.Errands
import Switchboard.Proofs.Debug.Synchronizing

/-!
# Edits of a breakpoint, all or none

* `Breakpoint.Improper`: why one edit cannot be done; `set_eq_error_iff`: these are all the reasons;
* `Breakpoint.Judged`: what a list of edits comes to, told by its first `clear` or its first edit that cannot be done;
  `judged_iff`: the edits are taken as they are judged;
* `Catalog.Comes`: the same for the breakpoint of an id; `World.Amends`: what one change of a breakpoint does;
* `World.Follows`: what adapters are sent afterwards, and what is made of their answers;
* `edit_all_or_nothing`: a call that fails changes nothing at all, and any other makes one change before adapters are
  told.
-/

namespace Switchboard.Debug

namespace Breakpoint

/-- One edit as an editor writes it: the name of a property, and a value. -/
abbrev Edit := String × String

/-! ## Single edits -/

/-- A name of a property, in letters of either case. -/
def Property.Named (name : String) (p : Property) : Prop := Text.upper name = p.name

/-- The words for yes and no. -/
def truths : List String := ["true", "1", "yes", "on", "false", "0", "no", "off"]

/-- The word that a value is read as where a truth value is wanted. -/
def wordOf (value : String) : String := Text.lower (Text.trim value)

/-- Properties whose value is a truth value. -/
def Property.IsFlag : Property → Prop
  | enabled | conditionEnabled | caught | uncaught => True
  | _ => False

/-- Properties of the exception breakpoint alone. -/
def Property.IsOfExceptions : Property → Prop
  | caught | uncaught => True
  | _ => False

/-- The edit asks to remove the breakpoint. -/
def Clears (e : Edit) : Prop := Property.Named e.1 .clear

/-- Do one edit. -/
def set (b : Breakpoint) (e : Edit) : Except Fault Breakpoint := do b.apply (← Property.ofName e.1) e.2

/-- Why an edit cannot be done on a breakpoint. -/
inductive Improper (b : Breakpoint) : Edit → Fault → Prop
  | unnamed {name value : String} : (∀ p, ¬ Property.Named name p) → Improper b (name, value) (.unknownProperty name)
  | noTruth {name value : String} {p : Property} : Property.Named name p → p.IsFlag → wordOf value ∉ truths →
    Improper b (name, value) (.notABoolean p.name (wordOf value))
  | misplaced {name value : String} {p : Property} : Property.Named name p → p.IsOfExceptions →
    wordOf value ∈ truths → b.isException = false → Improper b (name, value) (.exceptionOnly p.name)

namespace Property

lemma name_inj {p q : Property} (h : p.name = q.name) : p = q := by
  cases p <;> cases q <;> first | rfl | exact absurd h (by decide)

lemma Named.unique {name : String} {p q : Property} (hp : Named name p) (hq : Named name q) : p = q :=
  name_inj (hp.symm.trans hq)

lemma lookup_names (p : Property) : names.lookup p.name = some p := by
  cases p <;> decide

lemma name_of_lookup {word : String} {p : Property} (h : names.lookup word = some p) : word = p.name := by
  have hmem : (word, p) ∈ names := by
    obtain ⟨before, after, heq, -⟩ := List.lookup_eq_some_iff.mp h
    rw [heq]
    exact List.mem_append_right _ List.mem_cons_self
  simp only [names, List.mem_cons, Prod.mk.injEq, List.not_mem_nil, or_false] at hmem
  rcases hmem with ⟨rfl, rfl⟩ | ⟨rfl, rfl⟩ | ⟨rfl, rfl⟩ | ⟨rfl, rfl⟩ | ⟨rfl, rfl⟩ | ⟨rfl, rfl⟩ | ⟨rfl, rfl⟩ | ⟨rfl, rfl⟩ <;> rfl

/-- A property is found by its name, in letters of either case. -/
lemma ofName_eq_ok_iff {name : String} {p : Property} : ofName name = .ok p ↔ Named name p := by
  unfold ofName Named
  constructor
  · intro h
    cases hlookup : names.lookup (Text.upper name) with
    | none =>
      rw [hlookup] at h
      cases h
    | some q =>
      rw [hlookup] at h
      obtain rfl := Except.ok.inj h
      exact name_of_lookup hlookup
  · intro h
    rw [h, lookup_names]
    rfl

/-- A name that no property has is told as it was written. -/
lemma ofName_cases (name : String) :
    (∃ p, Named name p ∧ ofName name = .ok p) ∨ (∀ p, ¬ Named name p) ∧ ofName name = .error (.unknownProperty name) := by
  cases h : ofName name with
  | ok p => exact .inl ⟨p, ofName_eq_ok_iff.mp h, rfl⟩
  | error e =>
    refine .inr ⟨fun p hp => ?_, ?_⟩
    · rw [ofName_eq_ok_iff.mpr hp] at h
      cases h
    · unfold ofName at h
      split at h
      · cases h
      · exact h.symm

end Property

/-- A truth value is read if its word is one of those for yes and no. -/
lemma flag_cases (p : Property) (value : String) :
    (wordOf value ∈ truths ∧ ∃ on, flag p value = .ok on) ∨
      wordOf value ∉ truths ∧ flag p value = .error (.notABoolean p.name (wordOf value)) := by
  have htruths : wordOf value ∈ truths ↔
      wordOf value ∈ ["true", "1", "yes", "on"] ∨ wordOf value ∈ ["false", "0", "no", "off"] :=
    List.mem_append (s := ["true", "1", "yes", "on"])
  rw [htruths]
  unfold flag
  by_cases hyes : wordOf value ∈ ["true", "1", "yes", "on"]
  · exact .inl ⟨.inl hyes, true, if_pos hyes⟩
  · by_cases hno : wordOf value ∈ ["false", "0", "no", "off"]
    · exact .inl ⟨.inr hno, false, (if_neg hyes).trans (if_pos hno)⟩
    · exact .inr ⟨not_or.mpr ⟨hyes, hno⟩, (if_neg hyes).trans (if_neg hno)⟩

/-- A value that is read where one is wanted is needed, and nothing else. -/
lemma exists_apply {b : Breakpoint} {p : Property} {value : String} (hp : p ≠ .clear)
    (hvalue : p.IsFlag → wordOf value ∈ truths) (hplace : p.IsOfExceptions → b.isException = true) :
    ∃ now, b.apply p value = .ok now := by
  have hflag : p.IsFlag → ∃ on, flag p value = .ok on := by
    intro h
    rcases flag_cases p value with ⟨-, hon⟩ | ⟨hno, -⟩
    · exact hon
    · exact absurd (hvalue h) hno
  cases p with
  | clear => exact absurd rfl hp
  | condition | hitCondition | logMessage => exact ⟨_, rfl⟩
  | enabled | conditionEnabled =>
    obtain ⟨on, hon⟩ := hflag trivial
    simp only [apply, hon]
    exact ⟨_, rfl⟩
  | caught | uncaught =>
    obtain ⟨on, hon⟩ := hflag trivial
    have hexception := hplace trivial
    cases hk : b.kind with
    | line project path line column anchor => simp [isException, hk] at hexception
    | exception caught uncaught =>
      simp only [apply, hon, hk]
      exact ⟨_, rfl⟩

lemma apply_of_noTruth (b : Breakpoint) {p : Property} {value : String} (hp : p.IsFlag) (hno : wordOf value ∉ truths) :
    b.apply p value = .error (.notABoolean p.name (wordOf value)) := by
  have hflag : flag p value = .error (.notABoolean p.name (wordOf value)) := by
    rcases flag_cases p value with ⟨hyes, -⟩ | ⟨-, herror⟩
    · exact absurd hyes hno
    · exact herror
  cases p with
  | clear | condition | hitCondition | logMessage => exact hp.elim
  | enabled | conditionEnabled | caught | uncaught =>
    simp only [apply, hflag]
    rfl

lemma apply_of_misplaced {b : Breakpoint} {p : Property} {value : String} (hp : p.IsOfExceptions)
    (hyes : wordOf value ∈ truths) (hline : b.isException = false) :
    b.apply p value = .error (.exceptionOnly p.name) := by
  obtain ⟨on, hon⟩ : ∃ on, flag p value = .ok on := by
    rcases flag_cases p value with ⟨-, hon⟩ | ⟨hno, -⟩
    · exact hon
    · exact absurd hyes hno
  cases p with
  | clear | condition | hitCondition | logMessage | enabled | conditionEnabled => exact hp.elim
  | caught | uncaught =>
    cases hk : b.kind with
    | exception caught uncaught => simp [isException, hk] at hline
    | line project path line column anchor =>
      simp only [apply, hon, hk]
      rfl

section Set

variable {b : Breakpoint} {e : Edit} {fault : Fault}

lemma set_of_named {p : Property} (h : Property.Named e.1 p) : b.set e = b.apply p e.2 := by
  rw [set, Property.ofName_eq_ok_iff.mpr h]
  rfl

lemma Improper.not_clears (h : Improper b e fault) : ¬ Clears e := by
  intro hclears
  cases h with
  | unnamed hnone => exact hnone .clear hclears
  | noTruth hnamed hflag _ =>
    obtain rfl := hclears.unique hnamed
    exact hflag
  | misplaced hnamed hof _ _ =>
    obtain rfl := hclears.unique hnamed
    exact hof

lemma Improper.set_eq (h : Improper b e fault) : b.set e = .error fault := by
  cases h with
  | @unnamed name value hnone =>
    rcases Property.ofName_cases name with ⟨p, hp, -⟩ | ⟨-, herror⟩
    · exact absurd hp (hnone p)
    · simp only [set, herror]
      rfl
  | noTruth hnamed hflag hno => exact (set_of_named (e := (_, _)) hnamed).trans (apply_of_noTruth b hflag hno)
  | misplaced hnamed hof hyes hline => exact (set_of_named (e := (_, _)) hnamed).trans (apply_of_misplaced hof hyes hline)

/-- An edit is done, unless there is a reason why it cannot be. -/
lemma set_cases (b : Breakpoint) (h : ¬ Clears e) :
    (∃ now, b.set e = .ok now) ∨ ∃ fault, Improper b e fault ∧ b.set e = .error fault := by
  obtain ⟨name, value⟩ := e
  -- the name is read first, then the value, and then the kind of the breakpoint is looked at
  suffices (∃ now, b.set (name, value) = .ok now) ∨ ∃ fault, Improper b (name, value) fault by
    exact this.imp_right fun ⟨fault, hfault⟩ => ⟨fault, hfault, hfault.set_eq⟩
  rcases Property.ofName_cases name with ⟨p, hp, -⟩ | ⟨hnone, -⟩
  · by_cases hvalue : p.IsFlag → wordOf value ∈ truths
    · by_cases hplace : p.IsOfExceptions → b.isException = true
      · have hset := exists_apply (b := b) (fun hclear : p = .clear => h (by rwa [hclear] at hp)) hvalue hplace
        rw [← set_of_named (e := (name, value)) hp] at hset
        exact .inl hset
      · obtain ⟨hof, hline⟩ := Classical.not_imp.mp hplace
        have hflag : p.IsFlag := by
          cases p <;> first | exact trivial | exact hof.elim
        exact .inr ⟨_, .misplaced hp hof (hvalue hflag) (Bool.eq_false_iff.mpr hline)⟩
    · obtain ⟨hflag, hno⟩ := Classical.not_imp.mp hvalue
      exact .inr ⟨_, .noTruth hp hflag hno⟩
  · exact .inr ⟨_, .unnamed hnone⟩

/-- These are all the reasons. -/
theorem set_eq_error_iff (h : ¬ Clears e) : b.set e = .error fault ↔ Improper b e fault := by
  refine ⟨fun herror => ?_, Improper.set_eq⟩
  rcases set_cases b h with ⟨now, hok⟩ | ⟨other, himproper, hother⟩
  · cases herror.symm.trans hok
  · obtain rfl := Except.error.inj (herror.symm.trans hother)
    exact himproper

/-! ### What edits leave alone -/

/-- The same breakpoint in the same place: nothing but what can be edited is different. -/
structure Keeps (b now : Breakpoint) : Prop where
  id : now.id = b.id
  verification : now.verification = b.verification
  isException : now.isException = b.isException
  /-- Project, path, line, column and anchor. -/
  place : b.isException = false → now.kind = b.kind

lemma Keeps.of_kind {b now : Breakpoint} (hid : now.id = b.id) (hverification : now.verification = b.verification)
    (hkind : now.kind = b.kind) : Keeps b now :=
  ⟨hid, hverification, (SamePlace.of_kind hid hkind).isException, fun _ => hkind⟩

lemma Keeps.refl (b : Breakpoint) : Keeps b b := .of_kind rfl rfl rfl

lemma Keeps.trans {b next now : Breakpoint} (h : Keeps b next) (h' : Keeps next now) : Keeps b now where
  id := h'.id.trans h.id
  verification := h'.verification.trans h.verification
  isException := h'.isException.trans h.isException
  place hline := (h'.place (h.isException.trans hline)).trans (h.place hline)

lemma keeps_apply {now : Breakpoint} {p : Property} {value : String} (h : b.apply p value = .ok now) : Keeps b now := by
  cases p with
  | clear => simp [apply, throw, throwThe, MonadExceptOf.throw] at h
  | condition | hitCondition | logMessage =>
    simp only [apply, pure, Except.pure, Except.ok.injEq] at h
    exact h ▸ .of_kind rfl rfl rfl
  | enabled | conditionEnabled =>
    obtain ⟨on, -, h⟩ := ok_of_bind_eq_ok h
    simp only [pure, Except.pure, Except.ok.injEq] at h
    exact h ▸ .of_kind rfl rfl rfl
  | caught | uncaught =>
    obtain ⟨on, -, h⟩ := ok_of_bind_eq_ok h
    cases hk : b.kind with
    | line project path line column anchor => simp [hk, throw, throwThe, MonadExceptOf.throw] at h
    | exception caught uncaught =>
      simp only [hk, pure, Except.pure, Except.ok.injEq] at h
      subst h
      exact ⟨rfl, rfl, by simp [isException, hk], fun hline => by simp [isException, hk] at hline⟩

end Set

/-! ## Lists of edits -/

/-- What a list of edits comes to. -/
inductive Verdict where
  | refused (fault : Fault)
  | removed
  | changed (now : Breakpoint)

/-- What a list of edits is to come to. What stands behind the first `clear`, or behind the first edit that cannot be
done, does not matter. -/
inductive Judged (b : Breakpoint) (edits : List Edit) : Verdict → Prop
  | refused {before after : List Edit} {e : Edit} {now : Breakpoint} {fault : Fault} :
    edits = before ++ e :: after → (∀ x ∈ before, ¬ Clears x) → before.foldlM set b = .ok now →
      Improper now e fault → Judged b edits (.refused fault)
  | removed {before after : List Edit} {e : Edit} {now : Breakpoint} :
    edits = before ++ e :: after → (∀ x ∈ before, ¬ Clears x) → before.foldlM set b = .ok now →
      Clears e → Judged b edits .removed
  | changed {now : Breakpoint} :
    (∀ x ∈ edits, ¬ Clears x) → edits.foldlM set b = .ok now → Judged b edits (.changed now)

/-- What the edits have come to. -/
def verdictOf : Except Fault (Breakpoint × Bool) → Verdict
  | .error fault => .refused fault
  | .ok (_, true) => .removed
  | .ok (now, false) => .changed now

section Lists

variable {b now : Breakpoint} {e : Edit} {edits before after rest : List Edit} {fault : Fault}

lemma applyAll_of_clears (b : Breakpoint) (h : Clears e) (rest : List Edit) : b.applyAll (e :: rest) = .ok (b, true) := by
  rw [applyAll, Property.ofName_eq_ok_iff.mpr h]
  rfl

lemma applyAll_cons (b : Breakpoint) (h : ¬ Clears e) (rest : List Edit) :
    b.applyAll (e :: rest) = b.set e >>= fun next => next.applyAll rest := by
  simp only [applyAll, set]
  rcases Property.ofName_cases e.1 with ⟨p, hp, hname⟩ | ⟨-, hname⟩
  · cases p with
    | clear => exact absurd hp h
    | _ => simp only [hname, bind, Except.bind]
  · simp only [hname, bind, Except.bind]

/-- Edits that can be done are done before what comes after them is looked at. -/
lemma applyAll_append (hbefore : ∀ x ∈ before, ¬ Clears x) (hdone : before.foldlM set b = .ok now) (rest : List Edit) :
    b.applyAll (before ++ rest) = now.applyAll rest := by
  induction before generalizing b with
  | nil =>
    obtain rfl := Except.ok.inj hdone
    rfl
  | cons e before ih =>
    rw [List.foldlM_cons] at hdone
    obtain ⟨next, hset, hnext⟩ := ok_of_bind_eq_ok hdone
    rw [List.cons_append, applyAll_cons b (hbefore e List.mem_cons_self), hset]
    exact ih (fun x hx => hbefore x (List.mem_cons_of_mem _ hx)) hnext

/-- An edit that is done goes before the others. -/
lemma Judged.cons {next : Breakpoint} {verdict : Verdict} (hclears : ¬ Clears e) (hset : b.set e = .ok next)
    (h : Judged next edits verdict) : Judged b (e :: edits) verdict := by
  have hfold : ∀ l : List Edit, (e :: l).foldlM set b = l.foldlM set next := by
    intro l
    rw [List.foldlM_cons, hset]
    rfl
  cases h with
  | refused hsplit hbefore hdone himproper =>
    exact .refused (congrArg (e :: ·) hsplit) (List.forall_mem_cons.mpr ⟨hclears, hbefore⟩) ((hfold _).trans hdone)
      himproper
  | removed hsplit hbefore hdone hlast =>
    exact .removed (congrArg (e :: ·) hsplit) (List.forall_mem_cons.mpr ⟨hclears, hbefore⟩) ((hfold _).trans hdone) hlast
  | changed hnone hdone => exact .changed (List.forall_mem_cons.mpr ⟨hclears, hnone⟩) ((hfold _).trans hdone)

lemma judged_applyAll (b : Breakpoint) (edits : List Edit) : Judged b edits (verdictOf (b.applyAll edits)) := by
  induction edits generalizing b with
  | nil => exact .changed (List.forall_mem_nil _) rfl
  | cons e rest ih =>
    by_cases hclears : Clears e
    · rw [applyAll_of_clears b hclears]
      exact .removed (List.nil_append _).symm (List.forall_mem_nil _) rfl hclears
    · rw [applyAll_cons b hclears]
      rcases set_cases b hclears with ⟨next, hset⟩ | ⟨fault, himproper, hset⟩
      · rw [hset]
        exact (ih next).cons hclears hset
      · rw [hset]
        exact .refused (List.nil_append _).symm (List.forall_mem_nil _) rfl himproper

/-- Edits come to what they are to come to. -/
theorem judged_iff {verdict : Verdict} : Judged b edits verdict ↔ verdictOf (b.applyAll edits) = verdict := by
  constructor
  · intro h
    cases h with
    | refused hsplit hbefore hdone himproper =>
      rw [hsplit, applyAll_append hbefore hdone, applyAll_cons _ himproper.not_clears, himproper.set_eq]
      rfl
    | removed hsplit hbefore hdone hclears =>
      rw [hsplit, applyAll_append hbefore hdone, applyAll_of_clears _ hclears]
      rfl
    | changed hnone hdone =>
      have happly := applyAll_append hnone hdone []
      rw [List.append_nil] at happly
      rw [happly]
      rfl
  · rintro rfl
    exact judged_applyAll b edits

/-- Edits keep what they do not set. -/
lemma Judged.keeps (h : Judged b edits (.changed now)) : Keeps b now := by
  cases happly : b.applyAll edits with
  | error fault =>
    rw [judged_iff, happly] at h
    cases h
  | ok r =>
    obtain ⟨last, cleared⟩ := r
    rw [judged_iff, happly] at h
    cases cleared with
    | true => cases h
    | false =>
      obtain rfl : last = now := Verdict.changed.inj h
      exact applyAll_induction (P := Keeps b) (fun _ _ _ _ hx hy => hx.trans (keeps_apply hy)) (.refl b) happly

end Lists

/-! ## In the catalog -/

/-- What edits of the breakpoint of an id are to come to: a fault, or a breakpoint that is removed or changed. -/
inductive Catalog.Comes (c : Catalog) (id : Nat) (edits : List Edit) : Except Fault (Debug.Change × Breakpoint) → Prop
  | unknown : c.get? id = none → Comes c id edits (.error (.unknownBreakpoint id))
  | refused {b : Breakpoint} {fault : Fault} :
    c.get? id = some b → Judged b edits (.refused fault) → Comes c id edits (.error fault)
  | removed {b : Breakpoint} : c.get? id = some b → Judged b edits .removed → Comes c id edits (.ok (.remove, b))
  | changed {b now : Breakpoint} :
    c.get? id = some b → Judged b edits (.changed now) → Keeps b now → Comes c id edits (.ok (.change, now))

/-- They come to one thing. -/
lemma Catalog.Comes.unique {c : Catalog} {id : Nat} {edits : List Edit} {r r' : Except Fault (Debug.Change × Breakpoint)}
    (h : c.Comes id edits r) (h' : c.Comes id edits r') : r = r' := by
  have hsame : ∀ {b b' : Breakpoint} {v v' : Verdict}, c.get? id = some b → c.get? id = some b' → Judged b edits v →
      Judged b' edits v' → b = b' ∧ v = v' := by
    intro b b' v v' hb hb' hv hv'
    obtain rfl := Option.some.inj (hb.symm.trans hb')
    exact ⟨rfl, (judged_iff.mp hv).symm.trans (judged_iff.mp hv')⟩
  cases h with
  | unknown hnone =>
    cases h' with
    | unknown _ => rfl
    | refused hb _ | removed hb _ | changed hb _ _ => cases hnone.symm.trans hb
  | refused hb hv =>
    cases h' with
    | unknown hnone => cases hnone.symm.trans hb
    | refused hb' hv' =>
      obtain rfl := Verdict.refused.inj (hsame hb hb' hv hv').2
      rfl
    | removed hb' hv' | changed hb' hv' _ => cases (hsame hb hb' hv hv').2
  | removed hb hv =>
    cases h' with
    | unknown hnone => cases hnone.symm.trans hb
    | removed hb' hv' =>
      obtain rfl := (hsame hb hb' hv hv').1
      rfl
    | refused hb' hv' | changed hb' hv' _ => cases (hsame hb hb' hv hv').2
  | changed hb hv hkeeps =>
    cases h' with
    | unknown hnone => cases hnone.symm.trans hb
    | changed hb' hv' _ =>
      obtain rfl := Verdict.changed.inj (hsame hb hb' hv hv').2
      rfl
    | refused hb' hv' | removed hb' hv' => cases (hsame hb hb' hv hv').2

/-! ## What adapters have to do with it -/

/-- A breakpoint but for the line and anchor that it has now, and for what was said of it. -/
def asSet (b : Breakpoint) : Breakpoint :=
  { b with
    verification := none
    kind := match b.kind with
      | .line project path _ column _ => .line project path 0 column none
      | .exception caught uncaught => .exception caught uncaught }

namespace Catalog

variable {c : Catalog}

lemma asSet_modify {f : Breakpoint → Breakpoint} (hf : ∀ b, (f b).asSet = b.asSet) (id : Nat) :
    (c.modify id f).entries.map asSet = c.entries.map asSet := by
  rw [modify, List.map_map]
  refine List.map_congr_left fun b _ => ?_
  show asSet (if b.id = id then f b else b) = b.asSet
  split
  · exact hf b
  · rfl

lemma asSet_moved (line : Nat) (anchor : Option Text.Anchor) (b : Breakpoint) : (moved line anchor b).asSet = b.asSet := by
  obtain ⟨id, enabled, condition, conditionEnabled, hitCondition, logMessage, kind, verification⟩ := b
  cases kind <;> rfl

/-- A catalog with the same breakpoints in it, but for lines, anchors and verifications. -/
structure Resettled (c d : Catalog) : Prop where
  entries : d.entries.map asSet = c.entries.map asSet
  nextId : d.nextId = c.nextId
  exceptionId : d.exceptionId = c.exceptionId

lemma Resettled.refl (c : Catalog) : Resettled c c := ⟨rfl, rfl, rfl⟩

lemma Resettled.trans {d e : Catalog} (h : Resettled c d) (h' : Resettled d e) : Resettled c e :=
  ⟨h'.entries.trans h.entries, h'.nextId.trans h.nextId, h'.exceptionId.trans h.exceptionId⟩

lemma resettled_relocate (c : Catalog) (id line : Nat) (anchor : Option Text.Anchor) :
    Resettled c (c.relocate id line anchor).2 := by
  rcases relocate_cases c id line anchor with heq | heq
  · rw [heq]
    exact .refl c
  · rw [heq]
    exact ⟨asSet_modify (asSet_moved line anchor) id, rfl, rfl⟩

lemma resettled_follow (f : Text.Lines) (drift : Int) (c : Catalog) (b : Breakpoint) :
    Resettled c (c.follow f drift b).2 := by
  unfold follow
  split
  · exact .refl c
  · split
    · exact resettled_relocate ..
    · exact .refl c
  · split
    · exact .refl c
    · split
      · exact .refl c
      · exact resettled_relocate ..

lemma resettled_followAll (f : Text.Lines) (drift : Int) (l : List Breakpoint) (c : Catalog) :
    Resettled c (followAll f drift l c).2 := by
  induction l generalizing c with
  | nil => exact .refl c
  | cons b rest ih => exact (resettled_follow f drift c b).trans (ih _)

lemma resettled_applyVerification (c : Catalog) (ids : List Nat) (responses : List BreakpointResponse) :
    Resettled c (c.applyVerification ids responses).2 := by
  induction ids generalizing c responses with
  | nil => exact .refl c
  | cons id ids ih =>
    cases responses with
    | nil => exact .refl c
    | cons r rs =>
      rw [applyVerification]
      dsimp only
      split
      · split
        · exact ih c rs
        · have hverified : Resettled c (c.modify id fun b => { b with verification := some (.ofResponse r) }) :=
            ⟨asSet_modify (f := fun b => { b with verification := some (.ofResponse r) }) (fun _ => rfl) id, rfl, rfl⟩
          exact hverified.trans (ih _ rs)
      · exact ih c rs

end Catalog

end Breakpoint

end Debug

open Debug

namespace World

/-- Adapters are sent something, or breakpoints are moved to their anchors, or answers are recorded: the breakpoints stay
what they were set to, and an editor is told of changes only. -/
structure Follows (w w' : World) : Prop where
  breakpoints : w.debugger.breakpoints.Resettled w'.debugger.breakpoints
  told : ∃ l : List Breakpoint, w'.told = w.told ++ l.map fun b => .debug (.breakpoint .change b)

lemma Follows.of_told {w w' : World} {l : List Breakpoint}
    (hbreakpoints : w.debugger.breakpoints.Resettled w'.debugger.breakpoints)
    (htold : w'.told = w.told ++ (l.map (Note.breakpoint .change)).map Message.debug) : Follows w w' := by
  rw [List.map_map] at htold
  exact ⟨hbreakpoints, l, htold⟩

lemma follows_of_eq {w w' : World} (hbreakpoints : w'.debugger.breakpoints = w.debugger.breakpoints)
    (htold : w'.told = w.told) : Follows w w' :=
  ⟨hbreakpoints ▸ .refl _, [], htold.trans (List.append_nil _).symm⟩

lemma follows_relocate (w : World) (path : Path) : w.Follows (w.relocate path) := by
  unfold relocate Debugger.relocate
  dsimp only
  split
  · exact follows_of_eq rfl rfl
  · next f _ =>
    have hfollow := Breakpoint.Catalog.resettled_followAll f (w.debugger.driftOf path)
      (w.debugger.breakpoints.forFile path) w.debugger.breakpoints
    dsimp only
    split
    · exact ⟨hfollow, [], (List.append_nil _).symm⟩
    · exact .of_told hfollow rfl

/-- Whatever adapters are sent and answer. -/
lemma allowed_follows : Debug.Sync.Allowed Follows where
  refl _ := follows_of_eq rfl rfl
  net _ _ _ := follows_of_eq rfl rfl
  relocate := follows_relocate
  verify _ ids responses := .of_told (Breakpoint.Catalog.resettled_applyVerification _ ids responses) rfl

/-- The breakpoint of an id is removed or changed, and nothing else. It is written to the file with all others, and an
editor is told once. -/
structure Amends (w : World) (id : Nat) (now? : Option Breakpoint) (note : Note) (w' : World) : Prop where
  breakpoints : w'.debugger.breakpoints.get? = Function.update w.debugger.breakpoints.get? id now?
  /-- All others are the same, in the same order. -/
  others : w'.debugger.breakpoints.entries.filter (·.id ≠ id) = w.debugger.breakpoints.entries.filter (·.id ≠ id)
  nextId : w'.debugger.breakpoints.nextId = w.debugger.breakpoints.nextId
  /-- The slot is emptied with its breakpoint. -/
  exceptionId : w'.debugger.breakpoints.exceptionId =
    if now? = none ∧ w.debugger.breakpoints.exceptionId = some id then none else w.debugger.breakpoints.exceptionId
  told : w'.told = w.told ++ [.debug note]
  stored : w'.disk = (w.debugger.store.saveBreakpoints w.disk w'.debugger.breakpoints.entries).2
  /-- Nothing else is touched, and nothing is sent. -/
  rest : w' = { w with
    debugger := { w.debugger with breakpoints := w'.debugger.breakpoints }, told := w'.told, disk := w'.disk }

end World

namespace Debug.Editing

/-- A breakpoint is removed. -/
lemma amends_remove {id : Nat} {b : Breakpoint} {w : World} (hget : w.debugger.breakpoints.get? id = some b) :
    w.Amends id none (.breakpoint .remove b)
      ((w.setBreakpoints (w.debugger.breakpoints.remove id).2).saveBreakpoints.noteBreakpoints .remove [b]) := by
  have hremove : (w.debugger.breakpoints.remove id).2 =
      { w.debugger.breakpoints with
        entries := w.debugger.breakpoints.entries.filter (·.id ≠ id)
        exceptionId := if w.debugger.breakpoints.exceptionId = some id then none
          else w.debugger.breakpoints.exceptionId } := by
    rw [Breakpoint.Catalog.remove, hget]
  rw [hremove]
  exact {
    breakpoints := Keyed.find?_without Breakpoint.id w.debugger.breakpoints.entries id
    others := by
      show (w.debugger.breakpoints.entries.filter _).filter _ = _
      rw [List.filter_filter]
      simp only [Bool.and_self]
    nextId := rfl
    exceptionId := by
      show (if w.debugger.breakpoints.exceptionId = some id then none else _) = _
      simp only [true_and]
    told := rfl
    stored := rfl
    rest := rfl }

/-- A breakpoint is changed. -/
lemma amends_modify {id : Nat} {b now : Breakpoint} {w : World} (hget : w.debugger.breakpoints.get? id = some b)
    (hnow : now.id = id) :
    w.Amends id (some now) (.breakpoint .change now)
      ((w.setBreakpoints (w.debugger.breakpoints.modify id fun _ => now)).saveBreakpoints.noteBreakpoints .change
        [now]) where
  breakpoints := by
    refine (Breakpoint.Catalog.get?_modify fun _ _ => hnow).trans ?_
    rw [hget]
    rfl
  others := by
    show (w.debugger.breakpoints.entries.map _).filter _ = _
    rw [List.filter_map]
    -- those that are left were not changed
    have hsame : ∀ x ∈ w.debugger.breakpoints.entries.filter (·.id ≠ id), (if x.id = id then now else x) = x := by
      intro x hx
      exact if_neg (by simpa using (List.mem_filter.mp hx).2)
    have hkept : ((fun x : Breakpoint => decide (x.id ≠ id)) ∘ fun x => if x.id = id then now else x) =
        fun x => decide (x.id ≠ id) := by
      funext x
      by_cases hx : x.id = id
      · simp [hx, hnow]
      · simp [hx]
    rw [hkept, List.map_congr_left hsame, List.map_id']
  nextId := rfl
  exceptionId := rfl
  told := rfl
  stored := rfl
  rest := rfl

/-- Edits come to what they are to come to, in one access. -/
lemma comes_applyEdits (id : Nat) (edits : List Breakpoint.Edit) (w : World) :
    ∃ r, w.debugger.breakpoints.Comes id edits r ∧
      (∀ fault, r = .error fault → applyEdits id edits w = (.error fault, w)) ∧
      ∀ what b, r = .ok (what, b) → (applyEdits id edits w).1 = .ok b ∧
        w.Amends id (if what = .remove then none else some b) (.breakpoint what b) (applyEdits id edits w).2 := by
  cases hget : w.debugger.breakpoints.get? id with
  | none =>
    refine ⟨_, .unknown hget, ?_, fun _ _ hr => by cases hr⟩
    rintro fault ⟨⟩
    simp only [applyEdits, hget]
    rfl
  | some b =>
    have hjudged := Breakpoint.judged_applyAll b edits
    cases happly : b.applyAll edits with
    | error fault =>
      rw [happly] at hjudged
      refine ⟨_, .refused hget hjudged, ?_, fun _ _ hr => by cases hr⟩
      rintro fault ⟨⟩
      simp only [applyEdits, hget, happly]
      rfl
    | ok r =>
      obtain ⟨now, cleared⟩ := r
      rw [happly] at hjudged
      cases cleared with
      | true =>
        refine ⟨_, .removed hget hjudged, fun _ hr => (by cases hr), ?_⟩
        rintro what b ⟨⟩
        simp only [applyEdits, hget, happly]
        exact ⟨rfl, amends_remove hget⟩
      | false =>
        refine ⟨_, .changed hget hjudged hjudged.keeps, fun _ hr => (by cases hr), ?_⟩
        rintro what b ⟨⟩
        simp only [applyEdits, hget, happly]
        exact ⟨rfl, amends_modify hget (hjudged.keeps.id.trans (Breakpoint.Catalog.id_of_get? hget))⟩

/-- After its one access an edit that was done goes on to tell adapters, and is done in any case. -/
lemma tick_editBreakpoint (id : Nat) (edits : List Breakpoint.Edit) (w : World) :
    (editBreakpoint id edits).outcome.tick? World.holds w =
      some (match (applyEdits id edits w).1 with
        | .ok b => (Call.errandOf b).work.andThen fun _ => .done (.ok ())
        | .error fault => .done (.error fault), (applyEdits id edits w).2) := by
  have htick : (editBreakpoint id edits).outcome.tick? World.holds w =
      some (ExceptT.bindCont (fun b : Breakpoint => (match b.kind with
        | .line project path _ _ _ => Attempt.ofTask (Sync.file project path)
        | .exception _ _ => Attempt.ofTask (Sync.exceptions none) : DebugWork Unit))
        (applyEdits id edits w).1, (applyEdits id edits w).2) := rfl
  rw [htick]
  cases (applyEdits id edits w).1 with
  | error fault => rfl
  | ok b =>
    simp only [ExceptT.bindCont, Call.errandOf]
    cases b.kind <;> rfl

end Debug.Editing

end Switchboard
