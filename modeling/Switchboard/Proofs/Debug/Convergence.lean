import Switchboard.Proofs.Debug.Interleaving

/-!
# When adapter and catalog agree

* `Run.Owes`: a call still has to tell the session about a topic;
* `Run.LastTold`, `Run.Caught`: when the adapter was told last about a topic, and that it was told right;
* `Run.Era`: the invariant: before, during and after the handshake;
* `agrees_iff`: which topics the adapter knows when all calls are over.

The handshake lists the files at its beginning and tells about them one after the other. Until it is over no call
tells anything. So a change that is made after its file was told about, or was not listed, and before the session
is ready is told only with a later change.
-/

namespace Switchboard.Debug.Convergence

open Breakpoint (Catalog)
open Errand (works)

variable {r : Run}

namespace Run

/-! ## Topics that calls owe -/

/-- A call still has to tell the session about the topic. -/
def Owes (r : Run) (n : Nat) (t : Topic) : Prop :=
  ∃ (i : Nat) (work : Task Wait World Unit) (es : List Errand), (r.state n).calls[i]? = some work ∧ Rests r.own.channel es work ∧
    ∃ e ∈ es, e.topic.Same t ∧ e.Concerns (r.state n).world r.own

/-- The adapter is told what it should know about the topic in an action. -/
def Tells (r : Run) (n : Nat) (t : Topic) : Prop :=
  (r.state (n + 1)).told r.own t = (r.state n).told r.own t ++ [(r.state (n + 1)).wanted r.own t]

lemma Tells.agrees {n : Nat} {t : Topic} (h : r.Tells n t) : (r.state (n + 1)).Agrees r.own t := by
  have h : (r.state (n + 1)).told r.own t = _ := h
  rw [State.Agrees, h, List.getLast?_concat]
  rfl

lemma Tells.tellsAt {n : Nat} {t : Topic} (h : r.Tells n t) : r.TellsAt t n := by
  have h : (r.state (n + 1)).told r.own t = _ := h
  rw [TellsAt, h]
  simp

/-- What happens to a topic in an action: nothing, or the adapter is told about it. -/
lemma fate_cases {n : Nat} {t : Topic} (h : Fate r.own.channel t (r.state n).world (r.state (n + 1)).world) :
    (¬ r.TellsAt t n ∧ (r.state (n + 1)).wanted r.own t = (r.state n).wanted r.own t) ∨ r.Tells n t := by
  cases h with
  | kept htold hwanted => exact .inl ⟨fun hne => hne htold, hwanted⟩
  | told h => exact .inr h

/-- The topic concerned the session before. -/
lemma Concerns.anti {m n : Nat} {t : Topic} (h : r.Concerns n t) (hmn : m ≤ n) : r.Concerns m t :=
  fun f hf hsame => h f (hf.mono hmn) hsame

lemma concerns_congr {w w' : World} {own : Session} (h : w'.debugger.sources = w.debugger.sources) (e : Errand) :
    e.Concerns w' own ↔ e.Concerns w own := by
  cases e <;> simp only [Errand.Concerns, Errand.language, Debugger.languageOf, h]

namespace Held

variable {n : Nat} {t : Topic}

/-- An errand for a topic that concerns the session does so itself. -/
lemma concerns (h : r.Held n) (ht : r.Concerns n t) {e : Errand} (hknown : ∀ f, e.file? = some f → r.Known n f)
    (hsame : e.topic.Same t) : e.Concerns (r.state n).world r.own := by
  have hstart : e.Concerns r.start r.own := by
    cases e with
    | file project path => exact ht (project, path) (hknown _ rfl) hsame
    | exceptions => rfl
  exact (concerns_congr h.sources e).mpr hstart

/-- A step of a call that is under way does nothing to a topic, or tells about it, or owes it from now on. -/
lemma fate_stride (h : r.Held n) (ht : r.Concerns n t) {work' : Task Wait World Unit} {w' : World}
    (hstride : r.Stride n (r.state n).world w' work') :
    Fate r.own.channel t (r.state n).world w' ∨
      ∃ es, Rests r.own.channel es work' ∧ ∃ e ∈ es, e.topic.Same t ∧ e.Concerns (r.state n).world r.own := by
  cases hstride with
  | changes call es howes hnew hleft =>
    -- a change of the topic leaves an errand for it
    by_cases htouched : ∃ e ∈ es, e.topic.Same t
    · obtain ⟨e, he, hsame⟩ := htouched
      refine .inr ⟨es, hleft ▸ .errands, e, he, hsame, h.concerns ht (fun f hf => ?_) hsame⟩
      rcases howes.files e he f hf with hmem | ⟨b, hb, hbf⟩
      · exact hnew f hmem
      · exact h.files b hb f hbf
    · refine .inl (.kept ?_ (howes.step.wanted_eq h.serves.sound htouched))
      rw [howes.step.told_eq]
      exact List.append_nil _
  | goes es hnext hknown =>
    -- what follows the change of a call touches only the topic that it tells about
    refine .inl ?_
    cases hnext with
    | quiet hquiet _ => exact (silent_of_step hquiet.1).fate h.serves.sound t
    | sends e rest _ hsends _ _ => exact fate_of_sends hsends h.serves.sound t
    | skips e rest _ hworld _ _ =>
      rw [hworld]
      exact .kept rfl rfl

/-- An action that is not about the handshake does nothing to a topic, or tells about it, or a call owes it then. -/
lemma fate (h : r.Held n) (hroom : (r.state n).world.debugger.breakpoints.nextId + 1 < Catalog.idLimit)
    (ha : r.schedule n ≠ .stepHandshake) (ht : r.Concerns n t) :
    Fate r.own.channel t (r.state n).world (r.state (n + 1)).world ∨ r.Owes (n + 1) t := by
  have hturn : Turn r.own (r.schedule n) (r.state n) (r.state (n + 1)) := turn _ ha
  cases hturn with
  | idle hworld _ =>
    rw [hworld]
    exact .inl (.kept rfl rfl)
  | places call _ hworld _ =>
    rw [hworld]
    exact .inl (.kept rfl rfl)
  | steps i work work' hold hstep hcalls =>
    have hstride := h.stride hroom (List.mem_of_getElem? hold) hstep
    rcases h.fate_stride ht hstride with hfate | ⟨es, hrests, e, he, hsame, hconcerns⟩
    · exact .inl hfate
    · obtain ⟨hlt, -⟩ := List.getElem?_eq_some_iff.mp hold
      obtain ⟨touched, new, said, hworld, -⟩ := (hstride.follows h.serves).step
      refine .inr ⟨i, work', es, ?_, hrests, e, he, hsame, (concerns_congr hworld.sources e).mpr hconcerns⟩
      rw [hcalls, List.getElem?_set_self hlt]
  | outside world channel others helse _ =>
    rw [helse]
    exact .inl ((silent_elsewhere h.serves world channel others).fate h.serves.sound t)

/-- As long as the session is not ready only the handshake tells it about topics. -/
lemma told_eq (h : r.Held n) (hroom : (r.state n).world.debugger.breakpoints.nextId + 1 < Catalog.idLimit)
    (ha : r.schedule n ≠ .stepHandshake) (hready : ¬ (r.state n).IsReady r.own) (t : Topic) :
    (r.state (n + 1)).told r.own t = (r.state n).told r.own t := by
  have hturn : Turn r.own (r.schedule n) (r.state n) (r.state (n + 1)) := turn _ ha
  unfold State.told
  cases hturn with
  | idle hworld _ => rw [hworld]
  | places call _ hworld _ => rw [hworld]
  | steps i work work' hold hstep hcalls =>
    cases h.stride hroom (List.mem_of_getElem? hold) hstep with
    | changes call es howes _ _ =>
      rw [howes.step.told_eq]
      exact List.append_nil _
    | goes es hnext _ =>
      cases hnext with
      | quiet hquiet _ =>
        rw [hquiet.1.told_eq]
        exact List.append_nil _
      | sends e rest _ _ hphase _ =>
        -- an errand tells a session that is ready
        exact absurd hphase hready
      | skips e rest _ hworld _ _ => rw [hworld]
  | outside world channel others helse _ =>
    rw [helse]
    exact (silent_elsewhere h.serves world channel others).told_eq t

end Held

/-- A call that goes on does what it owes, if the session is ready. -/
lemma Owes.succ {n : Nat} {t : Topic} (ho : r.Owes n t) (h : r.Held n) (ha : r.schedule n ≠ .stepHandshake)
    (hready : (r.state n).IsReady r.own)
    (hsources : (r.state (n + 1)).world.debugger.sources = (r.state n).world.debugger.sources) :
    r.Owes (n + 1) t ∨ r.Tells n t := by
  obtain ⟨i, work, es, hi, hrests, e, he, hsame, hconcerns⟩ := ho
  have hturn : Turn r.own (r.schedule n) (r.state n) (r.state (n + 1)) := turn _ ha
  have hstays (hi' : (r.state (n + 1)).calls[i]? = some work) : r.Owes (n + 1) t :=
    ⟨i, work, es, hi', hrests, e, he, hsame, (concerns_congr hsources e).mpr hconcerns⟩
  obtain ⟨hlt, -⟩ := List.getElem?_eq_some_iff.mp hi
  cases hturn with
  | idle _ hcalls =>
    refine .inl (hstays ?_)
    rw [hcalls, hi]
  | places call _ _ hcalls =>
    refine .inl (hstays ?_)
    rw [hcalls, List.getElem?_append_left hlt, hi]
  | outside world channel others _ hcalls =>
    refine .inl (hstays ?_)
    rw [hcalls, hi]
  | steps j other work' hold hstep hcalls =>
    by_cases hij : j = i
    · -- the call that owes it goes on: past its answer, to this errand or past another one
      subst hij
      obtain rfl := Option.some.inj (hold.symm.trans hi)
      have hleft (left : List Errand) (hrests' : Rests r.own.channel left work') (he' : e ∈ left) : r.Owes (n + 1) t := by
        refine ⟨j, work', left, ?_, hrests', e, he', hsame, (concerns_congr hsources e).mpr hconcerns⟩
        rw [hcalls, List.getElem?_set_self hlt]
      cases hrests.step? h.serves h.opened hstep with
      | quiet _ hrests' => exact .inl (hleft es hrests' he)
      | sends first rest hes hsends _ hrests' =>
        rw [hes] at he
        rcases List.mem_cons.mp he with rfl | he
        · exact .inr (hsends.told_eq hsame)
        · exact .inl (hleft rest hrests' he)
      | skips first rest hes _ hpassed hrests' =>
        rw [hes] at he
        rcases List.mem_cons.mp he with rfl | he
        · exact absurd ⟨hready, hconcerns⟩ hpassed
        · exact .inl (hleft rest hrests' he)
    · refine .inl (hstays ?_)
      rw [hcalls, List.getElem?_set_ne hij, hi]

/-! ## What was told last -/

/-- From action `first` on the adapter was told last about the topic right before time `m`, or not at all and `m` is
when it began. -/
structure LastTold (r : Run) (t : Topic) (first n m : Nat) : Prop where
  le : first ≤ m
  le_end : m ≤ n
  told : m = first ∨ ∃ l, first ≤ l ∧ m = l + 1 ∧ r.TellsAt t l
  since : ∀ l, m ≤ l → l < n → ¬ r.TellsAt t l

/-- When it was told last it was told what it should know. -/
def Caught (r : Run) (t : Topic) (first n : Nat) : Prop :=
  ∃ m, r.LastTold t first n m ∧ (r.state m).Agrees r.own t

lemma LastTold.told_eq {t : Topic} {first n m : Nat} (h : r.LastTold t first n m) :
    (r.state n).told r.own t = (r.state m).told r.own t := by
  have hle := h.le_end
  have hsince := h.since
  clear h
  induction n, hle using Nat.le_induction with
  | base => rfl
  | succ n hmn ih =>
    have hlast : (r.state (n + 1)).told r.own t = (r.state n).told r.own t :=
      of_not_not (hsince n hmn (Nat.lt_succ_self n))
    rw [hlast]
    exact ih fun l hml hln => hsince l hml (Nat.lt_succ_of_lt hln)

lemma Caught.succ {t : Topic} {first n : Nat} (h : r.Caught t first n) (hn : ¬ r.TellsAt t n) :
    r.Caught t first (n + 1) := by
  obtain ⟨m, hm, hagrees⟩ := h
  refine ⟨m, ⟨hm.le, Nat.le_succ_of_le hm.le_end, hm.told, fun l hml hln => ?_⟩, hagrees⟩
  rcases Nat.lt_or_eq_of_le (Nat.le_of_lt_succ hln) with hlt | rfl
  · exact hm.since l hml hlt
  · exact hn

lemma Caught.of_tells {t : Topic} {first n : Nat} (h : r.Tells n t) (hle : first ≤ n) : r.Caught t first (n + 1) := by
  refine ⟨n + 1, ⟨Nat.le_succ_of_le hle, Nat.le_refl _, .inr ⟨n, hle, rfl, h.tellsAt⟩, fun l hnl hln => ?_⟩, h.agrees⟩
  omega

/-- At the beginning of the handshake an adapter that was told nothing knows what it should, if there is nothing. -/
lemma Caught.of_nothing {t : Topic} {n : Nat} (htold : (r.state n).told r.own t = [])
    (hwanted : (r.state n).wanted r.own t = []) : r.Caught t n n := by
  refine ⟨n, ⟨Nat.le_refl _, Nat.le_refl _, .inl rfl, fun l hnl hln => ?_⟩, ?_⟩
  · omega
  · rw [State.Agrees, htold, hwanted]
    rfl

/-- Some time after action `last` the adapter is told about the topic. -/
def ToldAfter (r : Run) (t : Topic) (last n : Nat) : Prop := ∃ l, last < l ∧ l < n ∧ r.TellsAt t l

/-- What is known of a topic when the session is ready: a call owes it, or the adapter was told right since, or
nothing has happened to it. -/
inductive Current (r : Run) (t : Topic) (last n : Nat) : Prop where
  | owed (h : r.Owes n t)
  | told (h : r.ToldAfter t last n) (agrees : (r.state n).Agrees r.own t)
  | kept (untold : ¬ r.ToldAfter t last n) (wanted : (r.state n).wanted r.own t = (r.state (last + 1)).wanted r.own t)

lemma ToldAfter.succ {t : Topic} {last n : Nat} (h : r.ToldAfter t last n) : r.ToldAfter t last (n + 1) := by
  obtain ⟨l, hll, hln, ht⟩ := h
  exact ⟨l, hll, Nat.lt_succ_of_lt hln, ht⟩

lemma not_toldAfter_succ {t : Topic} {last n : Nat} (h : ¬ r.ToldAfter t last n) (hn : ¬ r.TellsAt t n) :
    ¬ r.ToldAfter t last (n + 1) := by
  rintro ⟨l, hll, hln, ht⟩
  rcases Nat.lt_or_eq_of_le (Nat.le_of_lt_succ hln) with hlt | rfl
  · exact h ⟨l, hll, hlt, ht⟩
  · exact hn ht

lemma Current.of_tells {t : Topic} {last n : Nat} (h : r.Tells n t) (hlast : last < n) : r.Current t last (n + 1) :=
  .told ⟨n, hlast, Nat.lt_succ_self n, h.tellsAt⟩ h.agrees

/-- One action after the handshake. -/
lemma Current.succ {t : Topic} {last n : Nat} (h : r.Current t last n) (hlast : last < n)
    (hfate : Fate r.own.channel t (r.state n).world (r.state (n + 1)).world ∨ r.Owes (n + 1) t)
    (hkeeps : r.Owes n t → r.Owes (n + 1) t ∨ r.Tells n t) : r.Current t last (n + 1) := by
  rcases hfate with hfate | howes
  · rcases fate_cases hfate with ⟨hsilent, hwanted⟩ | htells
    · have htold : (r.state (n + 1)).told r.own t = (r.state n).told r.own t := of_not_not hsilent
      cases h with
      | owed howes =>
        rcases hkeeps howes with howes | htells
        · exact .owed howes
        · exact .of_tells htells hlast
      | told htoldAfter hagrees =>
        refine .told htoldAfter.succ ?_
        rw [State.Agrees, htold, hwanted]
        exact hagrees
      | kept huntold hsame => exact .kept (not_toldAfter_succ huntold hsilent) (hwanted.trans hsame)
    · exact .of_tells htells hlast
  · exact .owed howes

/-! ## The invariant -/

/-- A handshake that begins in action `first` and makes the session ready in action `last`. -/
structure Handshake (r : Run) (first last n : Nat) : Prop where
  begins : r.BeginsAt first
  ends : r.schedule last = .stepHandshake
  lt : first < last
  lt_end : last < n
  configuring : ∀ m, m ≤ last → ¬ (r.state m).IsReady r.own
  ready : ∀ m, last < m → m ≤ n → (r.state m).IsReady r.own

/-- Before, during and after the handshake. Of the topics that concern the session up to `bound` those are left to
tell about that were listed, while others were told right or were nothing to tell about when the listing was made. -/
inductive Era (r : Run) (bound n : Nat) : Prop where
  | before (stage : Stage) (early : stage = .idle ∨ stage = .fresh)
      (describes : stage.Describes r.session r.own.channel (r.state n).handshake)
      (configuring : ∀ m, m ≤ n → ¬ (r.state m).IsReady r.own) (untold : ∀ t, (r.state n).told r.own t = [])
  | during (first : Nat) (topics : List Topic) (stage : Stage)
      (left : stage = .telling topics ∨ stage = .ending ∧ topics = [])
      (describes : stage.Describes r.session r.own.channel (r.state n).handshake) (begins : r.BeginsAt first)
      (lt : first < n) (configuring : ∀ m, m ≤ n → ¬ (r.state m).IsReady r.own)
      (listed : ∀ t, r.Concerns bound t → (∃ u ∈ topics, u.Same t) ∨ r.Caught t first n)
  | after (first last : Nat) (stage : Stage)
      (describes : stage.Describes r.session r.own.channel (r.state n).handshake) (handshake : r.Handshake first last n)
      (topics : ∀ t, r.Concerns bound t → r.Caught t first (last + 1) ∧ r.Current t last n)

variable {bound n : Nat}

/-- The session is not ready for one more action. -/
lemma configuring_succ (h : ∀ m, m ≤ n → ¬ (r.state m).IsReady r.own) (hn : ¬ (r.state (n + 1)).IsReady r.own) :
    ∀ m, m ≤ n + 1 → ¬ (r.state m).IsReady r.own := by
  intro m hm
  rcases Nat.lt_or_eq_of_le hm with hlt | rfl
  · exact h m (Nat.le_of_lt_succ hlt)
  · exact hn

lemma Handshake.succ {first last : Nat} (h : r.Handshake first last n) (hn : (r.state (n + 1)).IsReady r.own) :
    r.Handshake first last (n + 1) where
  begins := h.begins
  ends := h.ends
  lt := h.lt
  lt_end := Nat.lt_succ_of_lt h.lt_end
  configuring := h.configuring
  ready m hlast hm := by
    rcases Nat.lt_or_eq_of_le hm with hlt | rfl
    · exact h.ready m hlast (Nat.le_of_lt_succ hlt)
    · exact hn

/-- Where there is no breakpoint there is nothing to tell about. -/
lemma wanted_eq_nil {w : World} {path : Path} (h : ∀ b ∈ w.debugger.breakpoints.entries, ¬ b.topic.Same (.file path))
    (c : ChannelId) : (Topic.file path).wanted w c = [] := by
  have hnone : w.debugger.breakpoints.about (.file path) = [] := by
    rw [Catalog.about, List.map_eq_nil_iff, List.filter_eq_nil_iff]
    exact fun b hb hcovers => h b hb (Breakpoint.covers_iff.mp hcovers)
  rw [Topic.wanted_file w c (.refl _), Catalog.listing_eq, hnone, List.mergeSort_nil]
  rfl

/-- At the beginning of the handshake a topic is listed, or it has no breakpoint and is not about exceptions. -/
lemma Held.listed (h : r.Held n) {t : Topic} (ht : r.Concerns n t) :
    (∃ u ∈ Running.topicsFor (r.state n).world r.own.language, u.Same t) ∨ (r.state n).wanted r.own t = [] := by
  -- every file with a breakpoint is listed under some spelling, and exceptions always are
  by_cases hsome : ∃ b ∈ (r.state n).world.debugger.breakpoints.entries, b.topic.Same t
  · obtain ⟨b, hb, hbt⟩ := hsome
    refine .inl (Running.exists_mem_topicsFor hb hbt fun x hx hxt f hf => ?_)
    have hadmits := ht f (h.files x hx f hf) (Breakpoint.topic_of_fileOf? hf ▸ hxt)
    unfold Running.Admits Debugger.languageOf at hadmits ⊢
    rw [h.sources]
    exact hadmits
  · cases t with
    | file path => exact .inr (wanted_eq_nil (fun b hb hbt => hsome ⟨b, hb, hbt⟩) r.own.channel)
    | exceptions => exact .inl ⟨.exceptions, List.mem_append_right _ (List.mem_singleton.mpr rfl), trivial⟩

namespace Era

/-- A topic that is told about, or left to tell about. -/
lemma listed_of_sends {first : Nat} {t : Topic} {rest : List Topic} (h : r.Held n) (hfirst : first ≤ n)
    (hsends : Sends r.own.channel t (r.state n).world (r.state (n + 1)).world) {u : Topic}
    (hu : (∃ v ∈ t :: rest, v.Same u) ∨ r.Caught u first n) : (∃ v ∈ rest, v.Same u) ∨ r.Caught u first (n + 1) := by
  rcases fate_cases (fate_of_sends hsends h.serves.sound u) with ⟨hsilent, -⟩ | htells
  · rcases hu with ⟨v, hv, hvu⟩ | hcaught
    · rcases List.mem_cons.mp hv with rfl | hv
      · exact absurd (Tells.tellsAt (hsends.told_eq hvu)) hsilent
      · exact .inl ⟨v, hv, hvu⟩
    · exact .inr (hcaught.succ hsilent)
  · exact .inr (.of_tells htells hfirst)

/-- Telling about a topic leaves the session as ready as it is. -/
lemma not_ready_of_sends {t : Topic} (h : ¬ (r.state n).IsReady r.own)
    (hsends : Sends r.own.channel t (r.state n).world (r.state (n + 1)).world) : ¬ (r.state (n + 1)).IsReady r.own := by
  intro hready
  exact h (hsends.2.symm.trans hready)

/-- The handshake begins, and files are listed. -/
lemma of_begins (h : r.Held n) (hbound : n ≤ bound) (hbegins : r.BeginsAt n)
    (hconfiguring : ∀ m, m ≤ n → ¬ (r.state m).IsReady r.own) (huntold : ∀ t, (r.state n).told r.own t = [])
    {t : Topic} {rest : List Topic} (hlisted : Running.topicsFor (r.state n).world r.own.language = t :: rest)
    (hsends : Sends r.own.channel t (r.state n).world (r.state (n + 1)).world)
    (hleft : (Stage.telling rest).Describes r.session r.own.channel (r.state (n + 1)).handshake) :
    r.Era bound (n + 1) := by
  have hready := not_ready_of_sends (hconfiguring n (Nat.le_refl n)) hsends
  refine .during n rest (.telling rest) (.inl rfl) hleft hbegins (Nat.lt_succ_self n)
    (configuring_succ hconfiguring hready) fun u hu => ?_
  apply listed_of_sends h (Nat.le_refl n) hsends
  rcases h.listed (hu.anti hbound) with hlist | hnothing
  · rw [hlisted] at hlist
    exact .inl hlist
  · exact .inr (.of_nothing (huntold u) hnothing)

/-- The session becomes ready when every topic was told about. -/
lemma of_ends {first : Nat} (hn : r.schedule n = .stepHandshake) (hbegins : r.BeginsAt first)
    (hlt : first < n) (hconfiguring : ∀ m, m ≤ n → ¬ (r.state m).IsReady r.own)
    (hcaught : ∀ t, r.Concerns bound t → r.Caught t first n)
    (hsilent : Silent r.own.channel (r.state n).world (r.state (n + 1)).world) (hready : (r.state (n + 1)).IsReady r.own)
    (hleft : Stage.idle.Describes r.session r.own.channel (r.state (n + 1)).handshake) : r.Era bound (n + 1) := by
  have hhandshake : r.Handshake first n (n + 1) := by
    refine ⟨hbegins, hn, hlt, Nat.lt_succ_self n, hconfiguring, fun m hnm hm => ?_⟩
    obtain rfl : m = n + 1 := Nat.le_antisymm hm hnm
    exact hready
  refine .after first n .idle hleft hhandshake fun t ht => ⟨(hcaught t ht).succ fun hne => hne (hsilent.told_eq t), ?_⟩
  -- nothing has happened since
  refine .kept ?_ rfl
  rintro ⟨l, hnl, hln, -⟩
  omega

/-- An action about the handshake before it has begun. -/
lemma before_handshake (hheld : r.Held n) (hbound : n ≤ bound) (hn : r.schedule n = .stepHandshake) {stage : Stage}
    (hearly : stage = .idle ∨ stage = .fresh)
    (hdescribes : stage.Describes r.session r.own.channel (r.state n).handshake)
    (hconfiguring : ∀ m, m ≤ n → ¬ (r.state m).IsReady r.own) (huntold : ∀ t, (r.state n).told r.own t = []) :
    r.Era bound (n + 1) := by
  obtain ⟨-, -, hsame | hnext⟩ := hheld.succ_handshake hn hdescribes
  · have hready := hconfiguring n (Nat.le_refl n)
    rw [← hsame] at hdescribes huntold hready
    exact .before stage hearly hdescribes (configuring_succ hconfiguring hready) huntold
  · cases hnext with
    | begins t rest hlisted hsends hleft =>
      exact of_begins hheld hbound ⟨hn, hdescribes⟩ hconfiguring huntold hlisted hsends hleft
    | tells t rest _ _ => rcases hearly with h | h <;> cases h
    | asks _ _ _ => rcases hearly with h | h <;> cases h
    | ends htold _ _ _ => rcases hearly with rfl | rfl <;> rcases htold with h | h <;> cases h

/-- An action about the handshake that has begun. -/
lemma during_handshake (hheld : r.Held n) (hn : r.schedule n = .stepHandshake) {first : Nat} {topics : List Topic}
    {stage : Stage} (hstage : stage = .telling topics ∨ stage = .ending ∧ topics = [])
    (hdescribes : stage.Describes r.session r.own.channel (r.state n).handshake) (hbegins : r.BeginsAt first)
    (hlt : first < n) (hconfiguring : ∀ m, m ≤ n → ¬ (r.state m).IsReady r.own)
    (hlisted : ∀ t, r.Concerns bound t → (∃ u ∈ topics, u.Same t) ∨ r.Caught t first n) : r.Era bound (n + 1) := by
  have hnow := hconfiguring n (Nat.le_refl n)
  obtain ⟨-, -, hsame | hnext⟩ := hheld.succ_handshake hn hdescribes
  · have hsilent (t : Topic) : ¬ r.TellsAt t n := fun hne => hne (by rw [hsame])
    rw [← hsame] at hdescribes hnow
    exact .during first topics stage hstage hdescribes hbegins (Nat.lt_succ_of_lt hlt)
      (configuring_succ hconfiguring hnow) fun t ht => (hlisted t ht).imp_right fun hcaught => hcaught.succ (hsilent t)
  cases hnext with
  | begins t rest _ _ _ => rcases hstage with h | ⟨h, -⟩ <;> cases h
  | tells t rest hsends hleft =>
    obtain rfl : topics = t :: rest := by
      rcases hstage with h | ⟨h, -⟩
      · exact (Stage.telling.inj h).symm
      · cases h
    exact .during first rest (.telling rest) (.inl rfl) hleft hbegins (Nat.lt_succ_of_lt hlt)
      (configuring_succ hconfiguring (not_ready_of_sends hnow hsends))
      fun u hu => listed_of_sends hheld (Nat.le_of_lt hlt) hsends (hlisted u hu)
  | asks hsilent hphase hleft =>
    obtain rfl : topics = [] := by
      rcases hstage with h | ⟨h, -⟩
      · exact (Stage.telling.inj h).symm
      · cases h
    exact .during first [] .ending (.inr ⟨rfl, rfl⟩) hleft hbegins (Nat.lt_succ_of_lt hlt)
      (configuring_succ hconfiguring fun hready => hnow (hphase.symm.trans hready))
      fun u hu => (hlisted u hu).imp_right fun hcaught => hcaught.succ fun hne => hne (hsilent.told_eq u)
  | ends htold hsilent hready hleft =>
    obtain rfl : topics = [] := by
      rcases hstage with h | ⟨-, h⟩
      · rcases htold with h' | h'
        · exact (Stage.telling.inj (h'.symm.trans h)).symm
        · cases h'.symm.trans h
      · exact h
    refine of_ends hn hbegins hlt hconfiguring (fun t ht => ?_) hsilent hready hleft
    rcases hlisted t ht with ⟨u, hu, -⟩ | hcaught
    · cases hu
    · exact hcaught

/-- An action about a handshake when the session is ready. -/
lemma after_handshake (hheld : r.Held n) (hn : r.schedule n = .stepHandshake) {first last : Nat} {stage : Stage}
    (hdescribes : stage.Describes r.session r.own.channel (r.state n).handshake)
    (hhandshake : r.Handshake first last n)
    (htopics : ∀ t, r.Concerns bound t → r.Caught t first (last + 1) ∧ r.Current t last n) : r.Era bound (n + 1) := by
  have hlast := hhandshake.lt_end
  have hready := hhandshake.ready n hlast (Nat.le_refl n)
  obtain ⟨hheld', hcalls, hnext⟩ := hheld.succ_handshake hn hdescribes
  have hkeeps {t : Topic} (howes : r.Owes n t) : r.Owes (n + 1) t := by
    obtain ⟨i, work, es, hi, hrests, e, he, hsame, hconcerns⟩ := howes
    refine ⟨i, work, es, hcalls ▸ hi, hrests, e, he, hsame, ?_⟩
    exact (concerns_congr (hheld'.sources.trans hheld.sources.symm) e).mpr hconcerns
  have hcurrent (hfate : ∀ t, Fate r.own.channel t (r.state n).world (r.state (n + 1)).world) :
      ∀ t, r.Concerns bound t → r.Caught t first (last + 1) ∧ r.Current t last (n + 1) := by
    intro t ht
    obtain ⟨hcaught, hcurrent⟩ := htopics t ht
    exact ⟨hcaught, hcurrent.succ hlast (.inl (hfate t)) fun howes => .inl (hkeeps howes)⟩
  rcases hnext with hsame | hnext
  · have hfate (t : Topic) : Fate r.own.channel t (r.state n).world (r.state (n + 1)).world := by
      rw [hsame]
      exact .kept rfl rfl
    rw [← hsame] at hdescribes hready
    exact .after first last stage hdescribes (hhandshake.succ hready) (hcurrent hfate)
  · obtain ⟨⟨next, hnextStage⟩, hstays⟩ := hnext.later
    exact .after first last next hnextStage (hhandshake.succ (hstays hready))
      (hcurrent fun t => hnext.fate hheld.serves.sound t)

/-- Another action. -/
lemma succ_of_ne (h : r.Era bound n) (hheld : r.Held n) (hbound : n ≤ bound)
    (hroom : (r.state n).world.debugger.breakpoints.nextId + 1 < Catalog.idLimit) (ha : r.schedule n ≠ .stepHandshake) :
    r.Era bound (n + 1) := by
  obtain ⟨hheld', hfollows⟩ := hheld.succ hroom ha
  cases h with
  | before stage hearly hdescribes hconfiguring huntold =>
    have hnow := hconfiguring n (Nat.le_refl n)
    have hconfiguring' := configuring_succ hconfiguring fun hready => hnow (hfollows.ready.mp hready)
    have huntold' (t : Topic) : (r.state (n + 1)).told r.own t = [] := (hheld.told_eq hroom ha hnow t).trans (huntold t)
    rcases hdescribes.stays ha with hstays | ⟨-, hfresh⟩
    · exact .before stage hearly hstays hconfiguring' huntold'
    · exact .before .fresh (.inr rfl) hfresh hconfiguring' huntold'
  | during first topics stage hstage hdescribes hbegins hlt hconfiguring hlisted =>
    have hnow := hconfiguring n (Nat.le_refl n)
    have hconfiguring' := configuring_succ hconfiguring fun hready => hnow (hfollows.ready.mp hready)
    rcases hdescribes.stays ha with hstays | ⟨rfl, -⟩
    · exact .during first topics stage hstage hstays hbegins (Nat.lt_succ_of_lt hlt) hconfiguring'
        fun t ht => (hlisted t ht).imp_right fun hcaught => hcaught.succ fun hne => hne (hheld.told_eq hroom ha hnow t)
    · rcases hstage with h | ⟨h, -⟩ <;> cases h
  | after first last stage hdescribes hhandshake htopics =>
    have hlast := hhandshake.lt_end
    have hready := hhandshake.ready n hlast (Nat.le_refl n)
    have hnext : ∃ next : Stage, next.Describes r.session r.own.channel (r.state (n + 1)).handshake := by
      rcases hdescribes.stays ha with hstays | ⟨-, hfresh⟩
      · exact ⟨stage, hstays⟩
      · exact ⟨.fresh, hfresh⟩
    obtain ⟨next, hnext⟩ := hnext
    refine .after first last next hnext (hhandshake.succ (hfollows.ready.mpr hready)) fun t ht => ?_
    obtain ⟨hcaught, hcurrent⟩ := htopics t ht
    have hsources := hheld'.sources.trans hheld.sources.symm
    exact ⟨hcaught, hcurrent.succ hlast (hheld.fate hroom ha (ht.anti hbound)) fun howes =>
      howes.succ hheld ha hready hsources⟩

/-- One action. -/
theorem succ (h : r.Era bound n) (hheld : r.Held n) (hbound : n ≤ bound)
    (hroom : (r.state n).world.debugger.breakpoints.nextId + 1 < Catalog.idLimit) :
    r.Held (n + 1) ∧ r.Era bound (n + 1) := by
  by_cases ha : r.schedule n = .stepHandshake
  · cases h with
    | before stage hearly hdescribes hconfiguring huntold =>
      exact ⟨(hheld.succ_handshake ha hdescribes).1,
        before_handshake hheld hbound ha hearly hdescribes hconfiguring huntold⟩
    | during first topics stage hstage hdescribes hbegins hlt hconfiguring hlisted =>
      exact ⟨(hheld.succ_handshake ha hdescribes).1,
        during_handshake hheld ha hstage hdescribes hbegins hlt hconfiguring hlisted⟩
    | after first last stage hdescribes hhandshake htopics =>
      exact ⟨(hheld.succ_handshake ha hdescribes).1, after_handshake hheld ha hdescribes hhandshake htopics⟩
  · exact ⟨(hheld.succ hroom ha).1, h.succ_of_ne hheld hbound hroom ha⟩

end Era

/-- The invariant holds at every time. -/
theorem invariant {bound : Nat} (hserves : Serves r.session r.own r.start)
    (hconfiguring : (r.start.channel r.own.channel).phase ≠ .ready)
    (hopen : (r.start.channel r.own.channel).isOpen = true) (huntold : ∀ t : Topic, t.told (r.start.channel r.own.channel) = [])
    (hroom : ∀ m < bound, (r.state m).world.debugger.breakpoints.nextId + 1 < Catalog.idLimit) {n : Nat} (hn : n ≤ bound) :
    r.Held n ∧ r.Era bound n := by
  induction n with
  | zero =>
    refine ⟨.zero hserves hopen, .before .idle (.inl rfl) rfl (fun m hm => ?_) huntold⟩
    obtain rfl := Nat.le_zero.mp hm
    exact hconfiguring
  | succ n ih =>
    obtain ⟨hheld, hera⟩ := ih (Nat.le_of_succ_le hn)
    exact hera.succ hheld (Nat.le_of_succ_le hn) (hroom n hn)

/-- When no call is left nothing is owed. -/
lemma not_owes_of_isQuiet {n : Nat} (hquiet : (r.state n).IsQuiet) (t : Topic) : ¬ r.Owes n t := by
  rintro ⟨i, work, es, hi, hrests, e, he, -⟩
  have hnil := hrests.eq_nil (hquiet work (List.mem_of_getElem? hi))
  rw [hnil] at he
  cases he

/-- What should be known of a file are its enabled breakpoints. -/
lemma Held.wanted_file {n : Nat} (h : r.Held n) (path : Path) :
    ∃ l, (r.state n).wanted r.own (.file path) = l.map SourceBreakpoint.toJson ∧
      Catalog.Lists (r.state n).world.debugger.breakpoints path l :=
  ⟨_, Topic.wanted_file (r.state n).world r.own.channel (.refl _), h.serves.sound.lists path⟩

end Run

/-! ## Agreement -/

/-- Whatever the order in which calls, the handling of `initialized` and everything around them take their steps:
when all calls are over and the session is ready there was one handshake that made it so. For every topic that
concerns the session there is a last time, up to the end of the handshake, at which its adapter was told about
it, or none and then there was nothing to tell about when the handshake began. The adapter was told right at that
time. It knows what it should know now, unless that has changed between this time and the end of the handshake
and the adapter was not told of the topic since. -/
theorem agrees_iff {r : Run} {n : Nat} (hserves : Serves r.session r.own r.start)
    (hconfiguring : (r.start.channel r.own.channel).phase ≠ .ready)
    (hopen : (r.start.channel r.own.channel).isOpen = true)
    (huntold : ∀ t : Topic, t.told (r.start.channel r.own.channel) = [])
    (hroom : ∀ m < n, (r.state m).world.debugger.breakpoints.nextId + 1 < Catalog.idLimit)
    (hquiet : (r.state n).IsQuiet) (hready : (r.state n).IsReady r.own) :
    (∀ path, ∃ l, (r.state n).wanted r.own (.file path) = l.map SourceBreakpoint.toJson ∧
      Catalog.Lists (r.state n).world.debugger.breakpoints path l) ∧
    ∃ first last, r.Handshake first last n ∧ ∀ t, r.Concerns n t →
      ∃ m, r.LastTold t first (last + 1) m ∧ (r.state m).Agrees r.own t ∧
        ((r.state n).Agrees r.own t ↔
          (r.state (last + 1)).wanted r.own t = (r.state m).wanted r.own t ∨ r.ToldAfter t last n) := by
  obtain ⟨hheld, hera⟩ := Run.invariant hserves hconfiguring hopen huntold hroom (Nat.le_refl n)
  refine ⟨hheld.wanted_file, ?_⟩
  cases hera with
  | before _ _ _ hnever _ => exact absurd hready (hnever n (Nat.le_refl n))
  | during _ _ _ _ _ _ _ hnever _ => exact absurd hready (hnever n (Nat.le_refl n))
  | after first last stage _ hhandshake htopics =>
    refine ⟨first, last, hhandshake, fun t ht => ?_⟩
    obtain ⟨⟨m, hm, hagrees⟩, hcurrent⟩ := htopics t ht
    refine ⟨m, hm, hagrees, ?_⟩
    cases hcurrent with
    | owed howes => exact absurd howes (Run.not_owes_of_isQuiet hquiet t)
    | told htold hagreesNow => exact ⟨fun _ => .inr htold, fun _ => hagreesNow⟩
    | kept huntoldAfter hsame =>
      -- what was told last is what was to be known at that time
      have hlater : r.LastTold t (last + 1) n (last + 1) :=
        ⟨Nat.le_refl _, hhandshake.lt_end, .inl rfl, fun l hle hlt htells => huntoldAfter ⟨l, hle, hlt, htells⟩⟩
      have htold : (r.state n).told r.own t = (r.state m).told r.own t := hlater.told_eq.trans hm.told_eq
      unfold State.Agrees at hagrees ⊢
      rw [htold, hagrees, hsame]
      constructor
      · intro heq
        exact .inl heq.symm
      · rintro (heq | htoldAfter)
        · exact heq.symm
        · exact absurd htoldAfter huntoldAfter

/-! ### A breakpoint that is lost -/

/-- A session that is not ready, and whose adapter was told nothing. -/
def newSession : World where
  net := { channels := [{ dialect := .sequenced }] }
  debugger := { placesFrames := false, sessions := [default], current := [("", 0)] }

/-- A file that has no breakpoint at first. -/
def lateFile : Path := ⟨"demo/Main.java"⟩

/-- The handshake tells about exceptions, a breakpoint is added while the adapter has not answered, and the call is
over before the answer comes. -/
def addsLate : List Action :=
  [.initialized .null, .stepHandshake, .call (.add "demo" lateFile 3 none), .step 0, .step 0,
    .outside newSession
      { dialect := .sequenced, nextId := 2, pending := { next := 1, settled := [(0, .answered (.ok .null))] } } [],
    .stepHandshake]

/-- The run of these actions. -/
def lossy : Run where
  session := 0
  own := default
  start := newSession
  schedule n := addsLate.getD n (.initialized .null)

/-- The adapter never gets to know of the breakpoint. -/
theorem not_agrees_lossy :
    (lossy.state 7).IsQuiet ∧ (lossy.state 7).IsReady lossy.own ∧
      ¬ (lossy.state 7).Agrees lossy.own (.file lateFile) ∧
      ∃ first last m, lossy.Handshake first last 7 ∧ lossy.LastTold (.file lateFile) first (last + 1) m ∧
        (lossy.state (last + 1)).wanted lossy.own (.file lateFile) ≠ (lossy.state m).wanted lossy.own (.file lateFile) := by
  have hserves : Serves lossy.session lossy.own lossy.start :=
    ⟨rfl, rfl, Nat.zero_lt_one, rfl, rfl, Catalog.sound_empty⟩
  have hroom : ∀ m < 7, (lossy.state m).world.debugger.breakpoints.nextId + 1 < Catalog.idLimit := by decide +kernel
  have hquiet : (lossy.state 7).IsQuiet := by
    unfold State.IsQuiet
    decide +kernel
  have hready : (lossy.state 7).IsReady lossy.own := by
    unfold State.IsReady
    decide +kernel
  have hconcerns : lossy.Concerns 7 (.file lateFile) := by
    intro f _ _
    show (Option.all _ ((f.2.extension?.bind fun e => ([] : List (String × String)).lookup e) <|> none)) = true
    cases f.2.extension? <;> rfl
  have hnot : ¬ (lossy.state 7).Agrees lossy.own (.file lateFile) := by
    have htold : ((lossy.state 7).told lossy.own (.file lateFile)).isEmpty = true := by decide +kernel
    have hwanted : ((lossy.state 7).wanted lossy.own (.file lateFile)).isEmpty = false := by decide +kernel
    intro hagrees
    rw [State.Agrees, List.isEmpty_iff.mp htold] at hagrees
    rw [← hagrees] at hwanted
    cases hwanted
  obtain ⟨-, first, last, hhandshake, htopics⟩ :=
    agrees_iff hserves (by decide) rfl (fun _ => rfl) hroom hquiet hready
  obtain ⟨m, hm, -, hiff⟩ := htopics _ hconcerns
  exact ⟨hquiet, hready, hnot, first, last, m, hhandshake, hm, fun heq => hnot (hiff.mpr (.inl heq))⟩

end Switchboard.Debug.Convergence
