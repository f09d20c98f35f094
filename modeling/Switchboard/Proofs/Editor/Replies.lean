import Switchboard.Proofs.Editor.Serving

/-!
# Every line gets its reply

* `Underway`, `Underway.tick`: what is left of an order; its last step is the reply;
* `Ledger`: of the lines that were taken up, some are answered, and for each of the others a call is under way;
* `Spot`, `Course`: what the service is at, what it took up before and what is left of the input;
* `Run.course`: so it is at all times.
-/

namespace Switchboard.Editor

open World (Discreet Onward)

variable {line : Line} {o : Order}

/-! ## Replies -/

lemma answers_reply {answer : Json} (hanswer : Order.IsAnswer answer) (hcommand : (Sense.of line).isCommand = true) :
    Answers line (Order.reply (Sense.of line).id answer) where
  id := hanswer.get?_id _
  one := hanswer.one _
  refused := fun hno => nomatch hno.symm.trans hcommand

lemma answers_unreadable (hline : Sense.of line = .unreadable) : Answers line Order.unreadable where
  id := by
    rw [hline]
    exact (Order.isAnswer_failure _).get?_id _
  one := (Order.isAnswer_failure _).one _
  refused := fun _ => by
    rw [Order.unreadable, Order.failure, Order.reply_error]
    rfl

/-- Do the work of an order, and reply. -/
def Order.replying (o : Order) (work : Task Wait World Order.Ending) : Task Wait World Json :=
  work.andThen fun ending =>
    .access (fun w => w.tell (.reply (reply o.id (ending.answer o.command)))) fun _ =>
      .done (reply o.id (ending.answer o.command))

/-- What is left of the call for a line. -/
def Underway (line : Line) (t : Task Wait World Json) : Prop :=
  ∃ o work, Sense.of line = .order o ∧ Commands.Behaves work ∧ t = o.replying work

lemma underway_work {commands : Commands} (h : commands.Proper) (hline : Sense.of line = .order o) :
    Underway line (o.work commands) := ⟨o, _, hline, h o.command o.arguments, rfl⟩

namespace Underway

variable {t t' : Task Wait World Json}

lemma result? (h : Underway line t) : t.result? = none := by
  obtain ⟨o, work, -, -, rfl⟩ := h
  cases work with
  | done ending => rfl
  | access f next | wait w next => rfl

/-- A step is a discreet one of the work, or it is the last one, the reply. -/
lemma tick (h : Underway line t) {w w' : World} (htick : t.tick? World.holds w = some (t', w')) :
    Underway line t' ∧ Discreet w w' ∨ ∃ v, t' = .done v ∧ w' = w.tell (.reply v) ∧ Answers line v := by
  obtain ⟨o, work, hline, hwork, rfl⟩ := h
  cases hresult : work.result? with
  | some ending =>
    obtain rfl : work = .done ending := by
      cases work with
      | done e => exact congrArg Task.done (Option.some.inj hresult)
      | access f next | wait w next => cases hresult
    obtain ⟨rfl, rfl⟩ := Prod.mk.inj (Option.some.inj htick)
    refine .inr ⟨_, rfl, rfl, ?_⟩
    have hcommand : (Sense.of line).isCommand = true := by
      rw [hline]
      rfl
    have hanswers := answers_reply (Order.Ending.isAnswer_answer hwork o.command) hcommand
    rw [hline] at hanswers
    exact hanswers
  | none =>
    rw [Order.replying, Task.tick?_andThen hresult] at htick
    obtain ⟨⟨work', w₁⟩, hstep, heq⟩ := Option.map_eq_some_iff.mp htick
    obtain ⟨rfl, rfl⟩ := Prod.mk.inj heq
    obtain ⟨⟨⟩, hchange, hrest⟩ := Task.Carries.tick hwork hstep
    refine .inl ⟨⟨o, work', hline, hrest, rfl⟩, ?_⟩
    rcases hchange with hdiscreet | ⟨-, rfl⟩
    · exact hdiscreet
    · exact .refl _

end Underway

/-! ## Who was answered -/

/-- Of the lines that were taken up and want a reply, some have got theirs, and for each of the others a call is under way. -/
structure Ledger (first replies : List Json) (calls : List (Nat × Task Wait World Json)) (taken : List Line)
    (answered : List (Line × Json)) (under : List Line) : Prop where
  replies : replies = first ++ answered.map Prod.snd
  answers : ∀ a ∈ answered, Answers a.1 a.2
  calls : List.Forall₂ (fun line c => Underway line c.2) under calls
  lines : (answered.map Prod.fst ++ under).Perm (spoken taken)

namespace Ledger

variable {first replies : List Json} {calls before after : List (Nat × Task Wait World Json)} {taken : List Line}
  {answered : List (Line × Json)} {under : List Line} {number : Nat} {t : Task Wait World Json}

lemma start (first : List Json) : Ledger first first [] [] [] [] :=
  ⟨(List.append_nil _).symm, List.forall_mem_nil _, .nil, .nil⟩

/-- A line that wants no reply is taken up. -/
lemma skips (h : Ledger first replies calls taken answered under) (hline : (Sense.of line).isSpoken = false) :
    Ledger first replies calls (taken ++ [line]) answered under where
  replies := h.replies
  answers := h.answers
  calls := h.calls
  lines := by
    rw [spoken_concat_of_not hline]
    exact h.lines

/-- A line is taken up and replied to. -/
lemma answersOne (h : Ledger first replies calls taken answered under) {v : Json} (hspoken : (Sense.of line).isSpoken = true)
    (hv : Answers line v) :
    Ledger first (replies ++ [v]) calls (taken ++ [line]) (answered ++ [(line, v)]) under where
  replies := by rw [h.replies, List.map_append, List.append_assoc]; rfl
  answers := by
    intro a ha
    rcases List.mem_append.mp ha with ha | ha
    · exact h.answers a ha
    · rw [List.mem_singleton.mp ha]
      exact hv
  calls := h.calls
  lines := by
    rw [spoken_concat hspoken, List.map_append, List.append_assoc]
    show (answered.map Prod.fst ++ ([line] ++ under)).Perm _
    refine (List.perm_append_comm.append_left _).trans ?_
    rw [← List.append_assoc]
    exact h.lines.append_right _

/-- A line is taken up, and the call for it begins. -/
lemma begins (h : Ledger first replies calls taken answered under) (hspoken : (Sense.of line).isSpoken = true)
    (ht : Underway line t) :
    Ledger first replies (calls ++ [(number, t)]) (taken ++ [line]) answered (under ++ [line]) where
  replies := h.replies
  answers := h.answers
  calls := List.rel_append h.calls (.cons ht .nil)
  lines := by
    rw [spoken_concat hspoken, ← List.append_assoc]
    exact h.lines.append_right _

/-- A step of a call: something is left of it, or it replies. -/
lemma step (h : Ledger first replies (before ++ (number, t) :: after) taken answered under) :
    ∃ line under₁ under₂, Underway line t ∧
      (∀ t', Underway line t' →
        Ledger first replies (before ++ (number, t') :: after) taken answered (under₁ ++ line :: under₂)) ∧
      ∀ v, Answers line v →
        Ledger first (replies ++ [v]) (before ++ after) taken (answered ++ [(line, v)]) (under₁ ++ under₂) := by
  have hbefore := List.forall₂_take_append _ _ _ h.calls
  have hrest := List.forall₂_drop_append _ _ _ h.calls
  have hlines := h.lines
  rw [← List.take_append_drop before.length under] at hlines
  generalize under.take before.length = under₁ at hbefore hlines
  generalize under.drop before.length = rest at hrest hlines
  cases hrest with
  | @cons line c under₂ l ht hafter =>
    refine ⟨line, under₁, under₂, ht, ?_, ?_⟩
    · intro t' ht'
      exact ⟨h.replies, h.answers, List.rel_append hbefore (.cons ht' hafter), hlines⟩
    · intro v hv
      refine ⟨?_, ?_, List.rel_append hbefore hafter, ?_⟩
      · rw [h.replies, List.map_append, List.append_assoc]
        rfl
      · intro a ha
        rcases List.mem_append.mp ha with ha | ha
        · exact h.answers a ha
        · rw [List.mem_singleton.mp ha]
          exact hv
      · refine List.Perm.trans ?_ hlines
        rw [List.map_append, List.append_assoc]
        show (answered.map Prod.fst ++ line :: (under₁ ++ under₂)).Perm _
        exact List.Perm.append_left _ List.perm_middle.symm

end Ledger

/-! ## What a service is at -/

/-- What a service is at, when these calls are under way, these lines are left and this was said in the end. -/
inductive Spot (calls : List (Nat × Task Wait World Json)) : Service.Phase → List Line → List Json → Prop
  | reading {rest : List Line} : Spot calls .reading rest []
  | waiting {id : Json} {line : Line} {rest : List Line} (stop : Sense.of line = .stop id) :
    Spot calls (.waiting id) (line :: rest) []
  | stopping {id : Json} {line : Line} {rest : List Line} {work : Task Wait World Unit} (stop : Sense.of line = .stop id)
      (idle : calls = []) (discreet : work.Within Discreet) : Spot calls (.stopping (some id) work) (line :: rest) []
  | stopped {id : Json} {line : Line} {rest : List Line} (stop : Sense.of line = .stop id) (idle : calls = []) :
    Spot calls (.ended none) (line :: rest) [Order.reply id (.obj [("ok", .null)])]
  | quitting {work : Task Wait World Unit} (discreet : work.Within Discreet) : Spot calls (.stopping none work) [] []
  | quit : Spot calls (.ended none) [] []
  | broken {line : Line} {rest : List Line} (garbled : Sense.of line = .garbled) :
    Spot calls (.ended (some Service.notText)) (line :: rest) []

namespace Spot

variable {calls calls' : List (Nat × Task Wait World Json)} {phase : Service.Phase} {rest : List Line} {last : List Json}

lemma of_calls (h : Spot calls phase rest last) (hcalls : calls = [] → calls' = []) : Spot calls' phase rest last := by
  cases h with
  | reading => exact .reading
  | waiting stop => exact .waiting stop
  | stopping stop idle discreet => exact .stopping stop (hcalls idle) discreet
  | stopped stop idle => exact .stopped stop (hcalls idle)
  | quitting discreet => exact .quitting discreet
  | quit => exact .quit
  | broken garbled => exact .broken garbled

/-- As long as calls are under way nothing was said in the end. -/
lemma last_eq_nil (h : Spot calls phase rest last) (hcalls : calls ≠ []) : last = [] := by
  cases h with
  | stopped stop idle => exact absurd idle hcalls
  | reading | waiting | stopping | quitting | quit | broken => rfl

end Spot

/-- How far a service has come: these lines were taken up, these are left, and these replies were followed by these. -/
structure Course (r : Run) (s : State) (taken rest : List Line) (replies last : List Json) : Prop where
  commands : s.service.commands = r.commands
  sent : s.service.inputEnded = true → s.unsent = []
  numbers : (s.service.activity.calls.map Prod.fst).Nodup
  below : ∀ c ∈ s.service.activity.calls, c.1 < s.service.next
  passing : ∀ line ∈ taken, (Sense.of line).isPassing = true
  parts : lines r.stream = taken ++ rest
  left : s.service.phase = .reading → rest = lines (s.service.input ++ s.unsent)
  told : s.service.world.replies = replies ++ last
  ledger : ∃ answered under, Ledger r.world.replies replies s.service.activity.calls taken answered under
  spot : Spot s.service.activity.calls s.service.phase rest last

namespace Course

variable {r : Run} {s : State} {taken rest : List Line} {replies last : List Json}

lemma start (r : Run) : Course r (r.state 0) [] (lines r.stream) r.world.replies [] where
  commands := rfl
  sent := fun h => nomatch h
  numbers := List.nodup_nil
  below := List.forall_mem_nil _
  passing := List.forall_mem_nil _
  parts := rfl
  left := fun _ => rfl
  told := (List.append_nil _).symm
  ledger := ⟨[], [], .start _⟩
  spot := .reading

/-- More bytes come, or the input ends. -/
lemma arrives (h : Course r s taken rest replies last) {first unsent : List UInt8} (hparts : s.unsent = first ++ unsent) :
    Course r ⟨s.service.feed first, unsent⟩ taken rest replies last where
  commands := h.commands
  sent := fun hended => (List.append_eq_nil_iff.mp (hparts.symm.trans (h.sent hended))).2
  numbers := h.numbers
  below := h.below
  passing := h.passing
  parts := h.parts
  left := fun hphase => by
    rw [h.left hphase, hparts, ← List.append_assoc]
    rfl
  told := h.told
  ledger := h.ledger
  spot := h.spot

lemma hangsUp (h : Course r s taken rest replies last) (hsent : s.unsent = []) :
    Course r ⟨s.service.endInput, s.unsent⟩ taken rest replies last :=
  ⟨h.commands, fun _ => hsent, h.numbers, h.below, h.passing, h.parts, h.left, h.told, h.ledger, h.spot⟩

/-- Something else happens. -/
lemma aside (h : Course r s taken rest replies last) {w : World} (hw : Discreet s.service.world w) :
    Course r ⟨s.service.inWorld w, s.unsent⟩ taken rest replies last :=
  ⟨h.commands, h.sent, h.numbers, h.below, h.passing, h.parts, h.left, hw.replies.trans h.told, h.ledger, h.spot⟩

/-- A call goes on, or replies. -/
lemma calls (h : Course r s taken rest replies last) {number : Nat} {a : Activity}
    (hstep : s.service.activity.callOnce? number = some a) :
    Onward s.service.world a.world ∧
      ∃ replies, Course r ⟨{ s.service with activity := a }, s.unsent⟩ taken rest replies last := by
  obtain ⟨answered, under, hledger⟩ := h.ledger
  cases hfound : s.service.activity.calls.lookup number with
  | none =>
    rw [Activity.callOnce?, hfound] at hstep
    cases hstep
  | some t =>
    obtain ⟨before, after, hcalls, -⟩ := List.lookup_eq_some_iff.mp hfound
    have hlast : last = [] := h.spot.last_eq_nil (by rw [hcalls]; simp)
    subst hlast
    have htold := h.told
    have hspot := h.spot
    have hnumbers := h.numbers
    have hbelow := h.below
    rw [Activity.callOnce?_between hcalls h.numbers] at hstep
    obtain ⟨⟨t', w⟩, htick, rfl⟩ := Option.map_eq_some_iff.mp hstep
    rw [hcalls] at hledger hspot hnumbers hbelow
    obtain ⟨line, under₁, under₂, hunder, hmoves, hanswers⟩ := hledger.step
    rcases hunder.tick htick with ⟨hunder', hdiscreet⟩ | ⟨v, rfl, rfl, hv⟩
    · have hsame : before ++ Activity.left number t' ++ after = before ++ (number, t') :: after := by
        rw [Activity.left_of_result? hunder'.result?, List.append_assoc, List.singleton_append]
      refine ⟨hdiscreet.toOnward, replies, h.commands, h.sent, ?_, ?_, h.passing, h.parts, h.left,
        hdiscreet.replies.trans htold, ⟨answered, _, hsame ▸ hmoves t' hunder'⟩,
        hspot.of_calls fun hnone => by simp at hnone⟩
      · show ((before ++ Activity.left number t' ++ after).map Prod.fst).Nodup
        rw [hsame, List.map_append, List.map_cons]
        rw [List.map_append, List.map_cons] at hnumbers
        exact hnumbers
      · intro c hc
        have hc : c ∈ before ++ (number, t') :: after := hsame ▸ hc
        rcases List.mem_append.mp hc with hc | hc
        · exact hbelow c (List.mem_append_left _ hc)
        · rcases List.mem_cons.mp hc with rfl | hc
          · exact hbelow (number, t) (List.mem_append_right _ List.mem_cons_self)
          · exact hbelow c (List.mem_append_right _ (List.mem_cons_of_mem _ hc))
    · have hsame : before ++ Activity.left number (.done v) ++ after = before ++ after := by
        rw [Activity.left, List.append_nil]
      refine ⟨.tell _ _, replies ++ [v], h.commands, h.sent, ?_, ?_, h.passing, h.parts, h.left, ?_,
        ⟨_, _, hsame ▸ hanswers v hv⟩, hspot.of_calls fun hnone => by simp at hnone⟩
      · show ((before ++ Activity.left number (.done v) ++ after).map Prod.fst).Nodup
        rw [hsame]
        exact hnumbers.sublist (((List.sublist_cons_self _ _).append_left before).map _)
      · intro c hc
        have hc : c ∈ before ++ after := hsame ▸ hc
        exact hbelow c (((List.sublist_cons_self _ _).append_left before).subset hc)
      · show (s.service.world.tell (.reply v)).replies = _
        rw [World.replies_tell_reply, htold, List.append_nil, List.append_nil]

/-- While the service reads nothing was said in the end. -/
lemma last_eq_nil (h : Course r s taken rest replies last) (hphase : s.service.phase = .reading) : last = [] := by
  have hspot := h.spot
  rw [hphase] at hspot
  cases hspot
  rfl

/-- The next line is taken up. -/
lemma takes (h : Course r s taken rest replies last) {line : Line} {input : List UInt8}
    (hphase : s.service.phase = .reading) (hline : s.service.firstLine? = some (line, input)) :
    ∃ taken rest replies, Course r ⟨{ s.service with input }.heed (Sense.of line), s.unsent⟩ taken rest replies [] := by
  obtain rfl := h.last_eq_nil hphase
  obtain ⟨answered, under, hledger⟩ := h.ledger
  have hrest : rest = line :: lines (input ++ s.unsent) :=
    (h.left hphase).trans (Service.lines_of_firstLine? hline h.sent)
  have hparts : lines r.stream = (taken ++ [line]) ++ lines (input ++ s.unsent) := by
    rw [h.parts, hrest, List.append_assoc, List.singleton_append]
  have hpassing : (Sense.of line).isPassing = true → ∀ x ∈ taken ++ [line], (Sense.of x).isPassing = true := by
    intro hpasses x hx
    rcases List.mem_append.mp hx with hx | hx
    · exact h.passing x hx
    · rw [List.mem_singleton.mp hx]
      exact hpasses
  have hreading : ∀ calls, Spot calls s.service.phase (lines (input ++ s.unsent)) [] := by
    rw [hphase]
    exact fun _ => .reading
  cases hsense : Sense.of line with
  | blank =>
    exact ⟨_, _, _, h.commands, h.sent, h.numbers, h.below, hpassing (by rw [hsense]; rfl), hparts, fun _ => rfl, h.told,
      ⟨_, _, hledger.skips (by rw [hsense]; rfl)⟩, hreading _⟩
  | garbled =>
    refine ⟨taken, rest, replies, h.commands, h.sent, h.numbers, h.below, h.passing, h.parts, nofun, h.told, h.ledger, ?_⟩
    rw [hrest]
    exact .broken hsense
  | unreadable =>
    refine ⟨_, _, replies ++ [Order.unreadable], h.commands, h.sent, h.numbers, h.below, hpassing (by rw [hsense]; rfl),
      hparts, fun _ => rfl, ?_,
      ⟨_, _, hledger.answersOne (by rw [hsense]; rfl) (answers_unreadable hsense)⟩, hreading _⟩
    rw [List.append_nil]
    exact (World.replies_tell_reply _ _).trans (congrArg (· ++ _) (h.told.trans (List.append_nil _)))
  | stop id =>
    refine ⟨taken, rest, replies, h.commands, h.sent, h.numbers, h.below, h.passing, h.parts, nofun, h.told, h.ledger, ?_⟩
    rw [hrest]
    exact .waiting hsense
  | order o =>
    have hunder : Underway line (o.work s.service.commands) := by
      rw [h.commands]
      exact underway_work r.proper hsense
    refine ⟨_, _, _, h.commands, h.sent, ?_, ?_, hpassing (by rw [hsense]; rfl), hparts, fun _ => rfl, h.told,
      ⟨_, _, hledger.begins (by rw [hsense]; rfl) hunder⟩, hreading _⟩
    · show ((s.service.activity.calls ++ [(s.service.next, _)]).map Prod.fst).Nodup
      rw [List.map_append]
      refine h.numbers.append (List.nodup_singleton _) ?_
      intro number hold hnew
      obtain ⟨c, hc, rfl⟩ := List.mem_map.mp hold
      exact Nat.ne_of_lt (h.below c hc) (List.mem_singleton.mp hnew)
    · intro c hc
      rcases List.mem_append.mp hc with hc | hc
      · exact Nat.lt_succ_of_lt (h.below c hc)
      · rw [List.mem_singleton.mp hc]
        exact Nat.lt_succ_self _

/-- The input is at its end. -/
lemma quits (h : Course r s taken rest replies last) (hphase : s.service.phase = .reading)
    (hnothing : s.service.firstLine? = none) (hfinished : s.service.inputEnded = true) :
    Course r ⟨{ s.service with phase := .stopping none Service.endSessions }, s.unsent⟩ taken [] replies [] := by
  obtain rfl := h.last_eq_nil hphase
  obtain rfl : rest = [] := by
    rw [h.left hphase, Service.input_eq_nil hnothing hfinished, h.sent hfinished]
    rfl
  exact ⟨h.commands, h.sent, h.numbers, h.below, h.passing, h.parts, nofun, h.told, h.ledger,
    .quitting within_discreet_endSessions⟩

/-- No call is under way any more when the service was told to stop. -/
lemma stops (h : Course r s taken rest replies last) {id : Json} (hphase : s.service.phase = .waiting id)
    (hidle : s.service.activity.calls = []) :
    Course r ⟨{ s.service with phase := .stopping (some id) Service.endSessions }, s.unsent⟩ taken rest replies last := by
  refine ⟨h.commands, h.sent, h.numbers, h.below, h.passing, h.parts, nofun, h.told, h.ledger, ?_⟩
  have hspot := h.spot
  rw [hphase] at hspot
  cases hspot with
  | waiting stop => exact .stopping stop hidle within_discreet_endSessions

/-- Stopping goes on. -/
lemma ends (h : Course r s taken rest replies last) {id : Option Json} {work work' : Task Wait World Unit} {w : World}
    (hphase : s.service.phase = .stopping id work) (htick : work.tick? World.holds s.service.world = some (work', w)) :
    Onward s.service.world w ∧
      Course r ⟨{ s.service.inWorld w with phase := .stopping id work' }, s.unsent⟩ taken rest replies last := by
  have hstep : ∀ {t : Task Wait World Unit}, t = work → t.Within Discreet →
      Discreet s.service.world w ∧ work'.Within Discreet := by
    rintro t rfl ht
    obtain ⟨hchange, hrest⟩ := Task.Within.tick ht htick
    refine ⟨?_, hrest⟩
    rcases hchange with hdiscreet | rfl
    · exact hdiscreet
    · exact .refl _
  have hspot := h.spot
  rw [hphase] at hspot
  cases hspot with
  | stopping stop idle discreet =>
    obtain ⟨hw, hrest⟩ := hstep rfl discreet
    exact ⟨hw.toOnward, h.commands, h.sent, h.numbers, h.below, h.passing, h.parts, nofun, hw.replies.trans h.told,
      h.ledger, .stopping stop idle hrest⟩
  | quitting discreet =>
    obtain ⟨hw, hrest⟩ := hstep rfl discreet
    exact ⟨hw.toOnward, h.commands, h.sent, h.numbers, h.below, h.passing, h.parts, nofun, hw.replies.trans h.told,
      h.ledger, .quitting hrest⟩

/-- Every session has ended. -/
lemma concludes (h : Course r s taken rest replies last) {id : Option Json} {u : Unit}
    (hphase : s.service.phase = .stopping id (.done u)) :
    ∃ last, Course r ⟨s.service.conclude id, s.unsent⟩ taken rest replies last := by
  have hspot := h.spot
  rw [hphase] at hspot
  cases hspot with
  | stopping stop idle discreet =>
    refine ⟨_, h.commands, h.sent, h.numbers, h.below, h.passing, h.parts, nofun, ?_, h.ledger, .stopped stop idle⟩
    exact (World.replies_tell_reply _ _).trans (congrArg (· ++ _) (h.told.trans (List.append_nil _)))
  | quitting discreet =>
    exact ⟨_, h.commands, h.sent, h.numbers, h.below, h.passing, h.parts, nofun, h.told, h.ledger, .quit⟩

/-- Every turn brings a service on. -/
lemma turns (h : Course r s taken rest replies last) {turn : Turn} {s' : State} (hturn : s.Turns turn s') :
    Onward s.service.world s'.service.world ∧ ∃ taken rest replies last, Course r s' taken rest replies last := by
  have hsame : Onward s.service.world s.service.world := .refl _
  cases hturn with
  | still => exact ⟨hsame, _, _, _, _, h⟩
  | arrives first unsent parts => exact ⟨hsame, _, _, _, _, h.arrives parts⟩
  | hangsUp sent => exact ⟨hsame, _, _, _, _, h.hangsUp sent⟩
  | takes line input mine reads first =>
    obtain ⟨taken, rest, replies, hnext⟩ := h.takes reads first
    exact ⟨Service.onward_heed { s.service with input } _, _, _, _, _, hnext⟩
  | quits mine reads nothing finished => exact ⟨hsame, _, _, _, _, h.quits reads nothing finished⟩
  | stops id mine waits idle => exact ⟨hsame, _, _, _, _, h.stops waits idle⟩
  | ends id work work' w mine here tick => exact ⟨(h.ends here tick).1, _, _, _, _, (h.ends here tick).2⟩
  | concludes id u mine here =>
    obtain ⟨last, hnext⟩ := h.concludes here
    exact ⟨Service.onward_conclude _ _, _, _, _, _, hnext⟩
  | calls number a other step =>
    obtain ⟨honward, replies, hnext⟩ := h.calls step
    exact ⟨honward, _, _, _, _, hnext⟩
  | aside w other discreet => exact ⟨discreet.toOnward, _, _, _, _, h.aside discreet⟩

end Course

namespace Run

/-- So far has a service come at any time. -/
theorem course (r : Run) (n : Nat) : ∃ taken rest replies last, Course r (r.state n) taken rest replies last := by
  induction n with
  | zero => exact ⟨_, _, _, _, .start r⟩
  | succ n ih =>
    obtain ⟨taken, rest, replies, last, h⟩ := ih
    exact (h.turns (r.turns n)).2

/-- At all times closed channels stay closed, and debug sessions keep their channels. -/
theorem onward (r : Run) (n : Nat) : Onward (r.worldAt n) (r.worldAt (n + 1)) := by
  obtain ⟨_, _, _, _, h⟩ := r.course n
  exact (h.turns (r.turns n)).1

end Run

end Switchboard.Editor
