import Switchboard.Proofs.Editor.Replies

/-!
# The order to stop

* `parts_unique`: the first element of another kind divides a list in one way only;
* `Run.Attentive`, `Run.Fair`: the listener gets turns and the end of the sessions comes to its end; besides, all of the
  input arrives, and calls come to their end;
* `Run.ends_of_fair`: then a service that is told to stop comes to its end;
* `Run.one_reply_each`: at its end every line before the order to stop has got one reply, the order to stop has got the last
  one, and no other line has got any.
-/

namespace Switchboard.Editor

open World (Discreet)

/-! ## The first order to stop -/

section Parts

variable {α : Type} {p : α → Bool} {l l' m m' : List α} {a b : α}

/-- What comes before the first element of another kind. -/
lemma takeWhile_parts (hl : ∀ x ∈ l, p x = true) (ha : p a = false) : (l ++ a :: m).takeWhile p = l := by
  rw [List.takeWhile_append_of_pos hl, List.takeWhile_cons_of_neg (by rw [ha]; exact Bool.false_ne_true), List.append_nil]

/-- What comes before the first element of another kind, that element, and what follows are told by the list. -/
lemma parts_unique (hsame : l ++ a :: m = l' ++ b :: m') (hl : ∀ x ∈ l, p x = true) (ha : p a = false)
    (hl' : ∀ x ∈ l', p x = true) (hb : p b = false) : l = l' ∧ a = b ∧ m = m' := by
  have hfirst : l = l' := by
    rw [← takeWhile_parts (m := m) hl ha, hsame, takeWhile_parts hl' hb]
  subst hfirst
  exact ⟨rfl, List.cons.inj (List.append_cancel_left hsame)⟩

end Parts

/-- The lines of a stream: those before the first order to stop, that order, and those after it. -/
structure Stops (stream : List UInt8) (before : List Line) (last : Line) (id : Json) (rest : List Line) : Prop where
  parts : lines stream = before ++ last :: rest
  passing : ∀ line ∈ before, (Sense.of line).isPassing = true
  stop : Sense.of last = .stop id

/-! ## Services that are told to stop -/

/-- At its end the service has replied once to every line up to the order to stop, and to that one last. -/
lemma Course.replied {r : Run} {s : State} {taken left : List Line} {replies final : List Json}
    (h : Course r s taken left replies final) {before rest : List Line} {last : Line} {id : Json}
    (hstops : Stops r.stream before last id rest) {fault : Option String} (hended : s.service.phase = .ended fault) :
    ∃ (answered : List (Line × Json)) (reply : Json), (answered.map Prod.fst).Perm (spoken before) ∧
      (∀ a ∈ answered, Answers a.1 a.2) ∧ Answers last reply ∧ fault = none ∧
      s.service.world.replies = r.world.replies ++ answered.map Prod.snd ++ [reply] := by
  obtain ⟨answered, under, hledger⟩ := h.ledger
  have hparts := hstops.parts.symm.trans h.parts
  have hfirst : ∀ (line : Line) (more : List Line), left = line :: more → (Sense.of line).isPassing = false →
      before = taken ∧ last = line := by
    rintro line more rfl hline
    have hstop : (Sense.of last).isPassing = false := by
      rw [hstops.stop]
      rfl
    obtain ⟨htaken, hsame, -⟩ :=
      parts_unique (p := fun line => (Sense.of line).isPassing) hparts hstops.passing hstop h.passing hline
    exact ⟨htaken, hsame⟩
  have hspot := h.spot
  have htold := h.told
  rw [hended] at hspot
  generalize hcalls : s.service.activity.calls = calls at hspot hledger
  generalize hleft : left = remaining at hspot hfirst
  cases hspot with
  | @stopped own line more stop idle =>
    subst idle
    obtain ⟨rfl, rfl⟩ := hfirst line more rfl (by rw [stop]; rfl)
    obtain rfl : under = [] := List.forall₂_nil_right_iff.mp hledger.calls
    refine ⟨answered, Order.reply own (.obj [("ok", .null)]), ?_, hledger.answers, ?_, rfl, ?_⟩
    · have hlines := hledger.lines
      rw [List.append_nil] at hlines
      exact hlines
    · have hcommand : (Sense.of last).isCommand = true := by
        rw [stop]
        rfl
      have hanswers := answers_reply (.value .null) hcommand
      rw [stop] at hanswers
      exact hanswers
    · rw [htold, hledger.replies]
  | quit =>
    rw [hleft, List.append_nil] at hparts
    have hpasses := h.passing last (hparts ▸ List.mem_append_right _ List.mem_cons_self)
    rw [hstops.stop] at hpasses
    cases hpasses
  | @broken line more garbled =>
    obtain ⟨-, rfl⟩ := hfirst line more rfl (by rw [garbled]; rfl)
    exact nomatch hstops.stop.symm.trans garbled

/-! ## The end comes -/

section Turns

variable {s s' : State} {turn : Turn}

namespace State.Turns

/-- What has arrived stays so. -/
lemma sent (h : s.Turns turn s') (hs : s.unsent = []) : s'.unsent = [] := by
  cases h with
  | arrives first rest parts => exact (List.append_eq_nil_iff.mp (parts.symm.trans hs)).2
  | still | hangsUp | takes | quits | stops | ends | concludes | calls | aside => exact hs

lemma inputEnded (h : s.Turns turn s') (hs : s.service.inputEnded = true) : s'.service.inputEnded = true := by
  cases h with
  | hangsUp sent => rfl
  | takes line rest mine reads first => exact (Service.inputEnded_heed _ _).trans hs
  | concludes id u mine here => exact (Service.inputEnded_conclude _ _).trans hs
  | still | arrives | quits | stops | ends | calls | aside => exact hs

/-- A service that stopped reading does not take it up again. -/
lemma reads (h : s.Turns turn s') (hs : s'.service.phase = .reading) : s.service.phase = .reading := by
  cases h with
  | takes line rest mine reads first => exact reads
  | quits mine reads nothing finished => exact reads
  | stops | ends => cases hs
  | concludes id u mine here => exact nomatch (Service.phase_conclude _ _).symm.trans hs
  | still | arrives | hangsUp | calls | aside => exact hs

/-- While it does not read, no call begins. -/
lemma numbers (h : s.Turns turn s') (hs : s.service.phase ≠ .reading) :
    s'.service.activity.calls.map Prod.fst ⊆ s.service.activity.calls.map Prod.fst := by
  cases h with
  | takes line rest mine reads first => exact absurd reads hs
  | quits mine reads nothing finished => exact absurd reads hs
  | calls number a other step => exact Activity.numbers_callOnce? step
  | concludes id u mine here =>
    have hsame := Service.calls_conclude s.service id
    exact fun n hn => hsame ▸ hn
  | still | arrives | hangsUp | stops | ends | aside => exact List.Subset.refl _

end State.Turns

/-- How many lines are left. -/
def State.left (s : State) : Nat := (lines (s.service.input ++ s.unsent)).length

/-- As long as the service reads, no line comes from anywhere. -/
lemma State.Turns.left_le (h : s.Turns turn s') (hs : s'.service.phase = .reading)
    (hsent : s.service.inputEnded = true → s.unsent = []) : s'.left ≤ s.left := by
  cases h with
  | arrives first rest parts =>
    refine Nat.le_of_eq ?_
    unfold State.left
    rw [parts, ← List.append_assoc]
    rfl
  | takes line rest mine reads first =>
    have hinput : ({ s.service with input := rest }.heed (Sense.of line)).input = rest := Service.input_heed _ _
    unfold State.left
    rw [hinput, Service.lines_of_firstLine? first hsent]
    exact Nat.le_succ _
  | stops | ends => cases hs
  | concludes id u mine here => exact nomatch (Service.phase_conclude _ _).symm.trans hs
  | quits => exact Nat.le_refl _
  | still | hangsUp | calls | aside => exact Nat.le_refl _

/-- The listener takes a line up that has arrived. -/
lemma State.after_listens {line rest : List UInt8} (hphase : s.service.phase = .reading)
    (hline : s.service.firstLine? = some (line, rest)) :
    s.after .listens = ⟨{ s.service with input := rest }.heed (Sense.of line), s.unsent⟩ := by
  unfold State.after
  dsimp only
  rw [Service.listenOnce?_of_firstLine? hphase hline]
  rfl

/-- The listener begins to stop at the end of the input. -/
lemma State.after_listens_of_nothing (hphase : s.service.phase = .reading) (hnothing : s.service.firstLine? = none)
    (hended : s.service.inputEnded = true) : (s.after .listens).service.phase = .stopping none Service.endSessions := by
  unfold State.after Service.listenOnce?
  rw [hphase]
  dsimp only
  rw [hnothing]
  dsimp only
  rw [if_pos hended]
  rfl

/-- It begins to stop when no call is under way. -/
lemma State.after_listens_of_idle {id : Json} (hphase : s.service.phase = .waiting id)
    (hidle : s.service.activity.calls = []) :
    (s.after .listens).service.phase = .stopping (some id) Service.endSessions := by
  unfold State.after Service.listenOnce?
  rw [hphase]
  dsimp only
  rw [hidle]
  rfl

end Turns

namespace Run

/-- The listener gets turns, and the end of the sessions comes to its end. -/
structure Attentive (r : Run) : Prop where
  listens : ∀ n, ∃ m, n ≤ m ∧ r.schedule m = .listens
  ends : ∀ n id work, r.phase n = .stopping id work → ∃ m fault, r.phase m = .ended fault

/-- Besides, all of the input arrives, and calls come to their end. -/
structure Fair (r : Run) : Prop extends r.Attentive where
  /-- Unless the last line is finished, the input ends. -/
  arrives : ∃ n, (r.state n).unsent = [] ∧ ((r.state n).service.inputEnded = true ∨ r.stream.getLast? = some 0x0A)
  calls : ∀ n, ∀ c ∈ r.calls n, ∃ m, n ≤ m ∧ ∀ c' ∈ r.calls m, c'.1 ≠ c.1

section Onward

variable {r : Run} {n : Nat}

/-- What every turn keeps is kept. -/
lemma keeps {P : State → Prop} (hP : ∀ {s s' turn}, State.Turns s turn s' → P s → P s') (hn : P (r.state n)) {m : Nat}
    (hnm : n ≤ m) : P (r.state m) := by
  induction m, hnm using Nat.le_induction with
  | base => exact hn
  | succ m _ ih => exact hP (r.turns m) ih

/-- All of the input has arrived. -/
def Arrived (r : Run) (s : State) : Prop :=
  s.unsent = [] ∧ (s.service.inputEnded = true ∨ r.stream.getLast? = some 0x0A)

lemma arrived_of_turns {s s' : State} {turn : Turn} (h : s.Turns turn s') (hs : r.Arrived s) : r.Arrived s' :=
  ⟨h.sent hs.1, hs.2.imp_left h.inputEnded⟩

variable {before rest : List Line} {last : Line} {id : Json}

/-- While the service reads, a line can be taken when all has arrived, since the order to stop is still to come. -/
lemma exists_firstLine (hstops : Stops r.stream before last id rest) (hphase : r.phase n = .reading)
    (harrived : r.Arrived (r.state n)) : ∃ line input, (r.state n).service.firstLine? = some (line, input) := by
  obtain ⟨taken, left, replies, final, hcourse⟩ := r.course n
  have hleft := hcourse.left hphase
  rw [harrived.1, List.append_nil] at hleft
  have hne : (r.state n).service.input ≠ [] := by
    intro hnil
    have hparts := hstops.parts.symm.trans hcourse.parts
    rw [hleft, hnil, show lines [] = [] from rfl, List.append_nil] at hparts
    have hpasses := hcourse.passing last (hparts ▸ List.mem_append_right _ List.mem_cons_self)
    rw [hstops.stop] at hpasses
    cases hpasses
  rcases harrived.2 with hended | hlast
  · cases hfound : (r.state n).service.firstLine? with
    | some found => exact ⟨found.1, found.2, rfl⟩
    | none => exact absurd (Service.input_eq_nil hfound hended) hne
  · have hstream : r.stream = taken.flatten ++ (r.state n).service.input := by
      rw [← flatten_lines r.stream, hcourse.parts, hleft, List.flatten_append, flatten_lines]
    rw [hstream, List.getLast?_append_of_ne_nil _ hne] at hlast
    obtain ⟨found, hfound⟩ := Option.isSome_iff_exists.mp (Service.isSome_firstLine? (List.mem_of_getLast? hlast))
    exact ⟨found.1, found.2, hfound⟩

/-- A service does not read for ever if from some time on a line can be taken in each turn of the listener. -/
lemma exists_not_reading (hattentive : r.Attentive) (hmore : (∀ m, r.phase m = .reading) → ∀ k, n ≤ k → r.schedule k = .listens →
    ∃ line input, (r.state k).service.firstLine? = some (line, input)) : ∃ n, r.phase n ≠ .reading := by
  by_contra hnever
  have hreading : ∀ n, r.phase n = .reading := fun n => not_not.mp fun h => hnever ⟨n, h⟩
  have hfewer : ∀ m k, m ≤ k → (r.state k).left ≤ (r.state m).left := by
    intro m k hmk
    induction k, hmk using Nat.le_induction with
    | base => exact Nat.le_refl _
    | succ k _ ih =>
      obtain ⟨_, _, _, _, hcourse⟩ := r.course k
      exact Nat.le_trans ((r.turns k).left_le (hreading (k + 1)) hcourse.sent) ih
  -- with every turn of the listener a line less is left
  have hdrop : ∀ j, ∃ m, n ≤ m ∧ (r.state m).left + j ≤ (r.state n).left := by
    intro j
    induction j with
    | zero => exact ⟨n, Nat.le_refl n, Nat.le_refl _⟩
    | succ j ih =>
      obtain ⟨m, hnm, hm⟩ := ih
      obtain ⟨k, hmk, hturn⟩ := hattentive.listens m
      have hnk := Nat.le_trans hnm hmk
      obtain ⟨line, input, hline⟩ := hmore hreading k hnk hturn
      obtain ⟨_, _, _, _, hcourse⟩ := r.course k
      have hnext : (r.state (k + 1)).left + 1 = (r.state k).left := by
        have hafter : r.state (k + 1) = _ := (congrArg (r.state k).after hturn).trans (State.after_listens (hreading k) hline)
        unfold State.left
        rw [hafter, Service.lines_of_firstLine? hline hcourse.sent]
        dsimp only
        rw [Service.input_heed, List.length_cons]
      have hle := hfewer m k hmk
      exact ⟨k + 1, Nat.le_succ_of_le hnk, by omega⟩
  obtain ⟨m, -, hm⟩ := hdrop ((r.state n).left + 1)
  omega

/-- A service that does not read does not take it up again. -/
lemma not_reading_of_le {m : Nat} (hreads : r.phase n ≠ .reading) (hnm : n ≤ m) : r.phase m ≠ .reading :=
  keeps (P := fun s => s.service.phase ≠ .reading) (fun h hs hs' => hs (h.reads hs')) hreads hnm

/-- It stays idle once no call is under way. -/
lemma idle_of_le {m : Nat} (hreads : r.phase n ≠ .reading) (hidle : r.calls n = []) (hnm : n ≤ m) : r.calls m = [] := by
  refine (keeps (r := r) (P := fun s => s.service.phase ≠ .reading ∧ s.service.activity.calls = []) ?_ ⟨hreads, hidle⟩ hnm).2
  intro s s' turn h hs
  refine ⟨fun hs' => hs.1 (h.reads hs'), ?_⟩
  have hnumbers := h.numbers hs.1
  rw [hs.2, List.map_nil, List.subset_nil] at hnumbers
  exact List.map_eq_nil_iff.mp hnumbers

/-- Where the service does not read, all calls that are under way come to their end. -/
lemma exists_idle (hfair : r.Fair) (hreads : r.phase n ≠ .reading) : ∃ m, n ≤ m ∧ r.calls m = [] := by
  have hnever : ∀ m, n ≤ m → r.phase m ≠ .reading := fun m hnm => not_reading_of_le hreads hnm
  have hfewer : ∀ m k, n ≤ m → m ≤ k → (r.calls k).map Prod.fst ⊆ (r.calls m).map Prod.fst := by
    intro m k hnm hmk
    induction k, hmk using Nat.le_induction with
    | base => exact List.Subset.refl _
    | succ k hmk ih => exact fun number hnumber => ih ((r.turns k).numbers (hnever k (Nat.le_trans hnm hmk)) hnumber)
  have hgone : ∀ numbers : List Nat, ∃ m, n ≤ m ∧ ∀ number ∈ numbers, number ∉ (r.calls m).map Prod.fst := by
    intro numbers
    induction numbers with
    | nil => exact ⟨n, Nat.le_refl n, List.forall_mem_nil _⟩
    | cons number numbers ih =>
      obtain ⟨m, hnm, hm⟩ := ih
      have hone : ∃ k, m ≤ k ∧ number ∉ (r.calls k).map Prod.fst := by
        by_cases hhere : number ∈ (r.calls m).map Prod.fst
        · obtain ⟨c, hc, rfl⟩ := List.mem_map.mp hhere
          obtain ⟨k, hmk, hk⟩ := hfair.calls m c hc
          refine ⟨k, hmk, fun hmem => ?_⟩
          obtain ⟨c', hc', hsame⟩ := List.mem_map.mp hmem
          exact hk c' hc' hsame
        · exact ⟨m, Nat.le_refl m, hhere⟩
      obtain ⟨k, hmk, hk⟩ := hone
      refine ⟨k, Nat.le_trans hnm hmk, fun other hother => ?_⟩
      rcases List.mem_cons.mp hother with rfl | hother
      · exact hk
      · exact fun hmem => hm other hother (hfewer m k hnm hmk hmem)
  obtain ⟨m, hnm, hm⟩ := hgone ((r.calls n).map Prod.fst)
  refine ⟨m, hnm, List.eq_nil_iff_forall_not_mem.mpr fun c hc => ?_⟩
  have hmem := List.mem_map_of_mem (f := Prod.fst) hc
  exact hm c.1 (hfewer n m (Nat.le_refl n) hnm hmem) hmem

/-- A service that is told to stop comes to its end. -/
theorem ends_of_fair (hstops : Stops r.stream before last id rest) (hfair : r.Fair) :
    ∃ n fault, r.phase n = .ended fault := by
  by_contra hnever
  obtain ⟨start, harrived⟩ := hfair.arrives
  obtain ⟨n, hreads⟩ := exists_not_reading hfair.toAttentive fun hreading k hk _ =>
    exists_firstLine hstops (hreading k) (keeps arrived_of_turns harrived hk)
  have hwaits : ∀ m, n ≤ m → ∃ id, r.phase m = .waiting id := by
    intro m hnm
    have hm := not_reading_of_le hreads hnm
    cases hphase : r.phase m with
    | reading => exact absurd hphase hm
    | waiting id => exact ⟨id, rfl⟩
    | stopping id work =>
      obtain ⟨k, fault, hk⟩ := hfair.ends m id work hphase
      exact absurd ⟨k, fault, hk⟩ hnever
    | ended fault => exact absurd ⟨m, fault, hphase⟩ hnever
  obtain ⟨m, hnm, hidle⟩ := exists_idle hfair hreads
  obtain ⟨k, hmk, hturn⟩ := hfair.listens m
  have hnk := Nat.le_trans hnm hmk
  have hidle' : r.calls k = [] := by
    obtain ⟨id, hid⟩ := hwaits m hnm
    exact idle_of_le (fun hreading => nomatch hid.symm.trans hreading) hidle hmk
  obtain ⟨id, hid⟩ := hwaits k hnk
  obtain ⟨id', hid'⟩ := hwaits (k + 1) (Nat.le_succ_of_le hnk)
  have hstopping : r.phase (k + 1) = .stopping (some id) Service.endSessions :=
    (congrArg (fun turn => ((r.state k).after turn).service.phase) hturn).trans (State.after_listens_of_idle hid hidle')
  exact nomatch hid'.symm.trans hstopping

/-- At the end of a service that is told to stop, every line before the order to stop has got one reply, the order itself has
got the last one, and no other line has got any. The service comes to its end if calls do. -/
theorem one_reply_each (r : Run) (hstops : Stops r.stream before last id rest) :
    (∀ n fault, r.phase n = .ended fault →
      ∃ (answered : List (Line × Json)) (reply : Json), (answered.map Prod.fst).Perm (spoken before) ∧
        (∀ a ∈ answered, Answers a.1 a.2) ∧ Answers last reply ∧ fault = none ∧
        (r.worldAt n).replies = r.world.replies ++ answered.map Prod.snd ++ [reply]) ∧
      (r.Fair → ∃ n, r.phase n = .ended none) := by
  have hreplied : ∀ n fault, r.phase n = .ended fault → _ := fun n fault hended =>
    let ⟨_, _, _, _, hcourse⟩ := r.course n
    hcourse.replied hstops hended
  refine ⟨hreplied, fun hfair => ?_⟩
  obtain ⟨n, fault, hended⟩ := ends_of_fair hstops hfair
  obtain ⟨-, -, -, -, -, rfl, -⟩ := hreplied n fault hended
  exact ⟨n, hended⟩

/-- An order. -/
def orderLine : Line := Utf8.encode "\x7b\"id\":1,\"command\":\"debug.targets\"\x7d\n"

/-- A line that is no order. -/
def strayLine : Line := Utf8.encode "nonsense\n"

/-- The order to stop. -/
def stopLine : Line := Utf8.encode "\x7b\"id\":2,\"command\":\"bridge.shutdown\"\x7d\n"

/-- All arrives at once, the lines are taken up, and the call goes on after that. -/
def promptTurns : Nat → Turn
  | 0 => .arrives 1000
  | 5 => .call 0
  | _ => .listens

lemma discreet_promptTurns (n : Nat) (change : World → World) (hchange : promptTurns n = .aside change) (w : World) :
    Discreet w (change w) := by
  unfold promptTurns at hchange
  split at hchange <;> cases hchange

/-- The work on every command breaks down. -/
def breakingDown : Run where
  commands _ _ := .done (.aborted "panic")
  proper _ _ := trivial
  world := {}
  stream := orderLine ++ strayLine ++ stopLine
  schedule := promptTurns
  discreet := discreet_promptTurns

lemma phase_breakingDown : breakingDown.phase 12 = .ended none := Service.Phase.eq_of_outcome? (by decide +kernel)

lemma fair_breakingDown : breakingDown.Fair where
  listens n := ⟨n + 6, Nat.le_add_right n 6, rfl⟩
  arrives := ⟨1, by decide +kernel, .inr (by decide +kernel)⟩
  calls n c _ := by
    have hidle : (breakingDown.calls 12).isEmpty = true := by decide +kernel
    have hreads : breakingDown.phase 12 ≠ .reading := fun hreading => nomatch hreading.symm.trans phase_breakingDown
    refine ⟨max n 12, Nat.le_max_left n 12, fun c' hc' => ?_⟩
    rw [idle_of_le hreads (List.isEmpty_iff.mp hidle) (Nat.le_max_right n 12)] at hc'
    cases hc'
  ends _ _ _ _ := ⟨12, none, phase_breakingDown⟩

/-- Two lines and the order to stop, where the work on the command breaks down. -/
theorem one_reply_each_breakingDown :
    ∃ id, Stops breakingDown.stream [orderLine, strayLine] stopLine id [] ∧ breakingDown.Fair ∧
      ∃ n, breakingDown.phase n = .ended none ∧
        ∃ (answered : List (Line × Json)) (reply : Json), (answered.map Prod.fst).Perm (spoken [orderLine, strayLine]) ∧
          (∀ a ∈ answered, Answers a.1 a.2) ∧ Answers stopLine reply ∧
          (breakingDown.worldAt n).replies = answered.map Prod.snd ++ [reply] := by
  obtain ⟨id, hid⟩ := Option.isSome_iff_exists.mp (show (Sense.of stopLine).stop?.isSome = true by decide +kernel)
  have hstops : Stops breakingDown.stream [orderLine, strayLine] stopLine id [] :=
    ⟨by decide +kernel, by decide +kernel, Sense.eq_of_stop? hid⟩
  obtain ⟨hreplied, hends⟩ := one_reply_each breakingDown hstops
  obtain ⟨n, hended⟩ := hends fair_breakingDown
  obtain ⟨answered, reply, hperm, hanswers, hlast, -, hreplies⟩ := hreplied n none hended
  exact ⟨id, hstops, fair_breakingDown, n, hended, answered, reply, hperm, hanswers, hlast, hreplies⟩

end Onward

end Run

end Switchboard.Editor
