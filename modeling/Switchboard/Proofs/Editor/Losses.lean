import Switchboard.Proofs.Editor.Stopping
import Switchboard.Proofs.Editor.Sweeping

/-!
# The end of the input

* `Run.Answered`: every line that wants a reply has got one;
* `Whereabouts`, `Run.Kept`, `Run.shut_of_kept`: a session that nobody else takes out of its table is closed at a regular
  end;
* `Run.net_of_broken`: the listener of a service that broke off has not touched any channel;
* `Run.end_of_input`: a service that is not told to stop ends with the input, regularly unless a line is garbled; it has
  then replied to every line whose call is no longer under way, and the sessions are closed. A garbled line ends it at once.
-/

namespace Switchboard.Editor

open World (Onward)

/-! ## Sessions at the end -/

/-- Where the session of a channel is to be found, depending on what a service is at. -/
inductive Whereabouts (t : Table) (c : ChannelId) (w : World) : Service.Phase → Prop
  | reading (here : c ∈ tabled w t) : Whereabouts t c w .reading
  | waiting {id : Json} (here : c ∈ tabled w t) : Whereabouts t c w (.waiting id)
  | stopping {id : Option Json} {work : Task Wait World Unit} {stage : Stage} (watched : Watched t c stage w)
      (sweeps : work.Carries Sweeps (fun _ stage => stage = (2, [])) stage) : Whereabouts t c w (.stopping id work)
  | ended (shut : w.Shut c) : Whereabouts t c w (.ended none)
  | broken {fault : String} : Whereabouts t c w (.ended (some fault))

namespace Whereabouts

variable {t : Table} {c : ChannelId} {w w' : World} {phase : Service.Phase}

/-- Others do something, but do not take the session out of its table. -/
lemma onward (h : Whereabouts t c w phase) (hw : Onward w w') (htable : c ∈ tabled w t → c ∈ tabled w' t) :
    Whereabouts t c w' phase := by
  cases h with
  | reading here => exact .reading (htable here)
  | waiting here => exact .waiting (htable here)
  | stopping watched sweeps => exact .stopping (watched.onward hw htable) sweeps
  | ended shut => exact .ended (hw.endures.ages c shut)
  | broken => exact .broken

/-- One turn. -/
lemma turns {s s' : State} {turn : Turn} (h : Whereabouts t c s.service.world s.service.phase) (hturn : s.Turns turn s')
    (hw : Onward s.service.world s'.service.world)
    (htable : turn ≠ .listens → c ∈ tabled s.service.world t → c ∈ tabled s'.service.world t) :
    Whereabouts t c s'.service.world s'.service.phase := by
  cases hturn with
  | still | arrives | hangsUp => exact h
  | takes line rest mine reads first =>
    rw [reads] at h
    cases h with
    | reading here =>
      cases Sense.of line with
      | blank | unreadable | order =>
        show Whereabouts t c _ s.service.phase
        rw [reads]
        exact .reading here
      | garbled => exact .broken
      | stop id => exact .waiting here
  | quits mine reads nothing finished =>
    rw [reads] at h
    cases h with
    | reading here => exact .stopping (.start here) carries_endSessions
  | stops id mine waits idle =>
    rw [waits] at h
    cases h with
    | waiting here => exact .stopping (.start here) carries_endSessions
  | ends id work work' w mine phase tick =>
    rw [phase] at h
    cases h with
    | stopping watched sweeps =>
      obtain ⟨stage, hchange, hrest⟩ := sweeps.tick tick
      rcases hchange with hsweeps | ⟨rfl, rfl⟩
      · exact .stopping (watched.sweeps hsweeps) hrest
      · exact .stopping watched hrest
  | concludes id u mine phase =>
    rw [phase] at h
    cases h with
    | stopping watched sweeps =>
      obtain rfl := sweeps
      rw [Service.phase_conclude]
      exact .ended (hw.endures.ages c watched.shut)
  | calls number a other step => exact h.onward hw (htable other)
  | aside w other discreet => exact h.onward hw (htable other)

end Whereabouts

namespace Run

variable {r : Run} {t : Table} {c : ChannelId} {m n : Nat}

/-- The session of a channel is in its table, and in the time up to `n` nobody but the listener takes it out. -/
structure Kept (r : Run) (t : Table) (c : ChannelId) (m n : Nat) : Prop where
  here : c ∈ tabled (r.worldAt m) t
  others : ∀ k, m ≤ k → k < n → r.schedule k ≠ .listens → c ∈ tabled (r.worldAt k) t → c ∈ tabled (r.worldAt (k + 1)) t

/-- A service that reads is not at its end yet. -/
lemma le_of_reading (hm : r.phase m = .reading) {fault : Option String} (hn : r.phase n = .ended fault) : m ≤ n := by
  by_contra hlt
  exact not_reading_of_le (fun hreading => nomatch hn.symm.trans hreading) (Nat.le_of_not_le hlt) hm

/-- A session that is in its table while the service reads is closed at a regular end, if nobody else takes it out. -/
theorem shut_of_kept (hm : r.phase m = .reading) (hkept : r.Kept t c m n) (hn : r.phase n = .ended none) :
    (r.worldAt n).Shut c := by
  have hwhere : ∀ k, m ≤ k → k ≤ n → Whereabouts t c (r.worldAt k) (r.phase k) := by
    intro k hmk
    induction k, hmk using Nat.le_induction with
    | base =>
      rw [hm]
      exact fun _ => .reading hkept.here
    | succ k hmk ih => exact fun hkn => (ih (Nat.le_of_succ_le hkn)).turns (r.turns k) (r.onward k) (hkept.others k hmk hkn)
  have hend := hwhere n (le_of_reading hm hn) (Nat.le_refl n)
  rw [hn] at hend
  cases hend with
  | ended shut => exact shut

end Run

/-! ## Services that break off -/

/-- The service reads no more, and it did not break off. -/
def Service.Phase.isStopping : Service.Phase → Bool
  | .waiting _ | .stopping _ _ | .ended none => true
  | .reading | .ended (some _) => false

namespace State.Turns

variable {s s' : State} {turn : Turn}

/-- A service that stops does not break off. -/
lemma isStopping (h : s.Turns turn s') (hs : s.service.phase.isStopping = true) : s'.service.phase.isStopping = true := by
  cases h with
  | takes line rest mine reads first =>
    rw [reads] at hs
    cases hs
  | quits | stops | ends => rfl
  | concludes id u mine here =>
    rw [Service.phase_conclude]
    rfl
  | still | arrives | hangsUp | calls | aside => exact hs

/-- A service that is at its end stays there. -/
lemma ended (h : s.Turns turn s') {fault : Option String} (hs : s.service.phase = .ended fault) :
    s'.service.phase = .ended fault := by
  cases h with
  | takes line rest mine reads first => exact nomatch reads.symm.trans hs
  | quits mine reads nothing finished => exact nomatch reads.symm.trans hs
  | stops id mine waits idle => exact nomatch waits.symm.trans hs
  | ends id work work' w mine here tick => exact nomatch here.symm.trans hs
  | concludes id u mine here => exact nomatch here.symm.trans hs
  | still | arrives | hangsUp | calls | aside => exact hs

end State.Turns

namespace Run

variable {r : Run} {m n : Nat}

/-- The listener of a service that broke off has not touched any channel. -/
theorem net_of_broken {fault : String} (hended : r.phase n = .ended (some fault)) (hmine : r.schedule m = .listens) :
    (r.worldAt (m + 1)).net = (r.worldAt m).net := by
  have hstops : ∀ id work, r.phase m ≠ .stopping id work := by
    intro id work hphase
    rcases Nat.le_total m n with hmn | hnm
    · have hstays : (r.phase n).isStopping = true :=
        keeps (P := fun s => s.service.phase.isStopping = true) (fun h => h.isStopping)
          (show (r.phase m).isStopping = true by rw [hphase]; rfl) hmn
      rw [hended] at hstays
      cases hstays
    · have hstays : r.phase m = .ended (some fault) :=
        keeps (P := fun s => s.service.phase = .ended (some fault)) (fun h => h.ended) hended hnm
      exact nomatch hphase.symm.trans hstays
  have hturn := r.turns m
  rw [hmine] at hturn
  unfold worldAt
  generalize r.state (m + 1) = s' at hturn
  cases hturn with
  | takes line rest mine reads first => cases Sense.of line <;> rfl
  | ends id work work' w mine here tick => exact absurd here (hstops id work)
  | concludes id u mine here => exact absurd here (hstops id (.done u))
  | calls number a other step => exact absurd rfl other
  | aside w other discreet => exact absurd rfl other
  | still | arrives | hangsUp | quits | stops => rfl

/-! ## Replies at the end -/

/-- Every line that wants a reply has got one. -/
def Answered (r : Run) (n : Nat) : Prop :=
  ∃ answered : List (Line × Json), (answered.map Prod.fst).Perm (spoken (lines r.stream)) ∧
    (∀ a ∈ answered, Answers a.1 a.2) ∧ (r.worldAt n).replies = r.world.replies ++ answered.map Prod.snd

/-- A service that is not told to stop took up all lines, or found a garbled one. -/
lemma parts_of_ended (hstop : ∀ line ∈ lines r.stream, ∀ id, Sense.of line ≠ .stop id) {fault : Option String}
    (hended : r.phase n = .ended fault) :
    ∃ taken left answered under, lines r.stream = taken ++ left ∧ (∀ line ∈ taken, (Sense.of line).isPassing = true) ∧
      Ledger r.world.replies (r.worldAt n).replies (r.calls n) taken answered under ∧
      (fault = none ∧ left = [] ∨
        fault = some Service.notText ∧ ∃ line rest, left = line :: rest ∧ Sense.of line = .garbled) := by
  obtain ⟨taken, left, replies, final, hcourse⟩ := r.course n
  obtain ⟨answered, under, hledger⟩ := hcourse.ledger
  have htold := hcourse.told
  have hspot := hcourse.spot
  rw [show (r.state n).service.phase = .ended fault from hended] at hspot
  have hsame : final = [] → Ledger r.world.replies (r.worldAt n).replies (r.calls n) taken answered under := by
    rintro rfl
    rw [List.append_nil] at htold
    exact htold ▸ hledger
  refine ⟨taken, left, answered, under, hcourse.parts, hcourse.passing, ?_⟩
  cases hspot with
  | @stopped id line rest stop idle =>
    exact absurd stop (hstop line (hcourse.parts ▸ List.mem_append_right _ List.mem_cons_self) id)
  | quit => exact ⟨hsame rfl, .inl ⟨rfl, rfl⟩⟩
  | broken garbled => exact ⟨hsame rfl, .inr ⟨rfl, _, _, rfl, garbled⟩⟩

section Ended

variable (hstop : ∀ line ∈ lines r.stream, ∀ id, Sense.of line ≠ .stop id) {fault : Option String}
  (hended : r.phase n = .ended fault)

include hstop hended

/-- It ends regularly unless a line is garbled. -/
lemma regular_iff : fault = none ↔ ∀ line ∈ lines r.stream, Sense.of line ≠ .garbled := by
  obtain ⟨taken, left, answered, under, hparts, hpassing, -, hends⟩ := parts_of_ended hstop hended
  rcases hends with ⟨rfl, rfl⟩ | ⟨rfl, line, rest, rfl, hsense⟩
  · rw [hparts, List.append_nil]
    refine iff_of_true rfl fun line hline hsense => ?_
    have hpasses := hpassing line hline
    rw [hsense] at hpasses
    cases hpasses
  · refine iff_of_false nofun fun hnone => hnone line ?_ hsense
    rw [hparts]
    exact List.mem_append_right _ List.mem_cons_self

/-- Each line before the first garbled one has got one reply, or its call is under way. -/
lemma replied_of_ended : ∃ (answered : List (Line × Json)) (under : List Line), under.length = (r.calls n).length ∧
    (answered.map Prod.fst ++ under).Perm (spoken ((lines r.stream).takeWhile fun line => (Sense.of line).isPassing)) ∧
    (∀ a ∈ answered, Answers a.1 a.2) ∧ (r.worldAt n).replies = r.world.replies ++ answered.map Prod.snd := by
  obtain ⟨taken, left, answered, under, hparts, hpassing, hledger, hends⟩ := parts_of_ended hstop hended
  have htaken : (lines r.stream).takeWhile (fun line => (Sense.of line).isPassing) = taken := by
    rw [hparts]
    rcases hends with ⟨-, rfl⟩ | ⟨-, line, rest, rfl, hsense⟩
    · rw [List.append_nil, List.takeWhile_eq_self_iff.mpr hpassing]
    · exact takeWhile_parts hpassing (by rw [hsense]; rfl)
  rw [htaken]
  exact ⟨answered, under, hledger.calls.length_eq, hledger.lines, hledger.answers, hledger.replies⟩

/-- Every line has got its reply if the end was regular and no call is under way, and only then. -/
lemma answered_iff : r.Answered n ↔ fault = none ∧ r.calls n = [] := by
  obtain ⟨taken, left, answered, under, hparts, -, hledger, hends⟩ := parts_of_ended hstop hended
  have hunder : under.length = (r.calls n).length := hledger.calls.length_eq
  constructor
  · rintro ⟨answered', hlines', -, hreplies'⟩
    -- as many lines were answered as want a reply, so none is left and no call is under way
    have hcount : answered.length = (spoken (lines r.stream)).length := by
      have hsame := congrArg List.length (List.append_cancel_left (hledger.replies.symm.trans hreplies'))
      rw [List.length_map, List.length_map] at hsame
      rw [hsame, ← hlines'.length_eq, List.length_map]
    have htaken := hledger.lines.length_eq
    rw [List.length_append, List.length_map, spoken] at htaken
    rw [hparts, spoken, List.filter_append, List.length_append] at hcount
    rcases hends with ⟨rfl, rfl⟩ | ⟨rfl, line, rest, rfl, hsense⟩
    · refine ⟨rfl, List.eq_nil_of_length_eq_zero ?_⟩
      rw [← hunder]
      rw [List.filter_nil, List.length_nil] at hcount
      omega
    · rw [List.filter_cons_of_pos (by rw [hsense]; rfl), List.length_cons] at hcount
      omega
  · rintro ⟨rfl, hidle⟩
    rcases hends with ⟨-, rfl⟩ | ⟨hfault, -⟩
    · obtain rfl : under = [] := List.eq_nil_of_length_eq_zero (by rw [hunder, hidle]; rfl)
      refine ⟨answered, ?_, hledger.answers, hledger.replies⟩
      rw [hparts, List.append_nil]
      have hlines := hledger.lines
      rw [List.append_nil] at hlines
      exact hlines
    · cases hfault

end Ended

/-- A service that is not told to stop comes to its end with the input. -/
lemma ends_of_input (hstop : ∀ line ∈ lines r.stream, ∀ id, Sense.of line ≠ .stop id) (hattentive : r.Attentive)
    (hinput : ∃ n, (r.state n).service.inputEnded = true) : ∃ n fault, r.phase n = .ended fault := by
  obtain ⟨start, hinput⟩ := hinput
  obtain ⟨n, hreads⟩ : ∃ n, r.phase n ≠ .reading := by
    refine exists_not_reading (n := start) hattentive fun hreading k hk hturn => ?_
    cases hline : (r.state k).service.firstLine? with
    | some found => exact ⟨found.1, found.2, rfl⟩
    | none =>
      have hended := keeps (P := fun s => s.service.inputEnded = true) (fun h => h.inputEnded) hinput hk
      have hstopping : r.phase (k + 1) = .stopping none Service.endSessions :=
        (congrArg (fun turn => ((r.state k).after turn).service.phase) hturn).trans
          (State.after_listens_of_nothing (hreading k) hline hended)
      exact nomatch (hreading (k + 1)).symm.trans hstopping
  cases hphase : r.phase n with
  | reading => exact absurd hphase hreads
  | waiting id =>
    obtain ⟨_, _, _, _, hcourse⟩ := r.course n
    have hspot := hcourse.spot
    rw [show (r.state n).service.phase = .waiting id from hphase] at hspot
    cases hspot with
    | @waiting _ line _ stop =>
      exact absurd stop (hstop line (hcourse.parts ▸ List.mem_append_right _ List.mem_cons_self) id)
  | stopping id work => exact hattentive.ends n id work hphase
  | ended fault => exact ⟨n, fault, hphase⟩

/-- A service that is not told to stop comes to its end with the input, regularly if no line is garbled. Each line that it
took up has then got one reply, apart from those whose call is under way, and the sessions are closed. At a garbled line it
ends at once, and neither replies to this one and those after it nor closes anything. -/
theorem end_of_input (r : Run) (hstop : ∀ line ∈ lines r.stream, ∀ id, Sense.of line ≠ .stop id) :
    (∀ n fault, r.phase n = .ended fault →
      (fault = none ↔ ∀ line ∈ lines r.stream, Sense.of line ≠ .garbled) ∧
        (∃ (answered : List (Line × Json)) (under : List Line), under.length = (r.calls n).length ∧
          (answered.map Prod.fst ++ under).Perm
            (spoken ((lines r.stream).takeWhile fun line => (Sense.of line).isPassing)) ∧
          (∀ a ∈ answered, Answers a.1 a.2) ∧ (r.worldAt n).replies = r.world.replies ++ answered.map Prod.snd) ∧
        (r.Answered n ↔ fault = none ∧ r.calls n = []) ∧
        (fault = none → ∀ t c m, r.phase m = .reading → r.Kept t c m n → (r.worldAt n).Shut c) ∧
        (fault ≠ none → ∀ m, r.schedule m = .listens → (r.worldAt (m + 1)).net = (r.worldAt m).net)) ∧
      (r.Attentive → (∃ n, (r.state n).service.inputEnded = true) → ∃ n fault, r.phase n = .ended fault) := by
  refine ⟨fun n fault hended => ⟨regular_iff hstop hended, replied_of_ended hstop hended, answered_iff hstop hended, ?_, ?_⟩,
    ends_of_input hstop⟩
  · rintro rfl t c m hm hkept
    exact shut_of_kept hm hkept hended
  · intro hfault m hmine
    obtain ⟨message, rfl⟩ := Option.ne_none_iff_exists'.mp hfault
    exact net_of_broken hended hmine

/-- An order comes and the input ends. The call for the order never goes on. -/
def cutShort : Run where
  commands := .all
  proper := Commands.proper_all
  world := { net := { channels := [{}] }, analysis := { sessions := [default], table := [(("java", ⟨"/"⟩), 0)] } }
  stream := orderLine
  schedule
    | 0 => .arrives 1000
    | 1 => .hangsUp
    | _ => .listens
  discreet n change hchange := by
    split at hchange <;> cases hchange

/-- A line is no UTF-8, and an order follows. -/
def garbledFirst : Run where
  commands := .all
  proper := Commands.proper_all
  world := {}
  stream := [0xFF, 0x0A] ++ orderLine
  schedule := promptTurns
  discreet := discreet_promptTurns

lemma kept_cutShort : cutShort.Kept .analysis 0 0 20 where
  here := by decide +kernel
  others k _ _ hother := by
    match k with
    | 0 | 1 => exact fun _ => by decide +kernel
    | _ + 2 => exact absurd rfl hother

lemma phase_cutShort : cutShort.phase 20 = .ended none := Service.Phase.eq_of_outcome? (by decide +kernel)

lemma attentive_cutShort : cutShort.Attentive where
  listens n := ⟨n + 2, Nat.le_add_right n 2, rfl⟩
  ends _ _ _ _ := ⟨20, none, phase_cutShort⟩

/-- A reply is lost where the input ends during a call, though the session is closed; all is lost where a line is no UTF-8. -/
theorem end_of_input_losses :
    ((∃ n fault, cutShort.phase n = .ended fault) ∧
        cutShort.phase 20 = .ended none ∧ ¬ cutShort.Answered 20 ∧ (cutShort.worldAt 20).Shut 0) ∧
      garbledFirst.phase 2 = .ended (some Service.notText) ∧ ¬ garbledFirst.Answered 2 := by
  have hgarbled : garbledFirst.phase 2 = .ended (some Service.notText) := Service.Phase.eq_of_outcome? (by decide +kernel)
  have hstops : ∀ {r : Run}, ((lines r.stream).all fun line => (Sense.of line).stop?.isNone) = true →
      ∀ line ∈ lines r.stream, ∀ id, Sense.of line ≠ .stop id :=
    fun hall line hline => Sense.ne_stop (List.all_eq_true.mp hall line hline)
  obtain ⟨hcut, hends⟩ := end_of_input cutShort (hstops (by decide +kernel))
  obtain ⟨-, -, hanswered, hshut, -⟩ := hcut 20 none phase_cutShort
  obtain ⟨-, -, hunanswered, -⟩ := (end_of_input garbledFirst (hstops (by decide +kernel))).1 2 _ hgarbled
  refine ⟨⟨hends attentive_cutShort ⟨2, by decide +kernel⟩, phase_cutShort, fun hall => ?_,
    hshut rfl .analysis 0 0 rfl kept_cutShort⟩, hgarbled, fun hall => ?_⟩
  · have hunder : (cutShort.calls 20).isEmpty = false := by decide +kernel
    rw [(hanswered.mp hall).2] at hunder
    cases hunder
  · exact nomatch (hunanswered.mp hall).1

end Run

end Switchboard.Editor
