import Switchboard.Proofs.Debug.Bustle
import Switchboard.Proofs.Debug.Errands
import Switchboard.Proofs.Debug.Handshake

/-!
# What an adapter is asked, and when

The handling of one `initialized` in a run of all that goes on.

* `Handling`: a run, and the event in it;
* `Handling.Reaches`: how far a request of the handling got by some time;
* `Dealing`, `Handling.Dealt`: a request that was issued and, perhaps, answered or failed;
* `Handling.Orderly`: all requests by some time, in order, one at a time, and after them the session is ready;
* `Handling.Kept`: what is kept along the run, from place to place.
-/

namespace Switchboard.Debug.Handshake

open Breakpoint (Catalog)
open Bustle (Turn play)
open Network (Request)
open Network.Request (Stage)

/-! ## The handling of one event -/

/-- An adapter says that it is initialized, in a run of all that goes on. -/
structure Handling where
  start : World
  schedule : Nat → Turn
  /-- At first entries of both catalogs are in order of their ids. -/
  listed : start.Listed
  session : SessionId
  body : Json
  /-- When the event is taken up. -/
  begun : Nat
  begins : schedule begun = .begins (.event session ⟨"initialized", body⟩)
  present : session < (play start schedule begun).world.debugger.sessions.length

namespace Handling

variable (h : Handling)

/-- All that goes on at a time. -/
def bustle (n : Nat) : Bustle := play h.start h.schedule n

/-- The world at a time. -/
def world (n : Nat) : World := (h.bustle n).world

/-- Which of the requests of the run the handling is. -/
def call : Nat := (h.bustle h.begun).calls.length

/-- What is left of the handling at a time. -/
def left (n : Nat) : Task Wait World Unit := (h.bustle n).calls.getD h.call (.done ())

/-- The session as it was when the event was taken up. -/
def own : Session := (h.world h.begun).debugger.session h.session

/-- It is the turn of the handling. -/
def HasTurn (m : Nat) : Prop := h.begun < m ∧ h.schedule m = .step h.call

/-- The handling issues a request. -/
def Issues (m : Nat) : Prop := h.HasTurn m ∧ Starts (h.left m)

/-- The entry of the adapter asks for it, or says nothing and the features of the session at that time do. -/
def Wants (m : Nat) : Bool := h.own.wantsConfigurationDone ((h.world m).channel h.own.channel).features

/-- In a turn a channel becomes ready. -/
def Readies (m : Nat) (c : ChannelId) : Prop :=
  ((h.world m).channel c).phase ≠ .ready ∧ ((h.world (m + 1)).channel c).phase = .ready

/-- How far a request of the handling got that was issued at some time. -/
inductive Reaches (r : Request) (k : Except Channel.Fault Json → Task Wait World Unit) (issued : Nat) :
    Nat → Stage → Prop
  | issue (turn : h.HasTurn issued)
      (left : h.left issued =
        (World.onNet (Network.requestUntil h.own.channel r.method r.params r.latest).outcome).andThen k) :
    Reaches r k issued issued .starting
  | rests {m : Nat} {stage : Stage} (before : Reaches r k issued m stage) (same : h.left (m + 1) = h.left m) :
    Reaches r k issued (m + 1) stage
  | goes {m : Nat} {stage stage' : Stage} (before : Reaches r k issued m stage) (turn : h.HasTurn m)
      (next : stage.next h.own.channel r (h.world m).net = some (stage', (h.world (m + 1)).net))
      (left : h.left (m + 1) = (World.onNet (stage'.work h.own.channel r)).andThen k) :
    Reaches r k issued (m + 1) stage'

end Handling

/-- A request of the handling. -/
structure Dealing where
  item : Item
  arguments : Json
  /-- When it was issued. -/
  issued : Nat
  /-- When it had been answered or had failed, if it has. -/
  settled : Option Nat := none

/-- The request had been answered or had failed by some time. -/
def Dealing.SettledBy (x : Dealing) (m : Nat) : Prop := ∃ e ∈ x.settled, e ≤ m

lemma Dealing.SettledBy.later {x : Dealing} {m n : Nat} (hx : x.SettledBy m) (hmn : m ≤ n) : x.SettledBy n := by
  obtain ⟨e, he, hem⟩ := hx
  exact ⟨e, he, Nat.le_trans hem hmn⟩

namespace Handling

variable (h : Handling)

/-- By a time a request was issued, and it has ended or it is under way. -/
structure Dealt (n : Nat) (x : Dealing) : Prop where
  suits : x.item.Suits x.arguments
  goes : ∃ k, match x.settled with
    | some e => e ≤ n ∧ ∃ outcome, h.Reaches (x.item.request x.arguments) k x.issued e (.ended outcome)
    | none => ∃ stage, (∀ outcome, stage ≠ .ended outcome) ∧ h.Reaches (x.item.request x.arguments) k x.issued n stage

/-- At a time a request is under way, and it waits for what was not answered yet. -/
structure Awaits (n : Nat) (x : Dealing) : Prop where
  unsettled : x.settled = none
  reaches : ∃ k id ticket limit deadline,
    h.Reaches (x.item.request x.arguments) k x.issued n (.waiting id ticket limit deadline) ∧
      World.holds (.answer h.own.channel ticket deadline) (h.world n) = false

/-- The files that concern the session when the handling begins: by its first breakpoint the language of the file is the
one of the session, or not known. -/
def Concerns (began : Nat) (path : Path) : Prop :=
  ∃ b f, (h.world began).debugger.breakpoints.IsFirst b f ∧ f.2.same path = true ∧
    Running.Admits (h.world began).debugger h.own.language f

/-- All requests of the handling by some time. It began at a time, listed files then, and decided at a time whether the
adapter is to hear of the end. -/
structure Orderly (n began : Nat) (files : List Path) (decided : Nat) (dealings : List Dealing) : Prop where
  /-- It begins in its first turn. -/
  first : h.begun < began ∧ began ≤ n ∧ (began < n → h.HasTurn began) ∧ ∀ m < began, ¬ h.HasTurn m
  /-- No path is listed twice. -/
  distinct : files.Pairwise fun p q => p.same q = false
  /-- The files that concern the session are listed, and no others. -/
  concerns : ∀ path, (∃ p ∈ files, p.same path = true) ↔ h.Concerns began path
  /-- What was asked is what is to be asked, as far as it got. -/
  items : dealings.map (·.item) <+: agenda files (h.Wants decided)
  dealt : ∀ x ∈ dealings, h.Dealt n x
  /-- Nothing else was asked. -/
  issues : ∀ m < n, h.Issues m ↔ ∃ x ∈ dealings, x.issued = m
  /-- Each request is issued when the ones before it have been answered or have failed. -/
  waits : dealings.Pairwise fun x y => x.SettledBy y.issued
  /-- Whether the adapter is to hear of the end is decided after everything else. -/
  decides : ∀ x ∈ dealings, (x.item = .done → decided < x.issued) ∧ (x.item ≠ .done → ∀ e ∈ x.settled, e ≤ decided)
  /-- The session becomes ready in the last turn, when all requests have been answered or have failed. -/
  readies : ∀ m < n, h.HasTurn m → ∀ c, h.Readies m c →
    c = h.own.channel ∧ h.left (m + 1) = .done () ∧ ∀ x ∈ dealings, x.SettledBy m
  /-- What is closed stays closed. -/
  closed : ∀ m < n, h.HasTurn m → ∀ c, ((h.world m).channel c).phase = .closed →
    ((h.world (m + 1)).channel c).phase = .closed
  /-- The handling can always go on, unless it has ended or waits for an answer. -/
  goesOn : (h.left n).tick? World.holds (h.world n) = none → h.left n = .done () ∨ ∃ x ∈ dealings, h.Awaits n x
  /-- The handling ends when all was asked, and has made the session ready unless that was closed. -/
  ends : h.left n = .done () → dealings.map (·.item) = agenda files (h.Wants decided) ∧
    ∃ m < n, h.HasTurn m ∧ h.world (m + 1) = readied h.own.channel (h.world m) ∧ ∀ x ∈ dealings, x.SettledBy m

/-! ## Turns -/

section Turns

variable {h} {n : Nat}

lemma bustle_succ (n : Nat) : h.bustle (n + 1) = (h.bustle n).after (h.schedule n) := rfl

lemma left_of_getElem? {work : Task Wait World Unit} (hi : (h.bustle n).calls[h.call]? = some work) :
    h.left n = work := by
  rw [left, List.getD_eq_getElem?_getD, hi]
  rfl

lemma getElem?_begun : (h.bustle (h.begun + 1)).calls[h.call]? = some (Running.configure h.session) := by
  rw [bustle_succ, h.begins]
  show ((h.bustle h.begun).calls ++ [Running.handleEvent h.session ⟨"initialized", h.body⟩])[h.call]? = _
  rw [call, List.getElem?_append_right (Nat.le_refl _), Nat.sub_self]
  rfl

/-- The turn of the handling: it makes one step, or it cannot. -/
lemma turn_cases {work : Task Wait World Unit} (hi : (h.bustle n).calls[h.call]? = some work)
    (hturn : h.schedule n = .step h.call) :
    (∃ work' w', work.tick? World.holds (h.world n) = some (work', w') ∧
      (h.bustle (n + 1)).calls[h.call]? = some work' ∧ h.world (n + 1) = w') ∨
    work.tick? World.holds (h.world n) = none ∧ h.bustle (n + 1) = h.bustle n := by
  have hafter : h.bustle (n + 1) = (h.bustle n).after (.step h.call) := by rw [bustle_succ, hturn]
  unfold Bustle.after at hafter
  simp only [hi] at hafter
  cases htick : work.tick? World.holds (h.world n) with
  | none =>
    right
    have htick' : work.tick? World.holds (h.bustle n).world = none := htick
    simp only [htick'] at hafter
    exact ⟨rfl, hafter⟩
  | some r =>
    left
    have htick' : work.tick? World.holds (h.bustle n).world = some r := htick
    simp only [htick'] at hafter
    refine ⟨r.1, r.2, rfl, ?_, ?_⟩
    · rw [hafter, List.getElem?_set_self (List.getElem?_eq_some_iff.mp hi).1]
    · rw [world, hafter]

lemma getElem?_calls (hn : h.begun < n) : (h.bustle n).calls[h.call]? = some (h.left n) := by
  -- once taken up a request stays on the list: turns of others leave it alone, its own put it back
  have hsome : ∃ work, (h.bustle n).calls[h.call]? = some work := by
    induction hn with
    | refl => exact ⟨_, getElem?_begun⟩
    | @step m _ ih =>
      obtain ⟨work, hi⟩ := ih
      by_cases hturn : h.schedule m = .step h.call
      · rcases turn_cases hi hturn with ⟨work', w', -, hi', -⟩ | ⟨-, hsame⟩
        · exact ⟨work', hi'⟩
        · exact ⟨work, by rw [hsame]; exact hi⟩
      · exact ⟨work, Bustle.calls_after hturn hi⟩
  obtain ⟨work, hi⟩ := hsome
  rw [hi, left_of_getElem? hi]

lemma left_begun : h.left (h.begun + 1) = Running.configure h.session := left_of_getElem? getElem?_begun

/-- The handling makes a step in its turn, or what is left of it stays the same, and in its turn so does the world. -/
lemma left_cases (hn : h.begun < n) :
    (h.HasTurn n ∧ (h.left n).tick? World.holds (h.world n) = some (h.left (n + 1), h.world (n + 1))) ∨
    h.left (n + 1) = h.left n ∧ ((¬ h.HasTurn n) ∨ h.world (n + 1) = h.world n ∧
      (h.left n).tick? World.holds (h.world n) = none) := by
  have hi := getElem?_calls hn
  by_cases hturn : h.schedule n = .step h.call
  · rcases turn_cases hi hturn with ⟨work', w', htick, hi', rfl⟩ | ⟨htick, hsame⟩
    · left
      rw [left_of_getElem? hi']
      exact ⟨⟨hn, hturn⟩, htick⟩
    · right
      rw [left, hsame, world, hsame]
      exact ⟨rfl, .inr ⟨rfl, htick⟩⟩
  · right
    exact ⟨left_of_getElem? (Bustle.calls_after hturn hi), .inl fun hhas => hturn hhas.2⟩

/-- The session stays the same, over the same channel. -/
lemma session_eq (hn : h.begun ≤ n) : ((h.world n).debugger.session h.session).unserved = h.own.unserved :=
  ((Bustle.informs_play h.start h.schedule hn).stays.session h.present).2

lemma listed_world (n : Nat) : (h.world n).Listed :=
  (Bustle.informs_play h.start h.schedule (Nat.zero_le n)).listed h.listed

end Turns

/-! ## The record of requests -/

/-- The requests are all that were issued by some time, and each was issued when the ones before it had ended. -/
structure Ledger (n : Nat) (dealings : List Dealing) : Prop where
  early : ∀ x ∈ dealings, x.issued < n
  issues : ∀ m < n, h.Issues m ↔ ∃ x ∈ dealings, x.issued = m
  waits : dealings.Pairwise fun x y => x.SettledBy y.issued

namespace Ledger

variable {h} {n : Nat} {dealings : List Dealing}

/-- Nothing is issued. -/
lemma succ (hl : h.Ledger n dealings) (hno : ¬ h.Issues n) : h.Ledger (n + 1) dealings where
  early x hx := Nat.lt_succ_of_lt (hl.early x hx)
  issues m hm := by
    rcases Nat.lt_succ_iff_lt_or_eq.mp hm with hm | rfl
    · exact hl.issues m hm
    · refine ⟨fun hi => absurd hi hno, ?_⟩
      rintro ⟨x, hx, rfl⟩
      exact absurd (hl.early x hx) (Nat.lt_irrefl _)
  waits := hl.waits

/-- A request is issued when all before it have ended. -/
lemma add (hl : h.Ledger n dealings) (hsettled : ∀ x ∈ dealings, x.SettledBy n) (hi : h.Issues n) {x : Dealing}
    (hx : x.issued = n) : h.Ledger (n + 1) (dealings ++ [x]) where
  early y hy := by
    rcases List.mem_append.mp hy with hy | hy
    · exact Nat.lt_succ_of_lt (hl.early y hy)
    · obtain rfl := List.mem_singleton.mp hy
      omega
  issues m hm := by
    rcases Nat.lt_succ_iff_lt_or_eq.mp hm with hm | rfl
    · rw [hl.issues m hm]
      constructor
      · rintro ⟨y, hy, rfl⟩
        exact ⟨y, List.mem_append_left _ hy, rfl⟩
      · rintro ⟨y, hy, rfl⟩
        rcases List.mem_append.mp hy with hy | hy
        · exact ⟨y, hy, rfl⟩
        · obtain rfl := List.mem_singleton.mp hy
          omega
    · exact ⟨fun _ => ⟨x, List.mem_append_right _ (List.mem_singleton_self x), hx⟩, fun _ => hi⟩
  waits := by
    refine List.pairwise_append.mpr ⟨hl.waits, List.pairwise_singleton _ x, ?_⟩
    intro y hy z hz
    obtain rfl := List.mem_singleton.mp hz
    rw [hx]
    exact hsettled y hy

/-- The last request ends. -/
lemma settle {x y : Dealing} (hl : h.Ledger n (dealings ++ [x])) (hy : y.issued = x.issued) :
    h.Ledger n (dealings ++ [y]) where
  early z hz := by
    rcases List.mem_append.mp hz with hz | hz
    · exact hl.early z (List.mem_append_left _ hz)
    · obtain rfl := List.mem_singleton.mp hz
      rw [hy]
      exact hl.early x (List.mem_append_right _ (List.mem_singleton_self x))
  issues m hm := by
    rw [hl.issues m hm]
    simp only [List.mem_append, List.mem_singleton, or_and_right, exists_or, exists_eq_left, hy]
  waits := by
    obtain ⟨hpast, -, hlast⟩ := List.pairwise_append.mp hl.waits
    refine List.pairwise_append.mpr ⟨hpast, List.pairwise_singleton _ y, ?_⟩
    intro z hz v hv
    obtain rfl := List.mem_singleton.mp hv
    rw [hy]
    exact hlast z hz x (List.mem_singleton_self x)

end Ledger

/-! ## The plan -/

/-- What was asked and what is yet to be asked is all that is to be asked. -/
structure Plan (n : Nat) (files : List Path) (decided : Option Nat) (past : List Dealing) (asked : Option Dealing)
    (place : Place) : Prop where
  items : ∀ wanted, (∀ m ∈ decided, wanted = h.Wants m) →
    past.map (·.item) ++ place.upcoming wanted = agenda files wanted
  late : place.isLate = decided.isSome
  decides : ∀ m ∈ decided, m < n ∧ ∀ x ∈ past ++ asked.toList,
    (x.item = .done → m < x.issued) ∧ (x.item ≠ .done → ∀ e ∈ x.settled, e ≤ m)

namespace Plan

variable {h} {n : Nat} {files : List Path} {decided : Option Nat} {past : List Dealing} {asked : Option Dealing}
  {place : Place}

lemma succ (hplan : h.Plan n files decided past asked place) : h.Plan (n + 1) files decided past asked place where
  items := hplan.items
  late := hplan.late
  decides m hm := ⟨Nat.lt_succ_of_lt (hplan.decides m hm).1, (hplan.decides m hm).2⟩

/-- Until it is decided whether the adapter is to hear of the end it hears of nothing of the kind. -/
lemma item_ne_done (hplan : h.Plan n files none past asked place) {x : Dealing} (hx : x ∈ past) : x.item ≠ .done := by
  have hmem : x.item ∈ agenda files false := by
    rw [← hplan.items false nofun]
    exact List.mem_append_left _ (List.mem_map_of_mem hx)
  intro hdone
  rw [hdone, agenda, List.mem_append, List.mem_cons, List.mem_map] at hmem
  rcases hmem with ⟨path, -, hpath⟩ | hexceptions | hnil
  · cases hpath
  · cases hexceptions
  · cases hnil

/-- A step between requests. -/
lemma step_between {p : Pause} {place' : Place} (hplan : h.Plan n files decided past none (.between p))
    (hp : p.IsOf h.own) (hn : h.begun ≤ n) (hsettled : ∀ x ∈ past, ∀ e ∈ x.settled, e ≤ n)
    (hnext : p.next h.session (h.world n) = some (place', h.world (n + 1))) :
    ∃ decided', h.Plan (n + 1) files decided' past none place' := by
  rcases (upcoming_of_next hp (session_eq hn) hnext).2 with ⟨hlate, hsame⟩ | ⟨hearly, hlate, hsame⟩
  · refine ⟨decided, ?_, hlate.trans hplan.late, hplan.succ.decides⟩
    intro wanted hwanted
    rw [hsame]
    exact hplan.items wanted hwanted
  · -- this is the step that decides, and it is made once
    have hundecided : decided = none := by
      have hnone : decided.isSome = false := hplan.late.symm.trans hearly
      simpa using hnone
    subst hundecided
    refine ⟨some n, ?_, hlate, ?_⟩
    · intro wanted hwanted
      rw [hsame wanted (hwanted n rfl)]
      exact hplan.items wanted nofun
    · rintro m ⟨⟩
      refine ⟨Nat.lt_succ_self n, ?_⟩
      intro x hx
      rw [Option.toList_none, List.append_nil] at hx
      exact ⟨fun hdone => absurd hdone (hplan.item_ne_done hx), fun _ => hsettled x hx⟩

variable {m : Matter} {c : ChannelId} {arguments : Json} {stage : Stage}

/-- A request is issued. -/
lemma issue (hplan : h.Plan n files decided past none (.asking m c arguments stage)) :
    h.Plan (n + 1) files decided past (some { item := m.item, arguments, issued := n })
      (.asking m c arguments stage) where
  items := hplan.items
  late := hplan.late
  decides d hd := by
    obtain ⟨hdn, hpast⟩ := hplan.decides d hd
    refine ⟨Nat.lt_succ_of_lt hdn, ?_⟩
    intro x hx
    rcases List.mem_append.mp hx with hx | hx
    · exact hpast x (List.mem_append_left _ hx)
    · obtain rfl := List.mem_singleton.mp hx
      exact ⟨fun _ => hdn, fun _ => nofun⟩

/-- It gets on. -/
lemma goes {stage' : Stage} (hplan : h.Plan n files decided past asked (.asking m c arguments stage)) :
    h.Plan n files decided past asked (.asking m c arguments stage') := ⟨hplan.items, hplan.late, hplan.decides⟩

/-- It ends. -/
lemma settle {x : Dealing} (hplan : h.Plan n files decided past (some x) (.asking m c arguments stage))
    (hx : x.item = m.item) (outcome : Except Channel.Fault Json) (e : Nat) :
    h.Plan n files decided (past ++ [{ x with settled := some e }]) none (.between (m.goOn outcome)) where
  items wanted hwanted := by
    rw [← hplan.items wanted hwanted, List.map_append, List.append_assoc]
    show _ ++ ([x.item] ++ (m.goOn outcome).upcoming wanted) = _ ++ (m.item :: m.rest wanted)
    rw [upcoming_goOn, hx]
    rfl
  late := (isLate_goOn m outcome).trans hplan.late
  decides d hd := by
    obtain ⟨hdn, hall⟩ := hplan.decides d hd
    refine ⟨hdn, ?_⟩
    intro y hy
    rw [Option.toList_none, List.append_nil] at hy
    rcases List.mem_append.mp hy with hy | hy
    · exact hall y (List.mem_append_left _ hy)
    · obtain rfl := List.mem_singleton.mp hy
      -- only the last item is asked once this is decided
      have hdone : x.item = .done := by
        rw [hx, item_eq_done_iff]
        have hlate := hplan.late
        rw [Option.mem_def.mp hd] at hlate
        exact hlate
      exact ⟨(hall x (List.mem_append_right _ (List.mem_singleton_self x))).1, fun hne => absurd hdone hne⟩

end Plan

/-! ## Phases -/

/-- Up to a time no channel became ready in a turn of the handling, unless all was done; what is closed stays closed. -/
structure Phases (n : Nat) (past : List Dealing) (place : Place) : Prop where
  readies : ∀ m < n, h.HasTurn m → ∀ c, h.Readies m c →
    c = h.own.channel ∧ place = .between .finished ∧ h.left (m + 1) = .done () ∧ ∀ x ∈ past, x.SettledBy m
  closed : ∀ m < n, h.HasTurn m → ∀ c, ((h.world m).channel c).phase = .closed →
    ((h.world (m + 1)).channel c).phase = .closed
  ends : place = .between .finished →
    ∃ m < n, h.HasTurn m ∧ h.world (m + 1) = readied h.own.channel (h.world m) ∧ ∀ x ∈ past, x.SettledBy m

namespace Phases

variable {h} {n : Nat} {past past' : List Dealing} {place place' : Place}

/-- Phases are the same, so no channel becomes ready. -/
lemma not_readies {c : ChannelId} (hphase : ((h.world (n + 1)).channel c).phase = ((h.world n).channel c).phase) :
    ¬ h.Readies n c := by
  rintro ⟨hbefore, hafter⟩
  exact hbefore (hphase.symm.trans hafter)

lemma closed_succ (hp : h.Phases n past place)
    (hphase : h.HasTurn n → ∀ c, ((h.world n).channel c).phase = .closed → ((h.world (n + 1)).channel c).phase = .closed)
    (m : Nat) (hm : m < n + 1) (hturn : h.HasTurn m) (c : ChannelId) (hclosed : ((h.world m).channel c).phase = .closed) :
    ((h.world (m + 1)).channel c).phase = .closed := by
  rcases Nat.lt_succ_iff_lt_or_eq.mp hm with hm | rfl
  · exact hp.closed m hm hturn c hclosed
  · exact hphase hturn c hclosed

/-- Nothing happens to what is left of the handling. -/
lemma rests (hp : h.Phases n past place)
    (hphase : h.HasTurn n → ∀ c, ((h.world (n + 1)).channel c).phase = ((h.world n).channel c).phase) :
    h.Phases (n + 1) past place where
  readies m hm hturn c hreadies := by
    rcases Nat.lt_succ_iff_lt_or_eq.mp hm with hm | rfl
    · exact hp.readies m hm hturn c hreadies
    · exact absurd hreadies (not_readies (hphase hturn c))
  closed := hp.closed_succ fun hturn c hclosed => (hphase hturn c).trans hclosed
  ends hfinished := by
    obtain ⟨m, hm, hlast⟩ := hp.ends hfinished
    exact ⟨m, Nat.lt_succ_of_lt hm, hlast⟩

/-- A step that leaves phases alone. -/
lemma goes (hp : h.Phases n past place) (hplace : place ≠ .between .finished) (hplace' : place' ≠ .between .finished)
    (hphase : ∀ c, ((h.world (n + 1)).channel c).phase = ((h.world n).channel c).phase) :
    h.Phases (n + 1) past' place' where
  readies m hm hturn c hreadies := by
    rcases Nat.lt_succ_iff_lt_or_eq.mp hm with hm | rfl
    · exact absurd (hp.readies m hm hturn c hreadies).2.1 hplace
    · exact absurd hreadies (not_readies (hphase c))
  closed := hp.closed_succ fun _ c hclosed => (hphase c).trans hclosed
  ends hfinished := absurd hfinished hplace'

/-- The session becomes ready. -/
lemma ready (hp : h.Phases n past place) (hplace : place ≠ .between .finished) (hturn : h.HasTurn n)
    (hworld : h.world (n + 1) = readied h.own.channel (h.world n)) (hleft : h.left (n + 1) = .done ())
    (hsettled : ∀ x ∈ past, x.SettledBy n) : h.Phases (n + 1) past (.between .finished) where
  readies m hm hturn c hreadies := by
    rcases Nat.lt_succ_iff_lt_or_eq.mp hm with hm | rfl
    · exact absurd (hp.readies m hm hturn c hreadies).2.1 hplace
    · refine ⟨?_, rfl, hleft, hsettled⟩
      -- another channel is as before, so it did not become ready
      by_contra hc
      rcases Network.channel_update_cases (h.world m).net h.own.channel (·.setPhase .ready) c with hsame | ⟨hsame, -⟩
      · refine not_readies ?_ hreadies
        rw [hworld]
        exact congrArg Channel.phase hsame
      · exact hc hsame
  closed := hp.closed_succ fun _ c hclosed => by
    rw [hworld]
    exact Network.ages_setPhase .ready _ c hclosed
  ends _ := ⟨n, Nat.lt_succ_self n, hturn, hworld, hsettled⟩

end Phases

/-! ## What is kept -/

/-- The request that is under way at a place, once it was issued. -/
inductive Current (n : Nat) : Place → Option Dealing → Prop
  | between (p : Pause) : Current n (.between p) none
  | next (m : Matter) (c : ChannelId) (arguments : Json) : Current n (.asking m c arguments .starting) none
  | pending (m : Matter) (c : ChannelId) (arguments : Json) (stage : Stage) (issued : Nat) (started : stage ≠ .starting)
      (live : ∀ outcome, stage ≠ .ended outcome)
      (reaches : h.Reaches (m.item.request arguments) (fun reply => (m.goOn reply).work h.session) issued n stage) :
    Current n (.asking m c arguments stage) (some { item := m.item, arguments, issued })

/-- What is kept from turn to turn, once the files are listed: how far the handling got, requests that have ended, and
what is under way. -/
structure Kept (n : Nat) (files : List Path) (past : List Dealing) (asked : Option Dealing) (place : Place) : Prop where
  left : h.left n = place.work h.session
  isOf : place.IsOf h.own
  current : h.Current n place asked
  ended : ∀ x ∈ past, h.Dealt n x ∧ x.SettledBy n
  ledger : h.Ledger n (past ++ asked.toList)
  plan : ∃ decided, h.Plan n files decided past asked place
  phases : h.Phases n past place

variable {h} {n : Nat}

lemma Dealt.later {x : Dealing} (hx : h.Dealt n x) (hsettled : x.SettledBy n) : h.Dealt (n + 1) x := by
  obtain ⟨e, he, -⟩ := hsettled
  obtain ⟨k, hk⟩ := hx.goes
  rw [Option.mem_def.mp he] at hk
  refine ⟨hx.suits, k, ?_⟩
  rw [Option.mem_def.mp he]
  exact ⟨Nat.le_succ_of_le hk.1, hk.2⟩

/-- A request that has ended had ended by the time that is noted. -/
lemma Dealt.settled_le {x : Dealing} (hx : h.Dealt n x) {e : Nat} (he : e ∈ x.settled) : e ≤ n := by
  obtain ⟨k, hk⟩ := hx.goes
  rw [Option.mem_def.mp he] at hk
  exact hk.1

/-- Work that starts with a request can go on. -/
lemma tick?_ne_none {work : Task Wait World Unit} (hstarts : Starts work) (w : World) :
    work.tick? World.holds w ≠ none := by
  obtain ⟨c, r, k, rfl⟩ := hstarts
  nofun

namespace Kept

variable {files : List Path} {past : List Dealing} {asked : Option Dealing} {place : Place}

lemma ended_succ (hk : h.Kept n files past asked place) (x : Dealing) (hx : x ∈ past) :
    h.Dealt (n + 1) x ∧ x.SettledBy (n + 1) := by
  obtain ⟨hdealt, hsettled⟩ := hk.ended x hx
  exact ⟨hdealt.later hsettled, hsettled.later (Nat.le_succ n)⟩

/-- Nothing happens to what is left of the handling. -/
lemma rests (hk : h.Kept n files past asked place) (same : h.left (n + 1) = h.left n)
    (still : ¬ h.HasTurn n ∨ h.world (n + 1) = h.world n ∧ (h.left n).tick? World.holds (h.world n) = none) :
    h.Kept (n + 1) files past asked place := by
  have hno : ¬ h.Issues n := by
    rintro ⟨hturn, hstarts⟩
    rcases still with hnot | ⟨-, hnone⟩
    · exact hnot hturn
    · exact tick?_ne_none hstarts _ hnone
  have hphase : h.HasTurn n → ∀ c, ((h.world (n + 1)).channel c).phase = ((h.world n).channel c).phase := by
    intro hturn c
    rcases still with hnot | ⟨hworld, -⟩
    · exact absurd hturn hnot
    · rw [hworld]
  have hcurrent : h.Current (n + 1) place asked := by
    cases hk.current with
    | between p => exact .between p
    | next m c arguments => exact .next m c arguments
    | pending m c arguments stage issued started live reaches =>
      exact .pending m c arguments stage issued started live (reaches.rests same)
  obtain ⟨decided, hplan⟩ := hk.plan
  exact ⟨same.trans hk.left, hk.isOf, hcurrent, hk.ended_succ, hk.ledger.succ hno, ⟨decided, hplan.succ⟩,
    hk.phases.rests hphase⟩

/-- A step between requests. -/
lemma step_between {p : Pause} {place' : Place} (hk : h.Kept n files past asked (.between p)) (hturn : h.HasTurn n)
    (hnext : p.next h.session (h.world n) = some (place', h.world (n + 1)))
    (hleft : h.left (n + 1) = place'.work h.session) : h.Kept (n + 1) files past none place' := by
  have hasked : asked = none := by
    cases hk.current
    rfl
  subst hasked
  have hno : ¬ h.Issues n := by
    rintro ⟨-, hstarts⟩
    rw [hk.left] at hstarts
    obtain ⟨m, c, arguments, hplace⟩ := eq_starting_of_starts hstarts
    cases hplace
  have hcurrent : h.Current (n + 1) place' none := by
    cases place' with
    | between p' => exact .between p'
    | asking m c arguments stage =>
      obtain rfl := starting_of_next hnext
      exact .next m c arguments
  have hp : p.IsOf h.own := hk.isOf
  have hisOf := (upcoming_of_next hp (session_eq (Nat.le_of_lt hturn.1)) hnext).1
  have hunfinished : Place.between p ≠ .between .finished := by
    rintro ⟨⟩
    cases hnext
  obtain ⟨decided, hplan⟩ := hk.plan
  obtain ⟨decided', hplan'⟩ := hplan.step_between hp (Nat.le_of_lt hturn.1)
    (fun x hx e he => (hk.ended x hx).1.settled_le he) hnext
  refine ⟨hleft, hisOf, hcurrent, hk.ended_succ, hk.ledger.succ hno, ⟨decided', hplan'⟩, ?_⟩
  rcases net_of_next hnext with ⟨hnet, hplace'⟩ | ⟨session, rfl, rfl, hworld⟩
  · refine hk.phases.goes hunfinished hplace' ?_
    intro c
    rw [World.channel, World.channel, hnet]
  · rw [channel_eq hp] at hworld
    exact hk.phases.ready hunfinished hturn hworld hleft fun x hx => (hk.ended x hx).2

/-- A step of a request that was issued before or is issued now. -/
lemma step_request {m : Matter} {c : ChannelId} {arguments : Json} {stage stage' : Stage}
    (hk : h.Kept n files past asked (.asking m c arguments stage)) (hturn : h.HasTurn n)
    (hnext : stage.next h.own.channel (m.item.request arguments) (h.world n).net =
      some (stage', (h.world (n + 1)).net))
    (hleft : h.left (n + 1) = (World.onNet (stage'.work h.own.channel (m.item.request arguments))).andThen fun reply =>
      (m.goOn reply).work h.session) :
    ∃ issued decided, h.Reaches (m.item.request arguments) (fun reply => (m.goOn reply).work h.session) issued (n + 1)
        stage' ∧
      h.Ledger (n + 1) (past ++ [{ item := m.item, arguments, issued }]) ∧
      h.Plan (n + 1) files decided past (some { item := m.item, arguments, issued }) (.asking m c arguments stage) := by
  obtain ⟨decided, hplan⟩ := hk.plan
  have hnow := hk.left
  have hledger := hk.ledger
  obtain ⟨-, rfl, -⟩ := hk.isOf
  cases hk.current with
  | next m _ arguments =>
    -- the first step of the request: this turn issues it
    have hissues : h.Issues n := ⟨hturn, _, _, _, hnow⟩
    rw [Option.toList_none, List.append_nil] at hledger
    exact ⟨n, decided, (Reaches.issue hturn hnow).goes hturn hnext hleft,
      hledger.add (fun x hx => (hk.ended x hx).2) hissues rfl, hplan.issue⟩
  | pending m _ arguments stage issued started live reaches =>
    -- it was issued before, and does not start again
    have hno : ¬ h.Issues n := by
      rintro ⟨-, hstarts⟩
      rw [hnow] at hstarts
      obtain ⟨m', c', arguments', hplace⟩ := eq_starting_of_starts hstarts
      exact started (Place.asking.inj hplace).2.2.2
    exact ⟨issued, decided, reaches.goes hturn hnext hleft, hledger.succ hno, hplan.succ⟩

/-- A step at a request. -/
lemma step_asking {m : Matter} {c : ChannelId} {arguments : Json} {stage : Stage} {place' : Place}
    (hk : h.Kept n files past asked (.asking m c arguments stage)) (hturn : h.HasTurn n)
    (hnext : (Place.asking m c arguments stage).next h.session (h.world n) = some (place', h.world (n + 1)))
    (hleft : h.left (n + 1) = place'.work h.session) : ∃ past' asked', h.Kept (n + 1) files past' asked' place' := by
  have hlive : ∀ outcome, stage ≠ .ended outcome := by
    cases hk.current with
    | next m c arguments => simp
    | pending m c arguments stage issued started live reaches => exact live
  obtain ⟨hm, rfl, hsuits⟩ := hk.isOf
  rcases next_asking_cases hnext with ⟨outcome, hend, -⟩ | ⟨-, stage', hstage, rfl, -⟩
  · exact absurd hend (hlive outcome)
  rw [work_resume] at hleft
  obtain ⟨issued, decided, hreaches, hledger, hplan⟩ := hk.step_request hturn hstage hleft
  have hphase : ∀ c, ((h.world (n + 1)).channel c).phase = ((h.world n).channel c).phase := by
    intro c
    obtain ⟨f, hf, hsame, -⟩ := Request.next_changes hstage
    rw [World.channel, World.channel, hf]
    rcases Network.channel_update_cases (h.world n).net h.own.channel f c with hkept | ⟨-, hchanged⟩
    · rw [hkept]
    · rw [hchanged]
      exact congrArg Door.phase (hsame _)
  rcases stage'.ended_or_live with ⟨outcome, rfl⟩ | hlive'
  · -- it ends, and counts among those that have ended from the next turn on
    let x : Dealing := { item := m.item, arguments, issued, settled := some (n + 1) }
    refine ⟨past ++ [x], none, work_resume m _ arguments _ ▸ hleft, isOf_goOn hm outcome, .between _, ?_, ?_,
      ⟨decided, hplan.settle rfl outcome (n + 1)⟩,
      hk.phases.goes (by simp) (fun h => goOn_ne_finished m outcome (Place.between.inj h)) hphase⟩
    · intro y hy
      rcases List.mem_append.mp hy with hy | hy
      · exact hk.ended_succ y hy
      · obtain rfl := List.mem_singleton.mp hy
        exact ⟨⟨hsuits, _, Nat.le_refl _, outcome, hreaches⟩, n + 1, rfl, Nat.le_refl _⟩
    · rw [Option.toList_none, List.append_nil]
      exact hledger.settle rfl
  · rw [resume_of_live m _ arguments hlive']
    exact ⟨past, some { item := m.item, arguments, issued }, hleft, ⟨hm, rfl, hsuits⟩,
      .pending m _ arguments stage' issued (Request.ne_starting_of_next hstage) hlive' hreaches, hk.ended_succ, hledger,
      ⟨decided, hplan.goes⟩, hk.phases.goes (by simp) (by simp) hphase⟩

/-- What is kept in one turn. -/
theorem succ (hk : h.Kept n files past asked place) (hn : h.begun < n) :
    ∃ past' asked' place', h.Kept (n + 1) files past' asked' place' := by
  rcases left_cases hn with ⟨hturn, htick⟩ | ⟨hsame, hstill⟩
  · rw [hk.left, tick_work] at htick
    obtain ⟨⟨place', w'⟩, hnext, heq⟩ := Option.map_eq_some_iff.mp htick
    obtain ⟨hwork, rfl⟩ := Prod.mk.inj heq
    cases place with
    | between p => exact ⟨past, none, place', hk.step_between hturn hnext hwork.symm⟩
    | asking m c arguments stage =>
      obtain ⟨past', asked', hk'⟩ := hk.step_asking hturn hnext hwork.symm
      exact ⟨past', asked', place', hk'⟩
  · exact ⟨past, asked, place, hk.rests hsame hstill⟩

end Kept

/-- Up to a time, the handling has not begun, or it has listed files and gone on from there. -/
inductive Era (n : Nat) : Prop
  | waiting (none : ∀ m < n, ¬ h.HasTurn m) (left : h.left n = Running.configure h.session)
  | underway (began : Nat) (past : List Dealing) (asked : Option Dealing) (place : Place) (lt : began < n)
      (turn : h.HasTurn began) (first : ∀ m < began, ¬ h.HasTurn m)
      (kept : h.Kept n ((h.world began).debugger.filesFor h.own.language) past asked place)

/-- The handling begins, and lists files. -/
lemma kept_began (hturn : h.HasTurn n) (hnone : ∀ m < n, ¬ h.HasTurn m) (hleft : h.left n = Running.configure h.session)
    (htick : (h.left n).tick? World.holds (h.world n) = some (h.left (n + 1), h.world (n + 1))) :
    h.Kept (n + 1) ((h.world n).debugger.filesFor h.own.language) [] none
      (.between (.sending ((h.world n).debugger.filesFor h.own.language))) := by
  have hlisting : h.left n = (Place.between .listing).work h.session := hleft
  have hlanguage := language_eq (session_eq (Nat.le_of_lt hturn.1))
  rw [hlisting, tick_work] at htick
  obtain ⟨hwork, hworld⟩ := Prod.mk.inj (Option.some.inj htick)
  have hno : ∀ m < n + 1, ¬ h.Issues m := by
    intro m hm hissues
    rcases Nat.lt_succ_iff_lt_or_eq.mp hm with hm | rfl
    · exact hnone m hm hissues.1
    · have hstarts := hissues.2
      rw [hlisting] at hstarts
      obtain ⟨m', c, arguments, hplace⟩ := eq_starting_of_starts hstarts
      cases hplace
  have hphase : ∀ c, ((h.world (n + 1)).channel c).phase = ((h.world n).channel c).phase := by
    intro c
    rw [← hworld]
  refine ⟨?_, trivial, .between _, List.forall_mem_nil _, ⟨List.forall_mem_nil _, ?_, .nil⟩,
    ⟨none, fun _ _ => rfl, rfl, nofun⟩, ?_, ?_, nofun⟩
  · rw [← hwork, hlanguage]
  · intro m hm
    refine ⟨fun hissues => absurd hissues (hno m hm), ?_⟩
    rintro ⟨x, hx, -⟩
    cases hx
  · intro m hm hhas c hreadies
    rcases Nat.lt_succ_iff_lt_or_eq.mp hm with hm | rfl
    · exact absurd hhas (hnone m hm)
    · exact absurd hreadies (Phases.not_readies (hphase c))
  · intro m hm hhas c hclosed
    rcases Nat.lt_succ_iff_lt_or_eq.mp hm with hm | rfl
    · exact absurd hhas (hnone m hm)
    · exact (hphase c).trans hclosed

/-- What holds at a time holds at the next one. -/
lemma Era.succ (he : h.Era n) (hn : h.begun < n) : h.Era (n + 1) := by
  cases he with
  | waiting hnone hleft =>
    rcases left_cases hn with ⟨hturn, htick⟩ | ⟨hsame, hstill⟩
    · exact .underway n [] none _ (Nat.lt_succ_self n) hturn hnone (kept_began hturn hnone hleft htick)
    · refine .waiting ?_ (hsame.trans hleft)
      intro m hm hhas
      rcases Nat.lt_succ_iff_lt_or_eq.mp hm with hm | rfl
      · exact hnone m hm hhas
      · rcases hstill with hnot | ⟨-, hstuck⟩
        · exact hnot hhas
        · -- the first step waits for nothing
          rw [hleft, configure_eq] at hstuck
          cases hstuck
  | underway began past asked place lt turn first kept =>
    obtain ⟨past', asked', place', kept'⟩ := kept.succ hn
    exact .underway began past' asked' place' (Nat.lt_succ_of_lt lt) turn first kept'

/-- At all times from when the event is taken up. -/
theorem era (hn : h.begun < n) : h.Era n := by
  induction hn with
  | refl => exact .waiting (fun m hm hhas => absurd hhas.1 (by omega)) left_begun
  | step hn ih => exact ih.succ hn

/-! ## All in order -/

/-- The files that are listed are those that concern the session. -/
lemma concerns_iff (began : Nat) (path : Path) :
    (∃ p ∈ (h.world began).debugger.filesFor h.own.language, p.same path = true) ↔ h.Concerns began path := by
  constructor
  · rintro ⟨p, hp, hsame⟩
    obtain ⟨f, hf, hadmits, rfl⟩ := Running.mem_filesFor_iff.mp hp
    obtain ⟨b, hb⟩ := (Catalog.mem_files_iff (listed_world began).breakpoints).mp hf
    exact ⟨b, f, hb, hsame, hadmits⟩
  · rintro ⟨b, f, hb, hsame, hadmits⟩
    exact ⟨f.2, Running.mem_filesFor_iff.mpr
      ⟨f, (Catalog.mem_files_iff (listed_world began).breakpoints).mpr ⟨b, hb⟩, hadmits, rfl⟩, hsame⟩

/-- Where nothing can be done the handling has ended, or it waits for an answer. -/
lemma Kept.rests_at {files : List Path} {past : List Dealing} {asked : Option Dealing} {place : Place}
    (hk : h.Kept n files past asked place) (hstuck : (h.left n).tick? World.holds (h.world n) = none) :
    place = .between .finished ∨ h.left n ≠ .done () ∧ ∃ x ∈ asked, h.Awaits n x := by
  rw [hk.left, tick_work] at hstuck
  rcases rests_of_next_eq_none (Option.map_eq_none_iff.mp hstuck) with hplace |
    ⟨m, c, arguments, id, ticket, limit, deadline, rfl, hopen⟩
  · exact .inl hplace
  · right
    have hleft : h.left n ≠ .done () := by
      rw [hk.left]
      nofun
    obtain ⟨-, rfl, -⟩ := hk.isOf
    cases hk.current with
    | pending m _ arguments stage issued started live reaches =>
      exact ⟨hleft, _, rfl, rfl, _, id, ticket, limit, deadline, reaches, hopen⟩

/-- Nothing is left to do where the handling has ended, and nowhere else. -/
lemma Kept.eq_finished {files : List Path} {past : List Dealing} {asked : Option Dealing} {place : Place}
    (hk : h.Kept n files past asked place) (hleft : h.left n = .done ()) : place = .between .finished := by
  have hstuck : (h.left n).tick? World.holds (h.world n) = none := by
    rw [hleft]
    rfl
  exact (hk.rests_at hstuck).resolve_right fun hrests => hrests.1 hleft

/-- What is asked at a place is the first of what is yet to be asked. -/
lemma Current.prefix_upcoming {place : Place} {asked : Option Dealing} (hc : h.Current n place asked) (wanted : Bool) :
    asked.toList.map (·.item) <+: place.upcoming wanted := by
  cases hc with
  | between p => exact List.nil_prefix
  | next m c arguments => exact List.nil_prefix
  | pending m c arguments stage issued started live reaches => exact List.prefix_append [m.item] (m.rest wanted)

/-- What is asked at a place has not ended. -/
lemma Current.dealt {place : Place} {asked : Option Dealing} (hc : h.Current n place asked) (hp : place.IsOf h.own)
    {x : Dealing} (hx : x ∈ asked) : h.Dealt n x ∧ x.settled = none := by
  cases hc with
  | between p => cases hx
  | next m c arguments => cases hx
  | pending m c arguments stage issued started live reaches =>
    obtain rfl := Option.some.inj hx
    exact ⟨⟨hp.2.2, _, stage, live, reaches⟩, rfl⟩

/-- It is the last item only if it is decided that the adapter is to hear of the end. -/
lemma Current.item_ne_done {place : Place} {asked : Option Dealing} (hc : h.Current n place asked)
    (hlate : place.isLate = false) {x : Dealing} (hx : x ∈ asked) : x.item ≠ .done := by
  cases hc with
  | between p => cases hx
  | next m c arguments => cases hx
  | pending m c arguments stage issued started live reaches =>
    obtain rfl := Option.some.inj hx
    intro hdone
    have hm : m.isLate = true := (item_eq_done_iff m).mp hdone
    exact Bool.false_ne_true (hlate.symm.trans hm)

/-- From what is kept, once the files are listed. -/
lemma Kept.orderly {began : Nat} {past : List Dealing} {asked : Option Dealing} {place : Place} (hlt : began < n)
    (hturn : h.HasTurn began) (hfirst : ∀ m < began, ¬ h.HasTurn m)
    (hk : h.Kept n ((h.world began).debugger.filesFor h.own.language) past asked place) :
    ∃ decided, h.Orderly n began ((h.world began).debugger.filesFor h.own.language) decided (past ++ asked.toList) := by
  obtain ⟨decided, hplan⟩ := hk.plan
  -- as long as nothing is decided any time will do
  have hitems := hplan.items (h.Wants (decided.getD n)) (by rintro m ⟨⟩; rfl)
  have hdone : place = .between .finished → asked = none ∧
      past.map (·.item) = agenda ((h.world began).debugger.filesFor h.own.language) (h.Wants (decided.getD n)) := by
    rintro rfl
    cases hk.current
    exact ⟨rfl, by simpa [Place.upcoming, Pause.upcoming] using hitems⟩
  refine ⟨decided.getD n, ⟨hturn.1, Nat.le_of_lt hlt, fun _ => hturn, hfirst⟩, Running.pairwise_filesFor _ _,
    concerns_iff began, ?_, ?_, hk.ledger.issues, hk.ledger.waits, ?_, ?_, hk.phases.closed, ?_, ?_⟩
  · rw [← hitems, List.map_append]
    exact List.prefix_append_right_inj _ |>.mpr (hk.current.prefix_upcoming _)
  · intro x hx
    rcases List.mem_append.mp hx with hx | hx
    · exact (hk.ended x hx).1
    · exact (hk.current.dealt hk.isOf (Option.mem_toList.mp hx)).1
  · intro x hx
    cases hdecided : decided with
    | some m => exact (hplan.decides m hdecided).2 x hx
    | none =>
      subst hdecided
      have hlate : place.isLate = false := hplan.late
      rcases List.mem_append.mp hx with hx | hx
      · exact ⟨fun hdone => absurd hdone (hplan.item_ne_done hx), fun _ e he => (hk.ended x hx).1.settled_le he⟩
      · have hx' := Option.mem_toList.mp hx
        refine ⟨fun hdone => absurd hdone (hk.current.item_ne_done hlate hx'), fun _ e he => ?_⟩
        rw [(hk.current.dealt hk.isOf hx').2] at he
        cases he
  · intro m hm hhas c hreadies
    obtain ⟨hc, hplace, hleft, hsettled⟩ := hk.phases.readies m hm hhas c hreadies
    obtain ⟨rfl, -⟩ := hdone hplace
    rw [Option.toList_none, List.append_nil]
    exact ⟨hc, hleft, hsettled⟩
  · intro hstuck
    rcases hk.rests_at hstuck with rfl | ⟨-, x, hx, hawaits⟩
    · exact .inl hk.left
    · exact .inr ⟨x, List.mem_append_right _ (Option.mem_toList.mpr hx), hawaits⟩
  · intro hleft
    have hplace := hk.eq_finished hleft
    obtain ⟨rfl, hall⟩ := hdone hplace
    rw [Option.toList_none, List.append_nil]
    exact ⟨hall, hk.phases.ends hplace⟩

/-- Whatever catalog there is, whatever adapters answer and whatever else goes on: when an adapter has said that it is
initialized, it is asked to take the breakpoints of each file that concerns its session, then the exception filters, and
then, if its entry asks for that or says nothing and the features of the session do, to note that the configuration is
done. It is asked one thing at a time, and nothing else. The session becomes ready after that, unless it is closed. All
the handling waits for is what it asked. -/
theorem handshake_in_order (h : Handling) {n : Nat} (hn : h.begun < n) :
    ∃ began files decided dealings, h.Orderly n began files decided dealings := by
  cases era hn with
  | waiting hnone hleft =>
    refine ⟨n, (h.world n).debugger.filesFor h.own.language, n, [],
      ⟨⟨hn, Nat.le_refl n, fun hlt => absurd hlt (Nat.lt_irrefl n), hnone⟩, Running.pairwise_filesFor _ _, concerns_iff n,
        List.nil_prefix, List.forall_mem_nil _, ?_, .nil, List.forall_mem_nil _, ?_, ?_, ?_, ?_⟩⟩
    · intro m hm
      refine ⟨fun hissues => absurd hissues.1 (hnone m hm), ?_⟩
      rintro ⟨x, hx, -⟩
      cases hx
    · exact fun m hm hhas => absurd hhas (hnone m hm)
    · exact fun m hm hhas => absurd hhas (hnone m hm)
    · intro hstuck
      rw [hleft, configure_eq] at hstuck
      cases hstuck
    · intro hdone
      rw [hleft, configure_eq] at hdone
      cases hdone
  | underway began past asked place lt turn first kept =>
    obtain ⟨decided, horderly⟩ := kept.orderly lt turn first
    exact ⟨began, _, decided, _, horderly⟩

end Handling

/-! ### Adapters that are not heard, and one that is not asked -/

/-- An adapter whose entry says nothing of the end. -/
def silentEntry : Settings.Adapter := { command := "adapter", adapterId := "java" }

/-- An adapter that takes no messages, and a breakpoint in a file of its language. -/
def unheard : Handling where
  start := {
    net := { channels := [{ dialect := .sequenced, outputBroken := true }] }
    debugger := {
      sources := { extensions := [("java", "java")] }
      breakpoints := { entries := [{ id := 1, kind := .line "demo" ⟨"demo/Main.java"⟩ 3 none none }], nextId := 2 }
      sessions := [{ language := "java", adapter := { silentEntry with configurationDone := some true }, channel := 0 }] } }
  schedule n := if n = 0 then .begins (.event 0 ⟨"initialized", .null⟩) else .step 0
  listed := ⟨List.pairwise_singleton _ _, .nil⟩
  session := 0
  body := .null
  begun := 0
  begins := rfl
  present := by decide

/-- Every request fails, and still all of them are issued in order. -/
theorem handshake_in_order_unheard :
    unheard.begun < 26 ∧ unheard.left 26 = .done () ∧
      ∃ began files decided dealings, unheard.Orderly 26 began files decided dealings ∧
        dealings.map (·.item) = agenda files (unheard.Wants decided) := by
  have hleft : unheard.left 26 = .done () := by
    have hresult : (unheard.left 26).result? = some () := by decide +kernel
    cases hwork : unheard.left 26 with
    | done r => rfl
    | _ =>
      rw [hwork] at hresult
      cases hresult
  have hbegun : unheard.begun < 26 := by decide
  obtain ⟨began, files, decided, dealings, horderly⟩ := unheard.handshake_in_order hbegun
  exact ⟨hbegun, hleft, began, files, decided, dealings, horderly, (horderly.ends hleft).1⟩

/-- Settings that say of the adapters of a language that they want to hear of the end. -/
def declaring : Settings where
  languages := [("java", {
    debug := some silentEntry
    capabilities := [("adapter", .table [("supportsConfigurationDoneRequest", .bool true)])] })]

/-- An adapter that answers when it is asked to take the exception filters. -/
def unasked : Handling where
  start := {
    net := { channels := [World.adapterChannel declaring "java"] }
    debugger := { settings := declaring, sessions := [{ language := "java", adapter := silentEntry, channel := 0 }] } }
  schedule n :=
    if n = 0 then .begins (.event 0 ⟨"initialized", .null⟩)
    else if n = 8 then .outside {
      net := { channels := [{ World.adapterChannel declaring "java" with
        nextId := 2, pending := { next := 1, settled := [(0, .answered (.ok .null))] } }] }
      debugger := { settings := declaring } }
    else .step 0
  listed := ⟨.nil, .nil⟩
  session := 0
  body := .null
  begun := 0
  begins := rfl
  present := by decide

/-- A message of some name has left and was not taken by the adapter yet. -/
def Handling.tells (h : Handling) (n : Nat) (name : String) : Bool :=
  ((h.world n).channel h.own.channel).outgoing.any fun message => (message.get? "command").bind Json.asStr? = some name

/-- An adapter is asked to note that the configuration is done, for the settings of its language say so: its entry says
nothing, and it has advertised nothing, for it was never asked to introduce itself. -/
theorem configured_unasked :
    unasked.own.adapter.configurationDone = none ∧
      unasked.start.channel unasked.own.channel = World.adapterChannel declaring "java" ∧
      (∀ n < 18, unasked.tells n "initialize" = false) ∧ unasked.tells 17 "configurationDone" = true := by
  refine ⟨by decide +kernel, rfl, ?_, by decide +kernel⟩
  decide +kernel

end Switchboard.Debug.Handshake
