import Switchboard.Proofs.Concurrency.Owning
import Switchboard.Proofs.Debug.Evaluating

/-!
# What a look into a frame asks and gives

* `Sight`, `sight`: the stop of a thread, and the frame at an index if its frames are kept;
* `Opened`: how the call came by the frame; `Surveyed`: the adapter gave the scopes of it;
* `Gathered`: the variables of some scopes, in order, with the requests that brought them;
* `Aims`, `Conclusion`: what may be asked when other things were asked before, and how the call ends;
* `unfolds`: as long as others leave the stop and the frame as they are, the scopes are asked for once, and then the variables
  of each local scope, and a look at what is kept after that asks nothing.
-/

namespace Switchboard.Debug.Target.Unfolding

open Course (net)
open Network (Exchange Extends AwaitsLast Logged Justified)
open Network.Request (Fate)

/-! ## What is seen and asked -/

/-- What a look into a frame goes by: the stop that the thread is in, and the frame at the index if frames are kept. -/
structure Sight where
  stop : Except Fault Nat
  frame? : Option (Option Stack.Frame)

/-- What there is to see of a thread of a target. -/
def sight (id : Nat) (thread : Int) (index : Nat) (w : World) : Sight where
  stop := (w.target id).currentStop thread
  frame? := ((w.target id).keptFrames? thread).map (·[index]?)

/-- What is asked for the scopes of a frame. -/
def scopesQuestion (frame : Int) : Network.Request where
  method := "scopes"
  params := ScopesArguments.toJson { frameId := frame }

/-- What is asked for the variables under a reference. -/
def variablesQuestion (reference : Int) : Network.Request where
  method := "variables"
  params := VariablesArguments.toJson { variablesReference := reference }

/-- What a look makes of the answer about scopes. -/
def scopesReading : Except Channel.Fault Json → Except Fault ScopesBody := Session.reading ScopesBody.shape "scopes"

/-- What a look makes of the answer about variables. -/
def variablesReading : Except Channel.Fault Json → Except Fault VariablesBody :=
  Session.reading VariablesBody.shape "variables"

/-- A frame with its scopes and variables. -/
def unfolded (frame : Stack.Frame) (scopes : List Stack.Scope) (contents : List Stack.Variable) : Stack.Frame :=
  { frame with scopes := some scopes, contents := some contents }

/-- What is left to do when it is known that the frame has nothing yet in it. -/
def unfolding (id : Nat) (thread : Int) (stop index : Nat) (frame : Stack.Frame) : DebugWork (List Stack.Variable) := do
  let rules := Rules.ofFeatures (← features id)
  let body ← requestAs id ScopesBody.shape "scopes" (scopesQuestion frame.id).params
  let scopes := body.scopes.map rules.scope
  let l ← expandScopes id rules scopes
  change id fun t => (t.keepContents thread stop index scopes l, [])
  return l

section

variable (v : Viewpoint Wait World) (id : Nat) (thread : Int) (index b : Nat)

/-- The adapter of the target was asked between two times, and this is what came of it. -/
def Replied (r : Network.Request) (n : Nat) (log : List Exchange) (m : Nat) (log' : List Exchange)
    (reply : Except Channel.Fault Json) : Prop :=
  ∃ asked, n ≤ asked ∧ v.turn asked ∧ Fate (net v) (channelAt v id asked) r (asked + 1) log m log' reply

/-- Since the time `b` the call has come by the frames of the thread; this one is at the index. -/
inductive Opened (m : Nat) (log : List Exchange) (found : Option Stack.Frame) : Prop where
  /-- They were kept. -/
  | kept (le : b ≤ m) (there : (sight id thread index (v.state b)).frame? = some found) (silent : log = [])
  /-- They were not, and the adapter was asked for them. -/
  | fetched (missing : (sight id thread index (v.state b)).frame? = none) (k : Nat) (reply : Except Channel.Fault Json)
      (replied : Replied v id (Fetch.question thread) b [] k log reply) (body : StackTraceBody)
      (said : Fetch.reading reply = .ok body) (placed : Nat) (since : k ≤ placed) (lt : placed < m) (turn : v.turn placed)
      (found : found = (placeFrames (v.state placed) id body.stackFrames)[index]?)

/-- After that the adapter said what scopes the frame has, which are told apart by the rules of its language. -/
inductive Surveyed (m : Nat) (log : List Exchange) (frame : Stack.Frame) (rules : Rules) (scopes : List Stack.Scope) : Prop
    where
  | intro (k : Nat) (before : List Exchange) (opened : Opened v id thread index b k before (some frame))
      (empty : frame.contents = none) (real : frame.synthetic = false) (looked ruled : Nat) (since : k ≤ looked)
      (ruled_lt : looked < ruled) (turns : v.turn looked ∧ v.turn ruled)
      (language : rules = .ofFeatures ((v.state ruled).net.channel (channelAt v id looked)).features)
      (reply : Except Channel.Fault Json) (replied : Replied v id (scopesQuestion frame.id) (ruled + 1) before m log reply)
      (body : ScopesBody) (said : scopesReading reply = .ok body) (made : scopes = body.scopes.map rules.scope)

/-- Some scopes were gone through in order between two times. Of each local one the variables were asked for, and any other
one gives a single variable that stands for it. -/
inductive Gathered (rules : Rules) :
    List Stack.Scope → Nat → List Exchange → Nat → List Exchange → List Stack.Variable → Prop where
  | nil {n m : Nat} {log : List Exchange} (le : n ≤ m) : Gathered rules [] n log m log []
  | delayed {s : Stack.Scope} {rest : List Stack.Scope} {n m : Nat} {log log' : List Exchange} {l : List Stack.Variable}
      (other : s.class_ ≠ .local_) (gathered : Gathered rules rest n log m log' l) :
      Gathered rules (s :: rest) n log m log' (s.placeholder :: l)
  | expanded {s : Stack.Scope} {rest : List Stack.Scope} {n k m : Nat} {log mid log' : List Exchange}
      {l : List Stack.Variable} (own : s.class_ = .local_) (reply : Except Channel.Fault Json)
      (replied : Replied v id (variablesQuestion s.reference) n log k mid reply) (body : VariablesBody)
      (said : variablesReading reply = .ok body) (gathered : Gathered rules rest k mid m log' l) :
      Gathered rules (s :: rest) n log m log' ((body.contents.map fun y => rules.variable_ y .local_) ++ l)

/-- The variables of one of the scopes, a local one, could not be fetched, and all before it were gone through. -/
inductive Stalled (rules : Rules) (scopes : List Stack.Scope) (n : Nat) (log : List Exchange) (m : Nat)
    (log' : List Exchange) (fault : Fault) : Prop where
  | intro (earlier : List Stack.Scope) (s : Stack.Scope) (later : List Stack.Scope) (order : scopes = earlier ++ s :: later)
      (own : s.class_ = .local_) (k : Nat) (mid : List Exchange) (l : List Stack.Variable)
      (gathered : Gathered v id rules earlier n log k mid l) (reply : Except Channel.Fault Json)
      (replied : Replied v id (variablesQuestion s.reference) k mid m log' reply)
      (said : variablesReading reply = .error fault)

/-- What may be handed over when `log` was handed over. -/
inductive Aims (log : List Exchange) (x : Exchange) : Prop where
  /-- It asks for the frames of the thread, which were not kept. -/
  | frames (first : log = []) (missing : (sight id thread index (v.state b)).frame? = none)
      (asks : Asks v id b (Fetch.question thread) x)
  /-- It asks for the scopes of the frame, which has yet to be looked into. -/
  | scopes (k : Nat) (frame : Stack.Frame) (opened : Opened v id thread index b k log (some frame))
      (empty : frame.contents = none) (real : frame.synthetic = false) (asks : Asks v id k (scopesQuestion frame.id) x)
  /-- It asks for the variables of a local scope, and all before it were gone through. -/
  | contents (k : Nat) (before : List Exchange) (frame : Stack.Frame) (rules : Rules) (scopes : List Stack.Scope)
      (surveyed : Surveyed v id thread index b k before frame rules scopes) (earlier : List Stack.Scope) (s : Stack.Scope)
      (later : List Stack.Scope) (order : scopes = earlier ++ s :: later) (own : s.class_ = .local_) (n : Nat)
      (l : List Stack.Variable) (gathered : Gathered v id rules earlier k before n log l)
      (asks : Asks v id n (variablesQuestion s.reference) x)

/-- How the call ends, with what is to be seen then. -/
inductive Conclusion (m : Nat) (log : List Exchange) (seen : Sight) (e : Except Fault (List Stack.Variable)) : Prop where
  /-- The frames could not be fetched. -/
  | unopened (missing : (sight id thread index (v.state b)).frame? = none) (reply : Except Channel.Fault Json)
      (replied : Replied v id (Fetch.question thread) b [] m log reply) (fault : Fault)
      (said : Fetch.reading reply = .error fault) (failed : e = .error fault) (nothing : seen.frame? = none)
  /-- There is no frame at the index. -/
  | outside (opened : Opened v id thread index b m log none) (failed : e = .error (.noFrame thread index))
      (nothing : seen.frame? = some none)
  /-- The frame was looked into before. -/
  | known (frame : Stack.Frame) (opened : Opened v id thread index b m log (some frame)) (l : List Stack.Variable)
      (full : frame.contents = some l) (gave : e = .ok l) (same : seen.frame? = some (some frame))
  /-- The frame is none of the program. -/
  | synthetic (frame : Stack.Frame) (opened : Opened v id thread index b m log (some frame)) (empty : frame.contents = none)
      (synthetic : frame.synthetic = true) (gave : e = .ok []) (same : seen.frame? = some (some frame))
  /-- Its scopes could not be fetched. -/
  | unscoped (k : Nat) (before : List Exchange) (frame : Stack.Frame)
      (opened : Opened v id thread index b k before (some frame)) (empty : frame.contents = none)
      (real : frame.synthetic = false) (reply : Except Channel.Fault Json)
      (replied : Replied v id (scopesQuestion frame.id) k before m log reply) (fault : Fault)
      (said : scopesReading reply = .error fault) (failed : e = .error fault) (same : seen.frame? = some (some frame))
  /-- The variables of a local scope could not be fetched. -/
  | stalled (k : Nat) (before : List Exchange) (frame : Stack.Frame) (rules : Rules) (scopes : List Stack.Scope)
      (surveyed : Surveyed v id thread index b k before frame rules scopes) (fault : Fault)
      (stalled : Stalled v id rules scopes k before m log fault) (failed : e = .error fault)
      (same : seen.frame? = some (some frame))
  /-- All scopes were gone through. What was asked is this and nothing else, and what was gathered is kept. -/
  | unfolded (k : Nat) (before : List Exchange) (frame : Stack.Frame) (rules : Rules) (scopes : List Stack.Scope)
      (surveyed : Surveyed v id thread index b k before frame rules scopes) (l : List Stack.Variable)
      (gathered : Gathered v id rules scopes k before m log l)
      (requests : log.map (·.request)
        = (if (sight id thread index (v.state b)).frame? = none then [Fetch.question thread] else []) ++
          scopesQuestion frame.id ::
            (scopes.filter (·.class_ = .local_)).map fun s => variablesQuestion s.reference)
      (gave : e = .ok l) (kept : seen.frame? = some (some (unfolded frame scopes l)))

end

/-! ## What changes what is seen -/

section Sight

variable {w : World} {id : Nat} {thread : Int} {index stop : Nat}

lemma sight_of_thread {x : DebugThread} (hx : (w.target id).thread? thread = some x) (hin : x.isIn stop = true) :
    sight id thread index w = ⟨.ok stop, x.frames.map (·[index]?)⟩ := by
  obtain ⟨hsuspended, rfl⟩ : x.isSuspended = true ∧ x.stop = stop := by simpa [DebugThread.isIn] using hin
  simp only [sight, currentStop, keptFrames?, hx, Option.bind_some, if_pos hsuspended]
  rfl

/-- Frames that are offered to a thread in its stop are seen. -/
lemma sight_keepFrames (h : (w.target id).currentStop thread = .ok stop) (frames : List Stack.Frame) :
    sight id thread index (w.changeTarget id fun t => (t.keepFrames thread stop frames, []))
      = ⟨.ok stop, some frames[index]?⟩ := by
  obtain ⟨x, hx, hin⟩ := isIn_of_currentStop h
  have hthread := thread?_keepFrames_of_isIn hx hin frames
  have htarget := target_changeTarget (f := fun t => (t.keepFrames thread stop frames, [])) (isSome_of_currentStop h)
    (id_keepFrames ..)
  exact sight_of_thread (x := { x with frames := some frames }) ((congrArg (·.thread? thread) htarget).trans hthread) hin

/-- Contents that are offered to the frame of a thread in its stop are seen. -/
lemma sight_keepContents {frame : Stack.Frame} (h : sight id thread index w = ⟨.ok stop, some (some frame)⟩)
    (scopes : List Stack.Scope) (contents : List Stack.Variable) :
    sight id thread index (w.changeTarget id fun t => (t.keepContents thread stop index scopes contents, []))
      = ⟨.ok stop, some (some (unfolded frame scopes contents))⟩ := by
  obtain ⟨hstop, hframe⟩ := Sight.mk.inj h
  obtain ⟨x, hx, hin⟩ := isIn_of_currentStop hstop
  obtain ⟨frames, hframes, hframe⟩ := Option.map_eq_some_iff.mp hframe
  obtain ⟨hlt, hget⟩ := List.getElem?_eq_some_iff.mp hframe
  rw [keptFrames?, hx, Option.bind_some] at hframes
  let y := { x with frames := some (frames.modify index fun f => unfolded f scopes contents) }
  have hthread : ((w.target id).keepContents thread stop index scopes contents).thread? thread = some y := by
    simp [keepContents, hx, DebugThread.storeContents, hframes, hin, hlt, thread?_putThread, id_of_thread? hx, unfolded, y]
  have htarget := target_changeTarget (f := fun t => (t.keepContents thread stop index scopes contents, []))
    (isSome_of_currentStop hstop) (id_keepContents ..)
  rw [sight_of_thread (x := y) ((congrArg (·.thread? thread) htarget).trans hthread) hin, Option.map_some,
    List.getElem?_modify_eq, hframe]
  rfl

end Sight

/-! ## The course of a look -/

section Later

variable {v : Viewpoint Wait World} {id : Nat} {thread : Int} {index b n m m' : Nat} {log log' : List Exchange}

lemma Opened.later {found : Option Stack.Frame} (h : Opened v id thread index b m log found) (hm : m ≤ m') :
    Opened v id thread index b m' log found := by
  cases h with
  | kept le there silent => exact .kept (Nat.le_trans le hm) there silent
  | fetched missing k reply replied body said placed since lt turn found =>
    exact .fetched missing k reply replied body said placed since (Nat.lt_of_lt_of_le lt hm) turn found

lemma Replied.later {r : Network.Request} {reply : Except Channel.Fault Json} (h : Replied v id r n log m log' reply)
    (hm : m ≤ m') : Replied v id r n log m' log' reply := by
  obtain ⟨asked, hasked, hturn, hfate⟩ := h
  exact ⟨asked, hasked, hturn, hfate.later hm⟩

lemma Gathered.later {rules : Rules} {scopes : List Stack.Scope} {l : List Stack.Variable}
    (h : Gathered v id rules scopes n log m log' l) (hm : m ≤ m') : Gathered v id rules scopes n log m' log' l := by
  induction h with
  | nil le => exact .nil (Nat.le_trans le hm)
  | delayed other _ ih => exact .delayed other (ih hm)
  | expanded own reply replied body said _ ih => exact .expanded own reply replied body said (ih hm)

lemma Conclusion.later {seen : Sight} {e : Except Fault (List Stack.Variable)}
    (h : Conclusion v id thread index b m log seen e) (hm : m ≤ m') : Conclusion v id thread index b m' log seen e := by
  cases h with
  | unopened missing reply replied fault said failed nothing =>
    exact .unopened missing reply (replied.later hm) fault said failed nothing
  | outside opened failed nothing => exact .outside (opened.later hm) failed nothing
  | known frame opened l full gave same => exact .known frame (opened.later hm) l full gave same
  | synthetic frame opened empty synthetic gave same =>
    exact .synthetic frame (opened.later hm) empty synthetic gave same
  | unscoped k before frame opened empty real reply replied fault said failed same =>
    exact .unscoped k before frame opened empty real reply (replied.later hm) fault said failed same
  | stalled k before frame rules scopes surveyed fault stalled failed same =>
    obtain ⟨earlier, s, later, order, own, n, mid, l, gathered, reply, replied, said⟩ := stalled
    exact .stalled k before frame rules scopes surveyed fault
      (.intro earlier s later order own n mid l gathered reply (replied.later hm) said) failed same
  | unfolded k before frame rules scopes surveyed l gathered requests gave kept =>
    exact .unfolded k before frame rules scopes surveyed l (gathered.later hm) requests gave kept

/-- What is asked by a request whose answer could be read. -/
lemma Replied.requests {r : Network.Request} {reply : Except Channel.Fault Json} (h : Replied v id r n log m log' reply)
    {α : Type} {shape : Json.Shape α} {command : String} {body : α} (hsaid : Session.reading shape command reply = .ok body) :
    log'.map (·.request) = log.map (·.request) ++ [r] := by
  obtain ⟨asked, -, -, hfate⟩ := h
  cases hfate with
  | refused _ _ _ _ _ why => obtain ⟨-, rfl⟩ | ⟨-, rfl⟩ := why <;> cases hsaid
  | replied x _ request _ _ logged => rw [logged, List.map_append, List.map_singleton, request]

/-- What is asked for the frames. -/
lemma Opened.requests {found : Option Stack.Frame} (h : Opened v id thread index b m log found) :
    log.map (·.request)
      = if (sight id thread index (v.state b)).frame? = none then [Fetch.question thread] else [] := by
  cases h with
  | kept le there silent => rw [there, silent, if_neg (by simp), List.map_nil]
  | fetched missing k reply replied body said =>
    rw [if_pos missing, replied.requests said, List.map_nil, List.nil_append]

/-- What is asked for the variables of local scopes. -/
lemma Gathered.requests {rules : Rules} {scopes : List Stack.Scope} {l : List Stack.Variable}
    (h : Gathered v id rules scopes n log m log' l) :
    log'.map (·.request) = log.map (·.request) ++
      (scopes.filter (·.class_ = .local_)).map fun s => variablesQuestion s.reference := by
  induction h with
  | nil le => exact (List.append_nil _).symm
  | delayed other _ ih => rw [ih, List.filter_cons_of_neg (by simpa using other)]
  | expanded own reply replied body said _ ih =>
    rw [ih, replied.requests said, List.filter_cons_of_pos (by simpa using own), List.map_cons, List.append_assoc]
    rfl

end Later

section Records

variable {v : Viewpoint Wait World} {B : World → Prop} {P : List Exchange → Exchange → Prop} {S : World → World → Prop}
  {id n : Nat} {log : List Exchange} (hS : ∀ w n, S w { w with net := n }) (hholds : v.holds = World.holds)

include hS hholds

/-- The variables of a scope are asked for. -/
lemma records_fetchVariables (rules : Rules) (reference : Int) (c : Stack.ScopeClass)
    (hP : ∀ x, Asks v id n (variablesQuestion reference) x → P log x) :
    Attempt.Records v B AwaitsLast (Behaves v P S)
      (fun m log' e => ∃ reply, Replied v id (variablesQuestion reference) n log m log' reply ∧
        e = (variablesReading reply).map fun body => body.contents.map fun y => rules.variable_ y c)
      (fetchVariables id rules reference c) n log := by
  refine .bind (records_requestAs hS hholds VariablesBody.shape "variables" _ hP) ?_ ?_
  · rintro m log' body - ⟨asked, reply, hasked, hfate, hbody⟩
    have hreading : variablesReading reply = .ok body := hbody.symm
    exact .pure ⟨reply, ⟨asked, hasked.since, hasked.turn, hfate⟩, by rw [hreading]; rfl⟩
  · rintro m log' e - ⟨asked, reply, hasked, hfate, he⟩
    have hreading : variablesReading reply = .error e := he.symm
    exact ⟨reply, ⟨asked, hasked.since, hasked.turn, hfate⟩, by rw [hreading]; rfl⟩

/-- Scopes are gone through in order. -/
lemma records_expandScopes (rules : Rules) {scopes : List Stack.Scope}
    (hscopes : ∀ s ∈ scopes, s.delayable = decide (s.class_ ≠ .local_))
    (hP : ∀ earlier s later m log' l, scopes = earlier ++ s :: later → s.class_ = .local_ →
      Gathered v id rules earlier n log m log' l → ∀ x, Asks v id m (variablesQuestion s.reference) x → P log' x) :
    Attempt.Records v B AwaitsLast (Behaves v P S)
      (fun m log' e => (∃ l, e = .ok l ∧ Gathered v id rules scopes n log m log' l) ∨
        ∃ fault, e = .error fault ∧ Stalled v id rules scopes n log m log' fault)
      (expandScopes id rules scopes) n log := by
  induction scopes generalizing n log with
  | nil => exact .pure (.inl ⟨[], rfl, .nil (Nat.le_refl n)⟩)
  | cons s rest ih =>
    have hrest := fun t ht => hscopes t (List.mem_cons_of_mem _ ht)
    rw [expandScopes]
    by_cases hs : s.class_ = .local_
    · rw [if_neg (by simp [hscopes s List.mem_cons_self, hs]), hs]
      refine .bind (records_fetchVariables (P := P) hS hholds rules s.reference .local_
        fun x hx => hP [] s rest n log [] rfl hs (.nil (Nat.le_refl n)) x hx) ?_ ?_
      · rintro k mid own - ⟨reply, hreplied, hown⟩
        cases hreading : variablesReading reply with
        | error fault =>
          rw [hreading] at hown
          cases hown
        | ok body =>
          rw [hreading] at hown
          obtain rfl := Except.ok.inj hown
          refine .bind (ih hrest fun earlier t later m log' l horder ht hgathered =>
            hP (s :: earlier) t later m log' _ (by rw [horder]; rfl) ht (.expanded hs reply hreplied body hreading hgathered))
            ?_ ?_
          · rintro m log' l - (⟨_, hl, hgathered⟩ | ⟨_, hl, -⟩)
            · obtain rfl := Except.ok.inj hl
              exact .pure (.inl ⟨_, rfl, .expanded hs reply hreplied body hreading hgathered⟩)
            · cases hl
          · rintro m log' e - (⟨_, he, -⟩ | ⟨fault, he, earlier, t, later, horder, ht, k', mid', l, hgathered, hstalled⟩)
            · cases he
            · refine .inr ⟨fault, he, .intro (s :: earlier) t later (by rw [horder]; rfl) ht k' mid' _
                (.expanded hs reply hreplied body hreading hgathered) ?_ ?_ ?_⟩ <;> assumption
      · rintro m log' e - ⟨reply, hreplied, he⟩
        cases hreading : variablesReading reply with
        | ok body =>
          rw [hreading] at he
          cases he
        | error fault =>
          rw [hreading] at he
          obtain rfl := Except.error.inj he
          exact .inr ⟨_, rfl, .intro [] s rest rfl hs n log [] (.nil (Nat.le_refl n)) reply hreplied hreading⟩
    · rw [if_pos (by simp [hscopes s List.mem_cons_self, hs])]
      refine .bind (.pure (Q := fun m log' e => m = n ∧ log' = log ∧ e = .ok [s.placeholder]) ⟨rfl, rfl, rfl⟩) ?_ ?_
      · rintro _ _ own - ⟨rfl, rfl, hown⟩
        obtain rfl := Except.ok.inj hown
        refine .bind (ih hrest fun earlier t later m log' l horder ht hgathered =>
          hP (s :: earlier) t later m log' _ (by rw [horder]; rfl) ht (.delayed hs hgathered)) ?_ ?_
        · rintro m log' l - (⟨_, hl, hgathered⟩ | ⟨_, hl, -⟩)
          · obtain rfl := Except.ok.inj hl
            exact .pure (.inl ⟨_, rfl, .delayed hs hgathered⟩)
          · cases hl
        · rintro m log' e - (⟨_, he, -⟩ | ⟨fault, he, hstalled⟩)
          · cases he
          · obtain ⟨earlier, t, later, horder, ht, k, mid, l, hgathered, reply, hreplied, hsaid⟩ := hstalled
            exact .inr ⟨fault, he, .intro (s :: earlier) t later (by rw [horder]; rfl) ht k mid _
              (.delayed hs hgathered) reply hreplied hsaid⟩
      · rintro _ _ e - ⟨-, -, he⟩
        cases he

end Records

section Owns

variable {v : Viewpoint Wait World} {id : Nat} {thread : Int} {index b n : Nat} {log : List Exchange} {seen : Sight}
  {stop : Nat} (hholds : v.holds = World.holds)

/-- Work that changes nothing of what is seen. -/
lemma owns_of_records {α : Type} {Q : Nat → List Exchange → Except Fault α → Prop} {a : DebugWork α}
    (h : Attempt.Records v (fun w => sight id thread index w = seen) AwaitsLast
      (Behaves v (Aims v id thread index b) fun w w' => sight id thread index w = seen → sight id thread index w' = seen)
      Q a n log) :
    Attempt.Owns v (sight id thread index) AwaitsLast (Extends (net v) (Aims v id thread index b))
      (fun m log' seen' e => seen' = seen ∧ Q m log' e) a n log seen :=
  Attempt.Records.owns h fun _ _ _ hG => ⟨hG.extends_, hG.changes⟩

/-- A change of the target. -/
lemma owns_change {f : Target → Target × List Note} (seen' : Sight)
    (hf : ∀ w, sight id thread index w = seen → sight id thread index (w.changeTarget id f) = seen') :
    Attempt.Owns v (sight id thread index) AwaitsLast (Extends (net v) (Aims v id thread index b))
      (fun m log' s e => n < m ∧ log' = log ∧ s = seen' ∧ e = .ok ()) (change id f) n log seen := by
  intro m hm hturn hseen hstate
  refine ⟨log, .inl ⟨rfl, fun c => ?_⟩, Nat.lt_succ_of_le hm, rfl, ?_, rfl⟩
  · show ((v.state (m + 1)).net.channel c).outgoing = _
    rw [hstate]
    rfl
  · rw [hstate]
    exact hf _ hseen

include hholds

/-- The frames of a thread in a stop are looked for. -/
lemma owns_stack (hstop : (sight id thread index (v.state b)).stop = .ok stop) :
    Attempt.Owns v (sight id thread index) AwaitsLast (Extends (net v) (Aims v id thread index b))
      (fun m log' seen e => seen.stop = .ok stop ∧
        ((∃ frames, e = .ok frames ∧ seen.frame? = some frames[index]? ∧ Opened v id thread index b m log' frames[index]?) ∨
          ∃ reply fault, (sight id thread index (v.state b)).frame? = none ∧ seen.frame? = none ∧
            Replied v id (Fetch.question thread) b [] m log' reply ∧ Fetch.reading reply = .error fault ∧
            e = .error fault))
      (stack id thread) b [] (sight id thread index (v.state b)) := by
  have hS : ∀ (seen : Sight) (w : World) (n : Network),
    sight id thread index w = seen → sight id thread index { w with net := n } = seen := fun _ _ _ h => h
  refine .bind (owns_of_records (records_demand (hS _) _)) ?_ ?_
  · rintro _ _ _ stop' - ⟨rfl, checked, ⟨hchecked, rfl, -, hseen⟩, rfl, hok⟩
    obtain rfl : stop = stop' := Except.ok.inj ((hstop.symm.trans (congrArg Sight.stop hseen.symm)).trans hok.symm)
    refine .bind (owns_of_records (records_look (hS _) _)) ?_ ?_
    · rintro _ _ _ kept - ⟨rfl, looked, ⟨hlooked, rfl, -, hseen⟩, rfl, hkept⟩
      obtain rfl := Except.ok.inj hkept
      have hframe : (sight id thread index (v.state b)).frame?
          = (((v.state looked).target id).keptFrames? thread).map (·[index]?) := congrArg Sight.frame? hseen.symm
      split
      · next frames hframes =>
        rw [hframes] at hframe
        exact .pure ⟨hstop, .inl ⟨frames, rfl, hframe, .kept (by omega) hframe rfl⟩⟩
      · next hnone =>
        rw [hnone] at hframe
        refine .bind (owns_of_records (records_requestAs (hS _) hholds StackTraceBody.shape _ _
          fun x ⟨asked, hasked, hx⟩ => Aims.frames rfl hframe ⟨asked, by omega, hx⟩)) ?_ ?_
        · rintro k log' _ body - ⟨rfl, asked, reply, hasked, hfate, hbody⟩
          have hreplied : Replied v id (Fetch.question thread) b [] k log' reply :=
            ⟨asked, by have := hasked.since; omega, hasked.turn, hfate⟩
          have hreading : Fetch.reading reply = .ok body := hbody.symm
          refine .bind (owns_of_records (records_view (hS _) _)) ?_ ?_
          · rintro _ _ _ frames - ⟨rfl, placed, ⟨hplaced, rfl, hturn, -⟩, rfl, hframes⟩
            obtain rfl := Except.ok.inj hframes
            refine .bind (owns_change ⟨.ok stop, some (placeFrames (v.state placed) id body.stackFrames)[index]?⟩
              fun w hw => sight_keepFrames ((congrArg Sight.stop hw).trans hstop) _) ?_ ?_
            · rintro m _ _ _ - ⟨hm, rfl, rfl, -⟩
              exact .pure ⟨rfl, .inl ⟨_, rfl, rfl, .fetched hframe k reply hreplied body hreading placed hplaced (by omega)
                hturn rfl⟩⟩
            · rintro _ _ _ _ - ⟨-, -, -, he⟩
              cases he
          · rintro _ _ _ _ - ⟨-, _, -, -, he⟩
            cases he
        · rintro m log' _ fault - ⟨rfl, asked, reply, hasked, hfate, he⟩
          exact ⟨hstop, .inr ⟨reply, fault, hframe, hframe,
            ⟨asked, by have := hasked.since; omega, hasked.turn, hfate⟩, he.symm, rfl⟩⟩
    · rintro _ _ _ _ - ⟨-, _, -, -, he⟩
      cases he
  · rintro _ _ _ e - ⟨rfl, checked, ⟨-, -, -, hseen⟩, -, he⟩
    cases (hstop.symm.trans (congrArg Sight.stop hseen.symm)).trans he.symm

/-- A frame with nothing yet in it is looked into. -/
lemma owns_unfolding {frame : Stack.Frame} (hseen : seen = ⟨.ok stop, some (some frame)⟩)
    (hopened : Opened v id thread index b n log (some frame)) (hempty : frame.contents = none)
    (hreal : frame.synthetic = false) :
    Attempt.Owns v (sight id thread index) AwaitsLast (Extends (net v) (Aims v id thread index b))
      (fun m log seen e => seen.stop = .ok stop ∧ Conclusion v id thread index b m log seen e)
      (unfolding id thread stop index frame) n log seen := by
  have hS : ∀ (seen : Sight) (w : World) (n : Network),
    sight id thread index w = seen → sight id thread index { w with net := n } = seen := fun _ _ _ h => h
  have hstop : seen.stop = .ok stop := congrArg Sight.stop hseen
  have hframe : seen.frame? = some (some frame) := congrArg Sight.frame? hseen
  refine .bind (owns_of_records (records_features (hS _) hholds)) ?_ ?_
  · rintro _ before seen features - ⟨rfl, looked, ruled, ⟨hlooked, -, hturn, -⟩, ⟨hruled, rfl, hturn', -⟩, rfl, hfeatures⟩
    obtain rfl := Except.ok.inj hfeatures
    refine .bind (owns_of_records (records_requestAs (hS _) hholds ScopesBody.shape _ _
      fun x ⟨asked, hasked, hx⟩ => .scopes n frame hopened hempty hreal ⟨asked, by omega, hx⟩)) ?_ ?_
    · rintro k log seen body - ⟨rfl, asked, reply, hasked, hfate, hbody⟩
      have hreplied : Replied v id (scopesQuestion frame.id) (ruled + 1) before k log reply :=
        ⟨asked, hasked.since, hasked.turn, hfate⟩
      have hreading : scopesReading reply = .ok body := hbody.symm
      have hsurveyed : Surveyed v id thread index b k log frame _ _ :=
        .intro n before hopened hempty hreal looked ruled hlooked (by omega) ⟨hturn, hturn'⟩ rfl reply hreplied body
          hreading rfl
      refine .bind (owns_of_records (records_expandScopes (hS _) hholds _ ?_
        fun earlier s later m log' l horder hs hgathered x hx =>
          .contents k log frame _ _ hsurveyed earlier s later horder hs m l hgathered hx)) ?_ ?_
      · rintro s hs
        obtain ⟨m, -, rfl⟩ := List.mem_map.mp hs
        rfl
      · rintro m log' seen l - ⟨rfl, ⟨_, hl, hgathered⟩ | ⟨_, hl, -⟩⟩
        swap
        · cases hl
        obtain rfl := Except.ok.inj hl
        refine .bind (owns_change ⟨.ok stop, some (some (unfolded frame _ l))⟩
          fun w hw => sight_keepContents (hw.trans hseen) _ _) ?_ ?_
        · rintro m' _ _ _ - ⟨hm, rfl, rfl, -⟩
          refine .pure ⟨rfl, .unfolded k log frame _ _ hsurveyed l (hgathered.later (by omega)) ?_ rfl rfl⟩
          rw [hgathered.requests, hreplied.requests hreading, hopened.requests, List.append_assoc, List.singleton_append]
        · rintro _ _ _ _ - ⟨-, -, -, he⟩
          cases he
      · rintro m log' seen e - ⟨rfl, ⟨_, he, -⟩ | ⟨fault, he, hstalled⟩⟩
        · cases he
        · exact ⟨hstop, .stalled k log frame _ _ hsurveyed fault hstalled he hframe⟩
    · rintro m log' seen fault - ⟨rfl, asked, reply, hasked, hfate, he⟩
      have := hasked.since
      exact ⟨hstop, .unscoped n before frame hopened hempty hreal reply ⟨asked, by omega, hasked.turn, hfate⟩ fault
        he.symm rfl hframe⟩
  · rintro _ _ _ _ - ⟨-, _, _, -, -, -, he⟩
    cases he

/-- The frame at the index is looked into. -/
lemma owns_frameVariables (hstop : (sight id thread index (v.state b)).stop = .ok stop) :
    Attempt.Owns v (sight id thread index) AwaitsLast (Extends (net v) (Aims v id thread index b))
      (fun m log seen e => seen.stop = .ok stop ∧ Conclusion v id thread index b m log seen e)
      (frameVariables id thread index) b [] (sight id thread index (v.state b)) := by
  have hS : ∀ (seen : Sight) (w : World) (n : Network),
    sight id thread index w = seen → sight id thread index { w with net := n } = seen := fun _ _ _ h => h
  refine .bind (owns_stack hholds hstop) ?_ ?_
  · rintro k before seen frames - ⟨hseen, ⟨_, hframes, hframe, hopened⟩ | ⟨_, _, -, -, -, -, hframes⟩⟩
    swap
    · cases hframes
    obtain rfl := Except.ok.inj hframes
    refine .bind (owns_of_records (records_demand (hS _) _)) ?_ ?_
    · rintro _ before seen stop' - ⟨rfl, checked, ⟨hchecked, rfl, -, hsame⟩, rfl, hok⟩
      obtain rfl : stop = stop' := Except.ok.inj ((hseen.symm.trans (congrArg Sight.stop hsame.symm)).trans hok.symm)
      have hopened : Opened v id thread index b (checked + 1) _ _ := hopened.later (by omega)
      refine .bind (.ofExcept (Q := fun m log' seen' e => m = checked + 1 ∧ log' = before ∧ seen' = seen ∧
        e = frameAt thread index frames) ⟨rfl, rfl, rfl, rfl⟩) ?_ ?_
      · rintro _ before seen frame - ⟨rfl, rfl, rfl, hframeAt⟩
        have hget : frames[index]? = some frame := by
          unfold frameAt at hframeAt
          split at hframeAt
          · next f hf => rw [hf, Except.ok.inj hframeAt]
          · cases hframeAt
        rw [hget] at hopened hframe
        split
        · next l hfull => exact .pure ⟨hseen, .known frame hopened l hfull rfl hframe⟩
        · next hempty =>
          split
          · next hsynthetic => exact .pure ⟨hseen, .synthetic frame hopened hempty hsynthetic rfl hframe⟩
          · next hreal =>
            exact owns_unfolding hholds (hframe ▸ hseen ▸ rfl) hopened hempty (by simpa using hreal)
      · rintro _ _ _ e - ⟨rfl, rfl, rfl, hframeAt⟩
        unfold frameAt at hframeAt
        split at hframeAt
        · cases hframeAt
        · next hnone =>
          rw [hnone] at hopened hframe
          exact ⟨hseen, .outside hopened (congrArg Except.error (Except.error.inj hframeAt)) hframe⟩
    · rintro _ _ _ e - ⟨rfl, checked, ⟨-, -, -, hsame⟩, -, he⟩
      cases (hseen.symm.trans (congrArg Sight.stop hsame.symm)).trans he.symm
  · rintro m log' seen e - ⟨hseen, ⟨_, he, -⟩ | ⟨reply, fault, hmissing, hnothing, hreplied, hreading, he⟩⟩
    · cases he
    · obtain rfl := Except.error.inj he
      exact ⟨hseen, .unopened hmissing reply hreplied _ hreading rfl hnothing⟩

end Owns

/-! ## Looks -/

section Looks

variable {v : Viewpoint Wait World} {id : Nat} {thread : Int} {index b stop : Nat}
  {left : Nat → Task Wait World (Except Fault (List Stack.Variable))}

/-- What is known of a look at all times of a run. -/
lemma exists_look (hholds : v.holds = World.holds) (hdoes : v.Does left b)
    (hleft : left b = (frameVariables id thread index).outcome)
    (hstop : ((v.state b).target id).currentStop thread = .ok stop)
    (hcalm : ∀ m, b ≤ m → (left m).result? = none → ¬ v.turn m →
      sight id thread index (v.state (m + 1)) = sight id thread index (v.state m)) {m : Nat} (hm : b ≤ m) :
    ∃ k log, b ≤ k ∧ k ≤ m ∧ Logged (net v) b m log ∧ Justified (Aims v id thread index b) log ∧
      (∀ on next, left m = .wait on next → AwaitsLast log on) ∧
      ∀ e, left m = .done e → left k = .done e ∧ ((v.state k).target id).currentStop thread = .ok stop ∧
        Conclusion v id thread index b k log (sight id thread index (v.state k)) e := by
  have hwork : (left b).Owns v (sight id thread index) AwaitsLast (Extends (net v) (Aims v id thread index b))
      (fun m log seen e => seen.stop = .ok stop ∧ Conclusion v id thread index b m log seen e) b []
      (sight id thread index (v.state b)) := by
    rw [hleft]
    exact owns_frameVariables hholds hstop
  obtain ⟨l, k, log, hl, hb, hk, howns, ⟨hlogged, hjustified⟩, -, hsame⟩ := hdoes.owned
    (I := fun m log => Logged (net v) b m log ∧ Justified (Aims v id thread index b) log) hwork
    ⟨Network.logged_nil b, Network.justified_nil⟩
    (fun m _ _ hbm hG h => ⟨h.1.extends hbm hG, h.2.extends hG⟩)
    (fun m _ _ hstill h => ⟨h.1.still fun hturn => Network.sendsNothing_of_eq (congrArg World.net (hstill hturn)), h.2⟩)
    hcalm hm
  refine ⟨k, log, hb, hk, hlogged, hjustified, fun on next hwait => ?_, fun e hdone => ?_⟩
  · rw [hwait] at howns
    exact howns.1
  · rw [hdone] at howns hsame
    exact ⟨hsame, howns.1, howns.2.later hl⟩

/-- A frame that is kept is the one that a look comes by. -/
lemma Opened.eq_of_seen {found found' : Option Stack.Frame} {n : Nat} {log : List Exchange}
    (hseen : (sight id thread index (v.state b)).frame? = some found) (h : Opened v id thread index b n log found') :
    found' = found := by
  cases h with
  | kept le there => exact Option.some.inj (there.symm.trans hseen)
  | fetched missing => cases hseen.symm.trans missing

/-- If a frame is kept with its contents, or is none of the program, a look asks nothing, and gives the contents, or
nothing. -/
lemma look_silent (hholds : v.holds = World.holds) (hdoes : v.Does left b)
    (hleft : left b = (frameVariables id thread index).outcome)
    (hstop : ((v.state b).target id).currentStop thread = .ok stop)
    (hcalm : ∀ m, b ≤ m → (left m).result? = none → ¬ v.turn m →
      sight id thread index (v.state (m + 1)) = sight id thread index (v.state m)) {frame : Stack.Frame}
    (hseen : (sight id thread index (v.state b)).frame? = some (some frame))
    (hfull : frame.contents = none → frame.synthetic = true) {m : Nat} (hm : b ≤ m) :
    Logged (net v) b m [] ∧ (∀ on next, left m ≠ .wait on next) ∧
      ∀ e, left m = .done e → e = .ok (frame.contents.getD []) := by
  have hno : ∀ {n log frame'}, Opened v id thread index b n log (some frame') → frame'.contents = none →
      frame'.synthetic = false → False := by
    intro n log frame' hopened hempty hreal
    obtain rfl := Option.some.inj (hopened.eq_of_seen hseen)
    cases (hfull hempty).symm.trans hreal
  obtain ⟨k, log, -, -, hlogged, hjustified, hwaits, hends⟩ := exists_look hholds hdoes hleft hstop hcalm hm
  obtain rfl : log = [] := by
    cases log with
    | nil => rfl
    | cons x rest =>
      cases hjustified [] x rest rfl with
      | frames _ missing => cases hseen.symm.trans missing
      | scopes _ _ opened empty real => exact (hno opened empty real).elim
      | contents _ _ _ _ _ surveyed =>
        obtain ⟨_, _, opened, empty, real, -⟩ := surveyed
        exact (hno opened empty real).elim
  refine ⟨hlogged, fun on next hwait => ?_, fun e hdone => ?_⟩
  · obtain ⟨x, _, hlast, -⟩ := hwaits on next hwait
    cases hlast
  · obtain ⟨-, -, hconclusion⟩ := hends e hdone
    cases hconclusion with
    | unopened missing => cases hseen.symm.trans missing
    | outside opened => cases opened.eq_of_seen hseen
    | known frame' opened l full gave =>
      obtain rfl := Option.some.inj (opened.eq_of_seen hseen)
      rw [gave, full]
      rfl
    | synthetic frame' opened empty _ gave =>
      obtain rfl := Option.some.inj (opened.eq_of_seen hseen)
      rw [gave, empty]
      rfl
    | unscoped _ _ _ opened empty real => exact (hno opened empty real).elim
    | stalled _ _ _ _ _ surveyed | unfolded _ _ _ _ _ surveyed =>
      obtain ⟨_, _, opened, empty, real, -⟩ := surveyed
      exact (hno opened empty real).elim

/-- A look that gives something leaves a frame that a further look has nothing to ask about. -/
lemma Conclusion.kept {n : Nat} {log : List Exchange} {seen : Sight} {l : List Stack.Variable}
    (h : Conclusion v id thread index b n log seen (.ok l)) :
    ∃ frame, seen.frame? = some (some frame) ∧ (frame.contents = none → frame.synthetic = true) ∧
      l = frame.contents.getD [] := by
  cases h with
  | unopened _ _ _ _ _ failed | outside _ failed | unscoped _ _ _ _ _ _ _ _ _ _ failed | stalled _ _ _ _ _ _ _ _ failed =>
    cases failed
  | known frame opened l full gave same =>
    obtain rfl := Except.ok.inj gave
    refine ⟨frame, same, fun hnone => ?_, by rw [full]; rfl⟩
    cases full.symm.trans hnone
  | synthetic frame opened empty synthetic gave same =>
    obtain rfl := Except.ok.inj gave
    exact ⟨frame, same, fun _ => synthetic, by rw [empty]; rfl⟩
  | unfolded k before frame rules scopes surveyed l gathered requests gave kept =>
    obtain rfl := Except.ok.inj gave
    exact ⟨_, kept, nofun, rfl⟩

end Looks

/-- A thread is suspended, and it is known in which function. -/
def oneFrame : World :=
  { Freshness.oneTarget with
    debugger := { Freshness.oneTarget.debugger with
      targets := [{ id := 1, launch := default, session := 0, state := .running
                    threads := [{ id := 1, name := "main", state := .suspended, stop := 1
                                  frames := some [{ index := 0, id := 10, name := "run", synthetic := false }] }] }] } }

/-- Frames are looked into, and anything else goes on. -/
def visiting : Ensemble World Unit (Task Wait World (Except Fault (List Stack.Variable))) (World → World) :=
  .ofWork World.holds (fun _ => (frameVariables 1 1 0).outcome) fun f w => f w

/-- A local scope and one that is not. -/
def scopesReply : Json :=
  .obj [("scopes", .arr [.obj [("name", "Locals"), ("variablesReference", .int 5), ("expensive", false)],
    .obj [("name", "Statics"), ("variablesReference", .int 6), ("expensive", false)]])]

/-- One variable. -/
def variablesReply : Json :=
  .obj [("variables", .arr [.obj [("name", "x"), ("value", "42"), ("variablesReference", .int 0)]])]

/-- The frame is looked into, the adapter says what scopes it has and what is in the local one, and the frame is looked into
again. -/
def visitsTwice : List (Ensemble.Turn Unit (World → World)) :=
  List.flatten [[.begins ()], List.replicate 11 (.step 0), [.around (answers 0 scopesReply)], List.replicate 8 (.step 0),
    [.around (answers 1 variablesReply)], List.replicate 3 (.step 0), [.begins ()]]

/-- Those turns, one after the other, and then those of the second call. -/
def visitsTwiceSchedule (n : Nat) : Ensemble.Turn Unit (World → World) := visitsTwice.getD n (.step 1)

/-- The local variable, and one that stands for the other scope. -/
def foundVariables : List Stack.Variable :=
  [{ name := "x", value := "42", reference := 0, kind := .primitive, isLocal := true, isStatic := false },
    { name := "Statics", value := "", reference := 6, kind := .placeholder, isLocal := false, isStatic := true }]

/-- The scopes as they are kept. -/
def foundScopes : List Stack.Scope :=
  [{ name := "Locals", class_ := .local_, reference := 5, delayable := false, expensive := false },
    { name := "Statics", class_ := .static_, reference := 6, delayable := true, expensive := false }]

end Switchboard.Debug.Target.Unfolding
