/-!
# Tasks: concurrent work over a shared state

* `Task ω σ α`: work that accesses the state and waits, and ends with an `α`;
* `Task.run`: the work up to the first wait that does not hold;
* `Task.stretch`: the work up to the next wait, whether that holds or not;
* `Task.step?`, `Task.tick?`: one step of an interleaving, from wait to wait or access by access;
* `Task.zoom`: work on a part of a larger state.

Where nothing else happens between two waits a stretch is one step of a run; where several threads work at
once a step is a single access. Either way every interleaving is a choice of whose step comes next.
-/

namespace Switchboard

/-- Work over a state `σ` that ends with an `α`; waits are described by `ω`. -/
inductive Task (ω σ α : Type) where
  | done (result : α)
  /-- The state becomes `f s`, and the work goes on with the `s` that it found. -/
  | access (f : σ → σ) (next : σ → Task ω σ α)
  | wait (on : ω) (next : Task ω σ α)

namespace Task

variable {ω σ τ α β : Type}

/-! ## Sequencing -/

/-- Go on with the result. -/
def andThen : Task ω σ α → (α → Task ω σ β) → Task ω σ β
  | done a, k => k a
  | access f next, k => access f fun s => (next s).andThen k
  | wait w next, k => wait w (next.andThen k)

instance : Monad (Task ω σ) where
  pure := done
  bind := andThen

theorem andThen_done (t : Task ω σ α) : t.andThen done = t := by
  induction t with
  | done a => rfl
  | access f next ih => simp only [andThen, ih]
  | wait w next ih => simp only [andThen, ih]

theorem andThen_assoc {γ : Type} (t : Task ω σ α) (k : α → Task ω σ β) (l : β → Task ω σ γ) :
    (t.andThen k).andThen l = t.andThen fun a => (k a).andThen l := by
  induction t with
  | done a => rfl
  | access f next ih => simp only [andThen, ih]
  | wait w next ih => simp only [andThen, ih]

theorem map_id (t : Task ω σ α) : id <$> t = t := andThen_done t

instance : LawfulMonad (Task ω σ) := LawfulMonad.mk' (Task ω σ) map_id (fun _ _ => rfl) andThen_assoc

/-! ## Single steps -/

/-- The state as it is. -/
def state : Task ω σ σ := access id done

/-- A part of the state. -/
def view (f : σ → α) : Task ω σ α := access id fun s => done (f s)

/-- Change the state. -/
def modify (f : σ → σ) : Task ω σ Unit := access f fun _ => done ()

/-- Change the state and give a result. -/
def act (f : σ → α × σ) : Task ω σ α := access (fun s => (f s).2) fun s => done (f s).1

/-- Wait. -/
def await (w : ω) : Task ω σ Unit := wait w (done ())

/-- The same work for every element, in order. -/
def forEach {κ : Type} (work : κ → Task ω σ Unit) : List κ → Task ω σ Unit
  | [] => done ()
  | x :: rest => (work x).andThen fun _ => forEach work rest

/-! ## Running -/

/-- Run to the end or to the first wait that does not hold. -/
def run (holds : ω → σ → Bool) : Task ω σ α → σ → Task ω σ α × σ
  | done a, s => (done a, s)
  | access f next, s => (next s).run holds (f s)
  | wait w next, s => if holds w s then next.run holds s else (wait w next, s)

/-- Run to the end or to the next wait. -/
def stretch : Task ω σ α → σ → Task ω σ α × σ
  | done a, s => (done a, s)
  | access f next, s => (next s).stretch (f s)
  | wait w next, s => (wait w next, s)

/-- One step from wait to wait: past a wait that holds, then a stretch. -/
def step? (holds : ω → σ → Bool) : Task ω σ α → σ → Option (Task ω σ α × σ)
  | done _, _ => none
  | wait w next, s => if holds w s then some (next.stretch s) else none
  | t, s => some (t.stretch s)

/-- One step among several threads: one access, or past a wait that holds. -/
def tick? (holds : ω → σ → Bool) : Task ω σ α → σ → Option (Task ω σ α × σ)
  | done _, _ => none
  | access f next, s => some (next s, f s)
  | wait w next, s => if holds w s then some (next, s) else none

/-- Can the work go on? -/
def canRun (holds : ω → σ → Bool) : Task ω σ α → σ → Bool
  | done _, _ => false
  | wait w _, s => holds w s
  | _, _ => true

/-- What the work waits for. -/
def waitsOn? : Task ω σ α → Option ω
  | wait w _ => some w
  | _ => none

/-- The result, if the work is done. -/
def result? : Task ω σ α → Option α
  | done a => some a
  | _ => none

/-! ## Parts of a larger state -/

/-- The same work on a part of a larger state. -/
def zoom (get : τ → σ) (put : σ → τ → τ) : Task ω σ α → Task ω τ α
  | done a => done a
  | access f next => access (fun t => put (f (get t)) t) fun t => (next (get t)).zoom get put
  | wait w next => wait w (next.zoom get put)

end Task

/-- Work that may fail. -/
abbrev Attempt (ω σ ε α : Type) := ExceptT ε (Task ω σ) α

namespace Attempt

variable {ω σ τ ε ε' α : Type}

/-- Work that does not fail. -/
def ofTask (t : Task ω σ α) : Attempt ω σ ε α := ExceptT.lift t

/-- The outcome of work that may fail. -/
def outcome (a : Attempt ω σ ε α) : Task ω σ (Except ε α) := ExceptT.run a

/-- A result or failure that is known. -/
def ofExcept (e : Except ε α) : Attempt ω σ ε α := ExceptT.mk (pure e)

/-- Change the state and give a result or failure. -/
def act (f : σ → Except ε α × σ) : Attempt ω σ ε α := ExceptT.mk (Task.act f)

/-- The same work with its failures put differently. -/
def mapError (f : ε → ε') (a : Attempt ω σ ε α) : Attempt ω σ ε' α :=
  ExceptT.mk do
    match ← a.outcome with
    | .ok x => return .ok x
    | .error e => return .error (f e)

/-- The same work on a part of a larger state. -/
def zoom (get : τ → σ) (put : σ → τ → τ) (a : Attempt ω σ ε α) : Attempt ω τ ε α :=
  ExceptT.mk (Task.zoom get put a.outcome)

end Attempt

end Switchboard
