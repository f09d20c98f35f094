/-!
# Deferred work

* `Deferred.Stamp`: a version that is raised whenever work that was put off may have become stale;
* `Deferred.Pool`: jobs in order of arrival, of which a fixed number is under way at a time;
* `Deferred.Crew`: a pool with a clock and a stamp, whose jobs only have to be named.

A job that is taken waits out its delay; then it runs unless the version has moved past the one that it was
scheduled for.
-/

namespace Switchboard.Deferred

/-- A version; it wraps at 64 bits. -/
def raised (version : Nat) : Nat := (version + 1) % 0x10000000000000000

/-- Work that was put off. -/
structure Job (κ : Type) where
  /-- Position in order of arrival. -/
  number : Nat
  /-- How long it waits once taken, in milliseconds; nothing for work that is not checked for its version. -/
  delay : Option Nat
  /-- The version it was scheduled for. -/
  version : Nat
  work : κ
deriving Repr

/-- Jobs that wait to be taken, and how many are under way. -/
structure Pool (κ : Type) where
  workers : Nat := 1
  next : Nat := 0
  queue : List (Job κ) := []
  busy : Nat := 0
deriving Repr, Inhabited

namespace Pool

variable {κ : Type}

/-- A pool with at least one worker. -/
def ofWorkers (n : Nat) : Pool κ := { workers := max n 1 }

/-- Add a job. -/
def add (p : Pool κ) (delay : Option Nat) (version : Nat) (work : κ) : Pool κ :=
  { p with next := p.next + 1, queue := p.queue ++ [⟨p.next, delay, version, work⟩] }

/-- Can a job be taken? -/
def canTake (p : Pool κ) : Bool := p.busy < p.workers && !p.queue.isEmpty

/-- Take the job that came first, if a worker is free. -/
def take? (p : Pool κ) : Option (Job κ × Pool κ) :=
  match p.queue with
  | job :: rest => if p.busy < p.workers then some (job, { p with queue := rest, busy := p.busy + 1 }) else none
  | [] => none

/-- A worker is done with its job. -/
def release (p : Pool κ) : Pool κ := { p with busy := p.busy - 1 }

end Pool

/-! ## Jobs by name -/

/-- Workers with a clock, in milliseconds, and one stamp for all jobs. -/
structure Crew (κ : Type) where
  pool : Pool κ := {}
  now : Nat := 0
  version : Nat := 0
  /-- Jobs that were taken, each with the time at which its delay is over. -/
  delayed : List (Nat × Job κ) := []
deriving Repr, Inhabited

namespace Crew

variable {κ : Type}

/-- Is a job still worth running? -/
def wants (c : Crew κ) (job : Job κ) : Bool := job.delay.isNone || job.version = c.version

/-- Free workers take jobs, and run those that have no delay. Gives what was run. The fuel bounds the jobs
taken. -/
def takeUp : Nat → Crew κ → List κ × Crew κ
  | 0, c => ([], c)
  | fuel + 1, c =>
    match c.pool.take? with
    | none => ([], c)
    | some (job, pool) =>
      match job.delay with
      | none =>
        let (ran, c) := takeUp fuel { c with pool := pool.release }
        (job.work :: ran, c)
      | some d => takeUp fuel { c with pool, delayed := c.delayed ++ [(c.now + d, job)] }

/-- The delayed job whose delay was over first, if any is. -/
def due? (c : Crew κ) : Option (Nat × Job κ) :=
  ((c.delayed.filter (·.1 ≤ c.now)).mergeSort fun a b => a.1 ≤ b.1).head?

/-- Jobs whose delay is over are run, unless they are stale; their workers take other jobs. -/
def fire : Nat → Crew κ → List κ × Crew κ
  | 0, c => ([], c)
  | fuel + 1, c =>
    match c.due? with
    | none => ([], c)
    | some (_, job) =>
      let own := if c.wants job then [job.work] else []
      let c := { c with pool := c.pool.release, delayed := c.delayed.filter (·.2.number ≠ job.number) }
      let (taken, c) := takeUp (c.pool.queue.length + 1) c
      let (ran, c) := fire fuel c
      (own ++ taken ++ ran, c)

/-- Everything that can be done at the time. Gives what was run, in order. -/
def settle (c : Crew κ) : List κ × Crew κ :=
  let bound := c.pool.queue.length + c.delayed.length + 1
  let (taken, c) := takeUp bound c
  let (ran, c) := fire bound c
  (taken ++ ran, c)

/-- Put a job off, for a version or else for the one that is current. -/
def schedule (c : Crew κ) (delay : Nat) (version : Option Nat) (work : κ) : Crew κ :=
  { c with pool := c.pool.add (some delay) (version.getD c.version) work }

/-- Add a job without delay, which is run whatever the version is. -/
def submit (c : Crew κ) (work : κ) : Crew κ := { c with pool := c.pool.add none c.version work }

/-- Raise the stamp: jobs put off before are stale. -/
def raise (c : Crew κ) : Crew κ := { c with version := raised c.version }

/-- The clock moves on. -/
def wait (c : Crew κ) (milliseconds : Nat) : Crew κ := { c with now := c.now + milliseconds }

end Crew

end Switchboard.Deferred
