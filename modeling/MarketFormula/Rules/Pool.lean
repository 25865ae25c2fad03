/-!
# Pools of workers

A pool runs numbered jobs. Idle workers take the waiting jobs in order and finish them in any
order; a schedule says how one run goes.
-/
namespace MarketFormula.Pool

inductive Event
  /-- An idle worker takes the next waiting job. -/
  | start
  | finish (job : Nat)
  deriving DecidableEq, Repr

structure State where
  waiting : List Nat
  busy : List Nat
  /-- Jobs in the order in which they were finished. -/
  finished : List Nat
  deriving DecidableEq, Repr

namespace State

def initial (jobs : Nat) : State :=
  ⟨List.range jobs, [], []⟩

def step? (workers : Nat) (s : State) : Event → Option State
  | .start =>
    match s.waiting with
    | job :: waiting =>
      if s.busy.length < workers then some ⟨waiting, job :: s.busy, s.finished⟩ else none
    | [] => none
  | .finish job =>
    if job ∈ s.busy then some ⟨s.waiting, s.busy.erase job, s.finished ++ [job]⟩ else none

def run? (workers : Nat) (s : State) (events : List Event) : Option State :=
  events.foldlM (step? workers) s

end State

/-- A run of a pool that finishes all jobs, in the given order. -/
structure Schedule (workers jobs : Nat) where
  events : List Event
  order : List Nat
  runs : (State.initial jobs).run? workers events = some ⟨[], [], order⟩

namespace Schedule

/-- The events of finishing each job before the next one is started. -/
def oneByOne (jobs : List Nat) : List Event :=
  jobs.flatMap fun job => [.start, .finish job]

theorem run?_oneByOne {workers : Nat} (h : 0 < workers) (waiting finished : List Nat) :
    (State.mk waiting [] finished).run? workers (oneByOne waiting) =
      some ⟨[], [], finished ++ waiting⟩ := by
  induction waiting generalizing finished with
  | nil => simp [oneByOne, State.run?]
  | cons job waiting ih =>
    have := ih (finished ++ [job])
    simp_all [oneByOne, State.run?, State.step?]

def inTurn (workers jobs : Nat) (h : 0 < workers) : Schedule workers jobs where
  events := oneByOne (List.range jobs)
  order := List.range jobs
  runs := by simpa [State.initial] using run?_oneByOne h (List.range jobs) []

variable {α β : Type}

/-- The results of jobs, worked off by a schedule and handed over in the order of the jobs. -/
def results {workers : Nat} (work : α → β) (jobs : List α)
    (schedule : Schedule workers jobs.length) : List β :=
  let finished := schedule.order.filterMap fun i => jobs[i]?.map fun job => (i, work job)
  (List.range jobs.length).filterMap fun i => finished.lookup i

end Schedule

/-- What can be handed over when some jobs, of which those given have numbers from `first` on, are
finished: all results, or the first failure, or nothing yet since the next result is not there. -/
def collect {ε α β : Type} (work : α → Except ε β) (finished : List Nat) :
    (first : Nat) → List α → Option (Except ε (List β))
  | _, [] => some (.ok [])
  | first, job :: jobs =>
    if first ∈ finished then
      match work job with
      | .ok result => (collect work finished (first + 1) jobs).map (·.map (result :: ·))
      | .error e => some (.error e)
    else none

end MarketFormula.Pool
