import WebHarvest.Program.Basic

/-!
# Running programs

A host replies to requests from a state of its own. It may reply at once, or work out its reply
after a delay, or put the request off: then it is asked again when the delay is over. Several
programs share a host and a clock. Each runs until it has to wait; the clock moves only when all of
them wait, to the earliest wake-up, and of two wake-ups at one time the one that was registered
first comes first.

Programs that run together may all be given up when one of them ends in a certain way. Those that
sleep then are strays: nobody waits for their results, but they go on whenever the clock moves past
their wake-ups on behalf of others.
-/

set_option autoImplicit false

namespace WebHarvest

/-- The answer of a host with states of type `σ` to a request. -/
inductive Answer (σ ρ : Type) where
  | now (reply : ρ)
  /-- The reply comes when the delay is over, and is worked out only then, from the time and the
  state that there are then. -/
  | later (delay : Int) (finish : Int → σ → σ × ρ)
  /-- The same request is made again when the delay is over. -/
  | putOff (delay : Int)

/-- A host with states of type `σ`: how it answers at a given time. -/
structure Host (σ : Type) where
  answer : (request : Request) → Int → σ → σ × Answer σ request.Reply

/-- What a program has come to when it stops running: its result, or a delay and how it goes on when
that is over. -/
inductive Pause (σ α : Type) where
  | finished (result : α)
  | asleep (delay : Int) (wakeUp : Int → σ → σ × Program α)

/-- Runs a program until it ends or has to wait. -/
def Program.advance {σ α : Type} (host : Host σ) (now : Int) : Program α → σ → σ × Pause σ α
  | .done result, state => (state, .finished result)
  | .ask request next, state =>
      match host.answer request now state with
      | (state, .now reply) => (next reply).advance host now state
      | (state, .later delay finish) =>
          (state, .asleep delay fun woken state =>
            let (state, reply) := finish woken state
            (state, next reply))
      | (state, .putOff delay) => (state, .asleep delay fun _ state => (state, .ask request next))

/-- A program that waits: its number, the time of its wake-up, and the number under which the
wake-up was registered. -/
structure Sleeper (σ α : Type) where
  task : Nat
  wake : Int
  registration : Nat
  wakeUp : Int → σ → σ × Program α

namespace Sleeper

variable {σ α β : Type}

def before (a : Sleeper σ α) (b : Sleeper σ β) : Bool :=
  a.wake < b.wake || (a.wake == b.wake && a.registration < b.registration)

def earliest : List (Sleeper σ α) → Option (Sleeper σ α)
  | [] => none
  | sleeper :: rest =>
      match earliest rest with
      | none => some sleeper
      | some other => some (if other.before sleeper then other else sleeper)

/-- The same program with a result that says nothing. -/
def abandon (sleeper : Sleeper σ α) : Sleeper σ Unit :=
  ⟨sleeper.task, sleeper.wake, sleeper.registration, fun now state =>
    let (state, program) := sleeper.wakeUp now state
    (state, (fun _ => ()) <$> program)⟩

end Sleeper

/-- A clock, a host's state at that time, how many wake-ups have been registered, and the programs
that go on although nobody waits for them. -/
structure Moment (σ : Type) where
  now : Int
  state : σ
  registered : Nat := 0
  strays : List (Sleeper σ Unit) := []

namespace Moment

variable {σ α : Type}

def initial (state : σ) : Moment σ := { now := 0, state }

def sleeper (moment : Moment σ) (task : Nat) (delay : Int) (wakeUp : Int → σ → σ × Program α) :
    Sleeper σ α :=
  ⟨task, moment.now + delay, moment.registered, wakeUp⟩

/-- Moves the clock to the wake-up of a stray and lets it run until it ends or has to wait again. -/
def wakeStray (host : Host σ) (moment : Moment σ) (stray : Sleeper σ Unit) : Moment σ :=
  let now := max moment.now stray.wake
  let (state, program) := stray.wakeUp now moment.state
  let others := moment.strays.filter (·.registration != stray.registration)
  match program.advance host now state with
  | (state, .finished ()) => { moment with now, state, strays := others }
  | (state, .asleep delay wakeUp) =>
      let moment := { moment with now, state }
      { moment with
        registered := moment.registered + 1
        strays := others ++ [moment.sleeper stray.task delay wakeUp] }

end Moment

/-- Programs that run together from a moment on. `finished` holds the results of those that have
ended, with their numbers, in the order in which they ended. -/
structure Schedule (σ α : Type) extends Moment σ where
  sleepers : List (Sleeper σ α) := []
  finished : List (Nat × α) := []

namespace Schedule

variable {σ α : Type}

/-- Lets one program run until it ends or has to wait. -/
def resume (host : Host σ) (schedule : Schedule σ α) (task : Nat) (program : Program α) :
    Schedule σ α :=
  match program.advance host schedule.now schedule.state with
  | (state, .finished result) =>
      { schedule with state, finished := schedule.finished ++ [(task, result)] }
  | (state, .asleep delay wakeUp) =>
      { schedule with
        state
        registered := schedule.registered + 1
        sleepers := schedule.sleepers ++ [schedule.sleeper task delay wakeUp] }

/-- Starts programs in order; their numbers are their positions. -/
def start (host : Host σ) (moment : Moment σ) (programs : List (Program α)) : Schedule σ α :=
  programs.zipIdx.foldl (fun schedule (program, task) => schedule.resume host task program)
    { moment with }

def wake (host : Host σ) (schedule : Schedule σ α) (sleeper : Sleeper σ α) : Schedule σ α :=
  let now := max schedule.now sleeper.wake
  let (state, program) := sleeper.wakeUp now schedule.state
  let awake : Schedule σ α :=
    { schedule with
      now, state
      sleepers := schedule.sleepers.filter (·.registration != sleeper.registration) }
  awake.resume host sleeper.task program

/-- Lets the program with the earliest wake-up run, strays included. There is no step when only
strays are left. -/
def step (host : Host σ) (schedule : Schedule σ α) : Option (Schedule σ α) :=
  (Sleeper.earliest schedule.sleepers).map fun sleeper =>
    match (Sleeper.earliest schedule.strays).filter (·.before sleeper) with
    | some stray => { schedule with toMoment := schedule.toMoment.wakeStray host stray }
    | none => schedule.wake host sleeper

/-- Wakes programs until all have ended, or one has ended in a way on which the others are given up.
The number of wake-ups is bounded by `wakeups`. -/
def run (host : Host σ) (stops : α → Bool) : Nat → Schedule σ α → Schedule σ α
  | 0, schedule => schedule
  | wakeups + 1, schedule =>
      if schedule.finished.any fun (_, result) => stops result then schedule
      else
        match schedule.step host with
        | none => schedule
        | some next => next.run host stops wakeups

/-- What is left when nobody waits for the programs any more: those that still sleep are strays. -/
def rest (schedule : Schedule σ α) : Moment σ :=
  { schedule.toMoment with
    strays := schedule.strays ++ schedule.sleepers.map Sleeper.abandon }

end Schedule

namespace Moment

variable {σ α : Type}

/-- Runs programs together until all have ended or are given up. The results are in the order in
which the programs ended. -/
def runAll (host : Host σ) (wakeups : Nat) (stops : α → Bool) (moment : Moment σ)
    (programs : List (Program α)) : Moment σ × List (Nat × α) :=
  let schedule := (Schedule.start host moment programs).run host stops wakeups
  (schedule.rest, schedule.finished)

/-- Runs one program to its end; without a result when the wake-ups did not suffice. -/
def run (host : Host σ) (wakeups : Nat) (moment : Moment σ) (program : Program α) :
    Moment σ × Option α :=
  let (moment, finished) := moment.runAll host wakeups (fun _ => false) [program]
  (moment, finished.head?.map (·.2))

def perform (host : Host σ) (wakeups : Nat) (moment : Moment σ) (action : Action α) :
    Moment σ × Except Failure α :=
  let (moment, result) := moment.run host wakeups action.run
  (moment, result.getD (.error (.raised .timeout none)))

def pass (host : Host σ) (wakeups : Nat) (moment : Moment σ) (delay : Int) : Moment σ :=
  let waiting : Schedule σ Unit :=
    { moment with
      registered := moment.registered + 1
      sleepers := [moment.sleeper 0 delay fun _ state => (state, .done ())] }
  (waiting.run host (fun _ => false) wakeups).rest

end Moment

end WebHarvest
