import WebHarvest.Browser.Call
import WebHarvest.Failure
import WebHarvest.RateLimit.Limiter
import WebHarvest.Signal.Kind
import WebHarvest.Telemetry

/-!
# Programs

Operations of the library are programs: trees of requests to the host, each with a continuation for
every possible reply. A program says what is asked for and in which order; it does not say what the
replies are, how long they take, or what other programs do in the meantime. That is up to the host
that runs it, so statements about a program hold for every host.
-/

set_option autoImplicit false

namespace WebHarvest

/-- What a program can ask of its host. -/
inductive Request where
  /-- The time of the clock, in microseconds. -/
  | now
  /-- Whole milliseconds since a time of the clock. -/
  | elapsed (since : Int)
  /-- A pause of so many milliseconds, unless that is too long. -/
  | pause (millis : Int)
  | log (record : LogRecord)
  /-- Emits a signal; this fails when its line cannot be added to the ledger. -/
  | emit (kind : SignalKind) (payload : List (Value × Value))
  /-- Waits until a scope of the rate limiter lets a target through. -/
  | takeSlot (scope : RateLimit.Scope) (target : String)
  | observe (failure : Failure) (details : List (Value × Value))
  /-- Begins a count of settled jobs; the reply is its number. -/
  | beginCount
  /-- Counts a job as settled in the count with a number; the reply is the new count. -/
  | countSettled (number : Nat)
  /-- Calls the progress callback. -/
  | progress (completed total : Nat)
  | perform (operation : String)
  | browser (call : Browser.Call)
  | pageUrl (page : Browser.PageId)
  /-- Makes the directories above a path. -/
  | makeParents (path : String)
  | writeFile (path text : String)
  /-- The text of a file. -/
  | readFile (path : String)
  /-- Saves a state under a session id; the reply is the path of its file. -/
  | saveSession (id : String) (state : Value)
  /-- The state saved under a session id. -/
  | loadSession (id : String)
  | sessionPath (id : String)

def Request.Reply : Request → Type
  | now => Int
  | elapsed _ => Int
  | pause _ => Except Failure Unit
  | log _ => Unit
  | emit .. => Except Failure Unit
  | takeSlot .. => Except Failure Unit
  | observe .. => Except Failure Unit
  | beginCount => Nat
  | countSettled _ => Nat
  | progress .. => Except Failure Unit
  | perform _ => Except Failure Value
  | browser _ => Except Failure Value
  | pageUrl _ => String
  | makeParents _ => Except Failure Unit
  | writeFile .. => Except Failure Unit
  | readFile _ => Except Failure String
  | saveSession .. => Except Failure String
  | loadSession _ => Except Failure Value
  | sessionPath _ => Except Failure String

/-- A program with a result of type `α`. -/
inductive Program (α : Type) where
  | done (result : α)
  | ask (request : Request) (next : request.Reply → Program α)

namespace Program

variable {α β : Type}

def bind (program : Program α) (next : α → Program β) : Program β :=
  match program with
  | done result => next result
  | ask request rest => ask request fun reply => (rest reply).bind next

instance : Monad Program where
  pure := done
  bind := bind

def request (r : Request) : Program r.Reply := ask r done

@[simp] theorem done_bind (result : α) (next : α → Program β) :
    (done result).bind next = next result := rfl

theorem bind_done (program : Program α) : program.bind done = program := by
  induction program with
  | done => rfl
  | ask r rest ih => simp only [bind, ih]

theorem bind_assoc {γ : Type} (program : Program α) (f : α → Program β) (g : β → Program γ) :
    (program.bind f).bind g = program.bind fun a => (f a).bind g := by
  induction program with
  | done => rfl
  | ask r rest ih => simp only [bind, ih]

instance : LawfulMonad Program :=
  LawfulMonad.mk' Program bind_done (fun _ _ => rfl) bind_assoc

end Program

abbrev Action := ExceptT Failure Program

namespace Action

variable {α : Type}

/-- A request whose reply is no failure. -/
def query (r : Request) : Action r.Reply := ExceptT.lift (Program.request r)

def now : Action Int := query .now

def elapsed (since : Int) : Action Int := query (.elapsed since)

def pause (millis : Int) : Action Unit := ExceptT.mk (Program.request (.pause millis))

def log (record : LogRecord) : Action Unit := query (.log record)

def emit (kind : SignalKind) (payload : List (Value × Value)) : Action Unit :=
  ExceptT.mk (Program.request (.emit kind payload))

/-- Waits until the limiter admits a request for a target. -/
def takeSlot (scope : RateLimit.Scope) (target : String) : Action Unit :=
  ExceptT.mk (Program.request (.takeSlot scope target))

def observe (failure : Failure) (details : List (Value × Value)) : Action Unit :=
  ExceptT.mk (Program.request (.observe failure details))

def progress (completed total : Nat) : Action Unit :=
  ExceptT.mk (Program.request (.progress completed total))

def perform (operation : String) : Action Value :=
  ExceptT.mk (Program.request (.perform operation))

def browser (call : Browser.Call) : Action Value := ExceptT.mk (Program.request (.browser call))

def writeFile (path text : String) : Action Unit :=
  ExceptT.mk (Program.request (.writeFile path text))

def readFile (path : String) : Action String := ExceptT.mk (Program.request (.readFile path))

def makeParents (path : String) : Action Unit :=
  ExceptT.mk (Program.request (.makeParents path))

def sessionPath (id : String) : Action String :=
  ExceptT.mk (Program.request (.sessionPath id))

/-- Saves a state under a session id; the result is the path of its file. -/
def saveSession (id : String) (state : Value) : Action String :=
  ExceptT.mk (Program.request (.saveSession id state))

def loadSession (id : String) : Action Value := ExceptT.mk (Program.request (.loadSession id))

def attempt (action : Action α) : Action (Except Failure α) := ExceptT.lift action.run

def settle (outcome : Except Failure α) : Action α := ExceptT.mk (.done outcome)

/-- Handles the failures that `handles` accepts; all others go on. -/
def recover (action : Action α) (handles : Failure → Bool) (handler : Failure → Action α) :
    Action α := do
  match ← action.attempt with
  | .ok result => return result
  | .error failure => if handles failure then handler failure else throw failure

/-- Runs `cleanup` whatever happens. A failure of the cleanup replaces the outcome. -/
def ensuring (action : Action α) (cleanup : Action Unit) : Action α := do
  let outcome ← action.attempt
  cleanup
  settle outcome

end Action

end WebHarvest
