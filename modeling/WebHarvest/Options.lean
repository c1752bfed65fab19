/-!
# Options of one harvest

What a caller may ask of a single harvest: how often to try and how long to pause in between, what
to wait for, and whether to take a picture. Every field that is left open falls back to the
harvester's own settings.
-/

set_option autoImplicit false

namespace WebHarvest

/-- How the pause between attempts grows. -/
inductive BackoffStrategy where
  | exponential
  | linear
  deriving DecidableEq, Repr

namespace BackoffStrategy

def all : List BackoffStrategy := [exponential, linear]

def name : BackoffStrategy → String
  | exponential => "exponential"
  | linear => "linear"

def ofName? (s : String) : Option BackoffStrategy := all.find? (·.name == s)

end BackoffStrategy

/-- How one logical operation is retried. An absent `retryOn` allows every kind of error. -/
structure RetryPolicy where
  maxAttempts : Nat := 1
  backoff : BackoffStrategy := .exponential
  baseDelayMs : Nat := 1000
  maxBackoffMs : Nat := 10000
  retryOn : Option (List String) := none
  deriving DecidableEq, Repr

/-- What to wait for after a page has opened: the state that the selector has to reach. -/
structure WaitForSelector where
  state : String := "visible"
  timeoutMs : Option Int := none
  deriving DecidableEq, Repr

/-- A picture of a page. The quality belongs to the `jpeg` format. -/
structure ScreenshotOptions where
  path : Option String := none
  fullPage : Bool := false
  type : String := "png"
  quality : Option Nat := none
  deriving DecidableEq, Repr

structure HarvestOptions where
  retries : Option Nat := none
  backoff : Option BackoffStrategy := none
  baseDelayMs : Option Nat := none
  maxBackoffMs : Option Nat := none
  retryOn : Option (List String) := none
  timeoutMs : Option Nat := none
  waitUntil : String := "domcontentloaded"
  waitForLoadState : Option String := none
  waitForSelector : WaitForSelector := {}
  screenshot : Option ScreenshotOptions := none
  deriving DecidableEq, Repr

/-- The policy of one call: each retry field that the call sets replaces the default's. A number of
retries allows one attempt more. -/
def HarvestOptions.retryPolicy (options : HarvestOptions) (default : RetryPolicy) :
    RetryPolicy where
  maxAttempts := (options.retries.map (· + 1)).getD default.maxAttempts
  backoff := options.backoff.getD default.backoff
  baseDelayMs := options.baseDelayMs.getD default.baseDelayMs
  maxBackoffMs := options.maxBackoffMs.getD default.maxBackoffMs
  retryOn := options.retryOn.orElse fun _ => default.retryOn

end WebHarvest
