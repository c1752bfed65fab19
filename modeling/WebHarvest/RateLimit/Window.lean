import WebHarvest.RateLimit.TimeScale

/-!
# Sliding windows

A sliding window remembers when its last requests were let through. At a time `now` a stamp counts
while it is later than `now` minus the length of the window; when `quota` stamps count, the next
request has to wait until the oldest of them stops counting. A window whose length is beyond the
time scale can be made, but not asked.
-/

set_option autoImplicit false

namespace WebHarvest.RateLimit

/-- At most `quota` requests within `windowMs` milliseconds; `stamps` holds the times of the
requests that were let through, oldest first. -/
structure SlidingWindow (τ : Type) where
  quota : Nat
  windowMs : Int
  stamps : List τ := []
  deriving DecidableEq, Repr

namespace SlidingWindow

variable {τ : Type}

/-- An empty window. Quota and length have to be positive. -/
def ofQuota (quota windowMs : Int) : Except Failure (SlidingWindow τ) :=
  if quota < 1 || windowMs < 1 then .error (.value "quota and window_ms must be >= 1")
  else .ok ⟨quota.toNat, windowMs, []⟩

def record (window : SlidingWindow τ) (now : τ) : SlidingWindow τ :=
  { window with stamps := window.stamps ++ [now] }

variable [TimeScale τ]

open TimeScale

/-- Drops the stamps at the front that no longer count. -/
def purge (window : SlidingWindow τ) (now : τ) : Except Failure (SlidingWindow τ) := do
  let cutoff := minus now (← span window.windowMs)
  return { window with stamps := window.stamps.dropWhile (atMost · cutoff) }

/-- How long a request has to wait, after purging; zero when there is room now. -/
def wait (window : SlidingWindow τ) (now : τ) : Except Failure (SlidingWindow τ × τ) := do
  let window ← window.purge now
  match window.stamps with
  | oldest :: _ =>
      if window.stamps.length < window.quota then return (window, zero)
      else
        let delay := minus (plus oldest (← span window.windowMs)) now
        return (window, if atMost delay zero then zero else delay)
  | [] => return (window, zero)

/-- Lets a request through, or tells how long to wait before asking again. The clock is read once to
check and once more to record. -/
def poll (window : SlidingWindow τ) (checked recorded : τ) :
    Except Failure (SlidingWindow τ × Option τ) := do
  let (window, delay) ← window.wait checked
  if atMost delay zero then return (window.record recorded, none)
  else return (window, some delay)

end SlidingWindow

end WebHarvest.RateLimit
