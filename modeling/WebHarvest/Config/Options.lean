import WebHarvest.Config.Check
import WebHarvest.RateLimit.Limiter

/-!
# Checking options and quotas

The checks of retry policies, of the options of one harvest, and of rate limits, and the records
that show them field by field.
-/

set_option autoImplicit false

namespace WebHarvest

open Check

private def ofList? : Option (List String) → Value
  | some items => .list (items.map .text)
  | none => .null

private def ofNat? (n : Option Nat) : Value := .ofInt? (n.map Int.ofNat)

private def backoffStrategy : Value → Checked BackoffStrategy :=
  enumeration BackoffStrategy.all BackoffStrategy.name

private def texts : Value → Checked (List String) := list .host text

namespace RetryPolicy

def check (value : Value) : Checked RetryPolicy :=
  (fields "RetryPolicy" .host value).andThen fun entries =>
    let default : RetryPolicy := {}
    mk <$> field entries "max_attempts" (natAtLeast 1) (.accepted default.maxAttempts)
      <*> field entries "backoff" backoffStrategy (.accepted default.backoff)
      <*> field entries "base_delay_ms" (natAtLeast 0) (.accepted default.baseDelayMs)
      <*> field entries "max_backoff_ms" (natAtLeast 0) (.accepted default.maxBackoffMs)
      <*> field entries "retry_on" (nullable texts) (.accepted none)

def record (policy : RetryPolicy) : Record :=
  [("max_attempts", .ofNat policy.maxAttempts), ("backoff", .text policy.backoff.name),
    ("base_delay_ms", .ofNat policy.baseDelayMs), ("max_backoff_ms", .ofNat policy.maxBackoffMs),
    ("retry_on", ofList? policy.retryOn)]

end RetryPolicy

namespace WaitForSelector

def check (value : Value) : Checked WaitForSelector :=
  (fields "WaitForSelector" .host value).andThen fun entries =>
    mk <$> field entries "state" (literal ["attached", "detached", "visible", "hidden"])
        (.accepted "visible")
      <*> field entries "timeout_ms" (nullable int) (.accepted none)

def record (wait : WaitForSelector) : Record :=
  [("state", .text wait.state), ("timeout_ms", .ofInt? wait.timeoutMs)]

end WaitForSelector

namespace ScreenshotOptions

private def qualityOf (value : Value) : Checked Nat :=
  Int.toNat <$> ((int value).ensure (· ≤ 100) (.atMost 100)).ensure (0 ≤ ·) (.atLeast 0)

def check (value : Value) : Checked ScreenshotOptions :=
  (fields "ScreenshotOptions" .host value).andThen fun entries =>
    mk <$> field entries "path" (nullable Check.path) (.accepted none)
      <*> field entries "full_page" bool (.accepted false)
      <*> field entries "type" (literal ["png", "jpeg"]) (.accepted "png")
      <*> field entries "quality" (nullable qualityOf) (.accepted none)

def record (shot : ScreenshotOptions) : Record :=
  [("path", .ofText? shot.path), ("full_page", .bool shot.fullPage), ("type", .text shot.type),
    ("quality", ofNat? shot.quality)]

end ScreenshotOptions

namespace HarvestOptions

/-- Options that are ones already are taken as they are; a mapping is validated. -/
def check : Value → Checked HarvestOptions
  | .options options => .accepted options
  | value => (fields "HarvestOptions" .host value).andThen fun entries =>
      mk <$> field entries "retries" (nullable (natAtLeast 0)) (.accepted none)
        <*> field entries "backoff" (nullable backoffStrategy) (.accepted none)
        <*> field entries "base_delay_ms" (nullable (natAtLeast 0)) (.accepted none)
        <*> field entries "max_backoff_ms" (nullable (natAtLeast 0)) (.accepted none)
        <*> field entries "retry_on" (nullable texts) (.accepted none)
        <*> field entries "timeout_ms" (nullable (natAtLeast 1)) (.accepted none)
        <*> field entries "wait_until"
          (literal ["load", "domcontentloaded", "networkidle", "commit"])
          (.accepted "domcontentloaded")
        <*> field entries "wait_for_load_state"
          (nullable (literal ["load", "domcontentloaded", "networkidle"])) (.accepted none)
        <*> field entries "wait_for_selector" WaitForSelector.check (.accepted {})
        <*> field entries "screenshot" (nullable ScreenshotOptions.check) (.accepted none)

def record (options : HarvestOptions) : Record :=
  [("retries", ofNat? options.retries), ("backoff", .ofText? (options.backoff.map (·.name))),
    ("base_delay_ms", ofNat? options.baseDelayMs),
    ("max_backoff_ms", ofNat? options.maxBackoffMs), ("retry_on", ofList? options.retryOn),
    ("timeout_ms", ofNat? options.timeoutMs), ("wait_until", .text options.waitUntil),
    ("wait_for_load_state", .ofText? options.waitForLoadState),
    ("wait_for_selector", .record options.waitForSelector.record),
    ("screenshot", match options.screenshot with
      | some shot => .record shot.record
      | none => .null)]

end HarvestOptions

namespace RateLimit

namespace RateWindow

/-- A quota and its window are at least 1. -/
def positive (value : Value) : Checked Nat :=
  Int.toNat <$> (int value).ensure (1 ≤ ·) (.rule "rate limit requests and window_ms must be >= 1")

/-- The short name `per` stands for `window_ms` where that is not given. -/
def spellOut (entries : List (Value × Value)) : List (Value × Value) :=
  match Value.lookup? "per" entries, Value.lookup? "window_ms" entries with
  | some per, none => entries ++ [(.text "window_ms", per)]
  | _, _ => entries

def check (value : Value) : Checked RateWindow :=
  (fields "RateWindow" .host value).andThen fun entries =>
    let entries := spellOut entries
    mk <$> required entries "requests" positive <*> required entries "window_ms" positive

def record (rate : RateWindow) : Record :=
  [("requests", .ofNat rate.requests), ("window_ms", .ofNat rate.windowMs)]

end RateWindow

namespace RateLimitConfig

def spellOut (entries : List (Value × Value)) : List (Value × Value) :=
  if (Value.lookup? "requests" entries).isSome then [(.text "global", .map entries)] else entries

def check (value : Value) : Checked RateLimitConfig :=
  (fields "RateLimitConfig" .host value).andThen fun entries =>
    let entries := spellOut entries
    -- The global quota goes by two names, of which the first one counts more.
    mk <$> field entries "global" (nullable RateWindow.check)
        (field entries "global_" (nullable RateWindow.check) (.accepted none))
      <*> field entries "per_domain" (nullable RateWindow.check) (.accepted none)

private def ofWindow? : Option RateWindow → Value
  | some rate => .record rate.record
  | none => .null

def record (config : RateLimitConfig) : Record :=
  [("global_", ofWindow? config.global), ("per_domain", ofWindow? config.perDomain)]

end RateLimitConfig

end RateLimit

end WebHarvest
