import WebHarvest.RateLimit.Window
import WebHarvest.Url.Host

/-!
# The rate limiter

A limiter holds back requests until the global scope and the scope of the target's domain allow
them. The scopes are asked one after the other, the global one first; a domain's scope comes into
being when its first request asks for it.
-/

set_option autoImplicit false

namespace WebHarvest.RateLimit

/-- A quota: so many requests within so many milliseconds. -/
structure RateWindow where
  requests : Nat
  windowMs : Nat
  deriving DecidableEq, Repr

structure RateLimitConfig where
  global : Option RateWindow := none
  perDomain : Option RateWindow := none
  deriving DecidableEq, Repr

/-- What a quota is counted for. -/
inductive Scope where
  | global
  | domain (name : String)
  deriving DecidableEq, Repr

def Scope.name : Scope → String
  | .global => "global"
  | .domain name => name

/-- The windows of a limiter: the global one, and those of the domains that were asked for. -/
structure Limiter (τ : Type) where
  global : Option (SlidingWindow τ) := none
  perDomain : Option RateWindow := none
  domains : List (String × SlidingWindow τ) := []
  deriving DecidableEq, Repr

def RateWindow.window {τ : Type} (rate : RateWindow) : SlidingWindow τ :=
  ⟨rate.requests, rate.windowMs, []⟩

namespace Limiter

variable {τ : Type}

/-- The limiter of a configuration; without one, nothing is limited. -/
def ofConfig : Option RateLimitConfig → Limiter τ
  | none => {}
  | some config => { global := config.global.map (·.window), perDomain := config.perDomain }

def enabled (limiter : Limiter τ) : Bool := limiter.global.isSome || limiter.perDomain.isSome

def ensureDomain (limiter : Limiter τ) (name : String) : Limiter τ :=
  match limiter.perDomain with
  | none => limiter
  | some rate =>
      if limiter.domains.any (·.1 == name) then limiter
      else { limiter with domains := limiter.domains ++ [(name, rate.window)] }

def window? (limiter : Limiter τ) : Scope → Option (SlidingWindow τ)
  | .global => limiter.global
  | .domain name => (limiter.domains.find? (·.1 == name)).map (·.2)

def setWindow (limiter : Limiter τ) (window : SlidingWindow τ) : Scope → Limiter τ
  | .global => { limiter with global := some window }
  | .domain name =>
      { limiter with
        domains := limiter.domains.map fun (n, w) => if n == name then (n, window) else (n, w) }

/-- Asks a scope for a slot: `none` when the slot is taken, or a delay after which to ask again. A
scope without a quota always has a slot. -/
def poll [TimeScale τ] (limiter : Limiter τ) (scope : Scope) (checked recorded : τ) :
    Limiter τ × Except Failure (Option τ) :=
  let limiter := match scope with
    | .global => limiter
    | .domain name => limiter.ensureDomain name
  match limiter.window? scope with
  | none => (limiter, .ok none)
  | some window =>
      match window.poll checked recorded with
      | .error failure => (limiter, .error failure)
      | .ok (window, delay) => (limiter.setWindow window scope, .ok delay)

end Limiter

/-- The scopes that a target has to pass, in the order in which they are asked. -/
def scopesOf (target : String) : List Scope :=
  .global :: ((Url.host? target).map Scope.domain).toList

end WebHarvest.RateLimit
