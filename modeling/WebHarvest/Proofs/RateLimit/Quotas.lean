import WebHarvest.Config.Options
import WebHarvest.Proofs.Outcome
import WebHarvest.Proofs.RateLimit.Limiter

/-!
# Which quotas a limiter enforces

A dictionary holds quotas for the global scope and for the domains, or, in the flat form, the
numbers of a global quota. The limiter that is made of it has a window with exactly these numbers in
each scope, whatever it is asked; how the dictionary spells a quota makes no difference. But in the
flat form nothing else is looked at: a quota for the domains that stands beside it is lost.
-/

set_option autoImplicit false

namespace WebHarvest

namespace Checked

variable {α β : Type}

theorem map_eq_accepted_iff {f : α → β} {x : Checked α} {result : β} :
    f <$> x = .accepted result ↔ ∃ value, x = .accepted value ∧ f value = result := by
  cases x with
  | accepted value =>
      constructor
      · intro same
        exact ⟨value, rfl, accepted.inj same⟩
      · rintro ⟨_, ⟨⟩, rfl⟩
        rfl
  | rejected issues => exact ⟨nofun, nofun⟩
  | broken failure => exact ⟨nofun, nofun⟩

theorem seq_eq_accepted_iff {f : Checked (α → β)} {x : Checked α} {result : β} :
    f <*> x = .accepted result ↔
      ∃ make value, f = .accepted make ∧ x = .accepted value ∧ make value = result := by
  cases f with
  | accepted make =>
      cases x with
      | accepted value =>
          constructor
          · intro same
            exact ⟨make, value, rfl, rfl, accepted.inj same⟩
          · rintro ⟨_, _, ⟨⟩, ⟨⟩, rfl⟩
            rfl
      | rejected issues => exact ⟨nofun, nofun⟩
      | broken failure => exact ⟨nofun, nofun⟩
  | rejected issues => cases x <;> exact ⟨nofun, nofun⟩
  | broken failure => exact ⟨nofun, nofun⟩

theorem under_eq_accepted_iff {step : PlaceStep} {x : Checked α} {result : α} :
    x.under step = .accepted result ↔ x = .accepted result := by
  cases x with
  | accepted value => exact Iff.rfl
  | rejected issues => exact ⟨nofun, nofun⟩
  | broken failure => exact Iff.rfl

theorem ensure_eq_accepted_iff {x : Checked α} {rule : α → Bool} {cause : IssueCause}
    {result : α} :
    x.ensure rule cause = .accepted result ↔ x = .accepted result ∧ rule result = true := by
  cases x with
  | accepted value =>
      unfold ensure andThen
      dsimp only
      split
      · rename_i holds
        exact ⟨fun same => accepted.inj same ▸ ⟨rfl, holds⟩, fun said => said.1⟩
      · rename_i fails
        refine ⟨nofun, ?_⟩
        rintro ⟨⟨⟩, holds⟩
        exact absurd holds fails
  | rejected issues => exact ⟨nofun, nofun⟩
  | broken failure => exact ⟨nofun, nofun⟩

end Checked

theorem Value.lookup?_append (key : String) (first second : List (Value × Value)) :
    lookup? key (first ++ second) = (lookup? key first).or (lookup? key second) := by
  induction first with
  | nil => rfl
  | cons entry rest ih =>
      obtain ⟨name, value⟩ := entry
      cases name with
      | text name =>
          rw [List.cons_append, lookup?, lookup?]
          split
          · rfl
          · exact ih
      | _ => exact ih

namespace RateLimit

open Value

section Numbers

variable {entries others : List (Value × Value)} {value : Value} {rate : RateWindow}

/-- What a dictionary says of the length of a window; `per` counts where `window_ms` is absent. -/
def RateWindow.lengthGiven (entries : List (Value × Value)) : Option Value :=
  (lookup? "window_ms" entries).or (lookup? "per" entries)

/-- A quota of exactly the numbers that a dictionary holds. -/
structure RateWindow.IsReadFrom (entries : List (Value × Value)) (rate : RateWindow) : Prop where
  requests : ∃ value, lookup? "requests" entries = some value ∧
    Check.int value = .accepted rate.requests
  length : ∃ value, lengthGiven entries = some value ∧ Check.int value = .accepted rate.windowMs
  positive : 0 < rate.requests ∧ 0 < rate.windowMs

/-- Values that hold the same quota, if any, and may spell it in different ways. -/
inductive RateWindow.Alike : Value → Value → Prop where
  | same {value : Value} : Alike value value
  | maps {entries others : List (Value × Value)}
      (requests : lookup? "requests" entries = lookup? "requests" others)
      (length : lengthGiven entries = lengthGiven others) : Alike (.map entries) (.map others)

namespace RateWindow

theorem lookup?_spellOut (entries : List (Value × Value)) :
    lookup? "requests" (spellOut entries) = lookup? "requests" entries ∧
      lookup? "window_ms" (spellOut entries) = lengthGiven entries := by
  unfold spellOut lengthGiven
  cases per : lookup? "per" entries with
  | none => exact ⟨rfl, by rw [Option.or_none]⟩
  | some value =>
      cases given : lookup? "window_ms" entries with
      | some length => exact ⟨rfl, given⟩
      | none =>
          dsimp only
          rw [lookup?_append, lookup?_append, given]
          exact ⟨Option.or_none, rfl⟩

theorem positive_eq_accepted_iff {number : Nat} :
    positive value = .accepted number ↔ Check.int value = .accepted number ∧ 0 < number := by
  unfold positive
  rw [Checked.map_eq_accepted_iff]
  constructor
  · rintro ⟨read, accepted, rfl⟩
    obtain ⟨isRead, atLeast⟩ := Checked.ensure_eq_accepted_iff.mp accepted
    have low : 1 ≤ read := of_decide_eq_true atLeast
    rw [Int.toNat_of_nonneg (by omega)]
    exact ⟨isRead, by omega⟩
  · rintro ⟨isRead, low⟩
    refine ⟨number, Checked.ensure_eq_accepted_iff.mpr ⟨isRead, ?_⟩, Int.toNat_natCast number⟩
    exact decide_eq_true (by omega)

theorem required_eq_accepted_iff {name : String} {number : Nat} :
    Check.required entries name positive = .accepted number ↔
      (∃ value, lookup? name entries = some value ∧ Check.int value = .accepted number) ∧
        0 < number := by
  unfold Check.required Check.field
  cases lookup? name entries with
  | none => exact ⟨nofun, nofun⟩
  | some value =>
      dsimp only
      rw [Checked.under_eq_accepted_iff, positive_eq_accepted_iff]
      constructor
      · rintro ⟨isRead, low⟩
        exact ⟨⟨value, rfl, isRead⟩, low⟩
      · rintro ⟨⟨_, ⟨⟩, isRead⟩, low⟩
        exact ⟨isRead, low⟩

theorem check_map (entries : List (Value × Value)) :
    check (.map entries) = mk <$> Check.required (spellOut entries) "requests" positive <*>
      Check.required (spellOut entries) "window_ms" positive := rfl

/-- What is accepted as a quota are the numbers that a dictionary holds. -/
theorem check_eq_accepted_iff :
    check value = .accepted rate ↔ ∃ entries, value = .map entries ∧ rate.IsReadFrom entries := by
  cases value with
  | map entries =>
      obtain ⟨requests, length⟩ := lookup?_spellOut entries
      rw [check_map, Checked.seq_eq_accepted_iff]
      constructor
      · rintro ⟨make, windowMs, made, lengthRead, rfl⟩
        obtain ⟨quota, requestsRead, rfl⟩ := Checked.map_eq_accepted_iff.mp made
        rw [required_eq_accepted_iff, requests] at requestsRead
        rw [required_eq_accepted_iff, length] at lengthRead
        exact ⟨entries, rfl, requestsRead.1, lengthRead.1, requestsRead.2, lengthRead.2⟩
      · rintro ⟨_, ⟨⟩, reads⟩
        refine ⟨mk rate.requests, rate.windowMs, Checked.map_eq_accepted_iff.mpr
          ⟨rate.requests, ?_, rfl⟩, ?_, rfl⟩
        · rw [required_eq_accepted_iff, requests]
          exact ⟨reads.requests, reads.positive.1⟩
        · rw [required_eq_accepted_iff, length]
          exact ⟨reads.length, reads.positive.2⟩
  | _ =>
      refine ⟨nofun, ?_⟩
      rintro ⟨_, ⟨⟩, -⟩

/-- The spelling makes no difference, also where a quota is rejected. -/
theorem Alike.check {value other : Value} (alike : Alike value other) :
    RateWindow.check value = RateWindow.check other := by
  cases alike with
  | same => rfl
  | maps requests length =>
      rename_i entries others
      obtain ⟨ownRequests, ownLength⟩ := lookup?_spellOut entries
      obtain ⟨otherRequests, otherLength⟩ := lookup?_spellOut others
      rw [check_map, check_map]
      unfold Check.required Check.field
      rw [ownRequests, ownLength, otherRequests, otherLength, requests, length]

/-- A dictionary that says `window_ms` instead of `per` holds the same quota. -/
theorem alike_of_per {length : Value}
    (requests : lookup? "requests" entries = lookup? "requests" others)
    (short : lookup? "window_ms" entries = none) (per : lookup? "per" entries = some length)
    (spelled : lookup? "window_ms" others = some length) : Alike (.map entries) (.map others) := by
  refine .maps requests ?_
  rw [lengthGiven, lengthGiven, short, per, spelled]
  rfl

end RateWindow

end Numbers

section Configurations

variable {entries others flat : List (Value × Value)} {config : RateLimitConfig}

/-- A quota, if a dictionary holds one; null counts as none. -/
inductive RateWindow.IsGiven : Option Value → Option RateWindow → Prop where
  | absent : IsGiven none none
  | null : IsGiven (some .null) none
  | given {entries : List (Value × Value)} {rate : RateWindow} (reads : rate.IsReadFrom entries) :
      IsGiven (some (.map entries)) (some rate)

theorem RateWindow.IsGiven.eq_none_iff {given : Option Value} {quota : Option RateWindow}
    (isGiven : RateWindow.IsGiven given quota) :
    quota = none ↔ given = none ∨ given = some .null := by
  cases isGiven with
  | absent => exact ⟨fun _ => .inl rfl, fun _ => rfl⟩
  | null => exact ⟨fun _ => .inr rfl, fun _ => rfl⟩
  | given reads => exact ⟨nofun, fun held => by rcases held with held | held <;> cases held⟩

namespace RateLimitConfig

/-- A dictionary in the flat form, which holds the numbers of a quota itself. -/
def IsFlat (entries : List (Value × Value)) : Prop := (lookup? "requests" entries).isSome = true

/-- What a dictionary in the scoped form holds for the global scope, which goes by two names. -/
def globalGiven (entries : List (Value × Value)) : Option Value :=
  (lookup? "global" entries).or (lookup? "global_" entries)

theorem nullable_eq_accepted_iff {value : Value} {quota : Option RateWindow} :
    Check.nullable RateWindow.check value = .accepted quota ↔
      RateWindow.IsGiven (some value) quota := by
  have other (notNull : value ≠ .null) :
      some <$> RateWindow.check value = .accepted quota ↔
        RateWindow.IsGiven (some value) quota := by
    rw [Checked.map_eq_accepted_iff]
    constructor
    · rintro ⟨rate, accepted, rfl⟩
      obtain ⟨entries, rfl, reads⟩ := RateWindow.check_eq_accepted_iff.mp accepted
      exact .given reads
    · intro given
      cases given with
      | null => exact absurd rfl notNull
      | given reads => exact ⟨_, RateWindow.check_eq_accepted_iff.mpr ⟨_, rfl, reads⟩, rfl⟩
  cases value with
  | null =>
      constructor
      · rintro ⟨⟩
        exact .null
      · rintro ⟨⟩
        rfl
  | _ => exact other nofun

theorem check_map (entries : List (Value × Value)) :
    check (.map entries) =
      mk <$> Check.field (spellOut entries) "global" (Check.nullable RateWindow.check)
          (Check.field (spellOut entries) "global_" (Check.nullable RateWindow.check)
            (.accepted none)) <*>
        Check.field (spellOut entries) "per_domain" (Check.nullable RateWindow.check)
          (.accepted none) := rfl

theorem check_map_of_flat (isFlat : IsFlat entries) :
    check (.map entries) =
      mk <$> (Check.nullable RateWindow.check (.map entries)).under (.name "global") <*>
        .accepted none := by
  have spelled : spellOut entries = [(.text "global", .map entries)] := if_pos isFlat
  rw [check_map, spelled]
  rfl

theorem spellOut_of_not_flat (notFlat : ¬ IsFlat entries) : spellOut entries = entries :=
  if_neg notFlat

theorem field_eq_accepted_iff {name : String} {default quota : Option RateWindow} :
    Check.field entries name (Check.nullable RateWindow.check) (.accepted default) =
        .accepted quota ↔
      match lookup? name entries with
      | some value => RateWindow.IsGiven (some value) quota
      | none => default = quota := by
  unfold Check.field
  cases lookup? name entries with
  | none => exact ⟨Checked.accepted.inj, congrArg _⟩
  | some value =>
      dsimp only
      rw [Checked.under_eq_accepted_iff, nullable_eq_accepted_iff]

theorem field_none_eq_accepted_iff {name : String} {quota : Option RateWindow} :
    Check.field entries name (Check.nullable RateWindow.check) (.accepted none) =
        .accepted quota ↔ RateWindow.IsGiven (lookup? name entries) quota := by
  rw [field_eq_accepted_iff]
  cases lookup? name entries with
  | some value => exact Iff.rfl
  | none =>
      constructor
      · rintro rfl
        exact .absent
      · rintro ⟨⟩
        rfl

theorem global_eq_accepted_iff {quota : Option RateWindow} :
    Check.field entries "global" (Check.nullable RateWindow.check)
        (Check.field entries "global_" (Check.nullable RateWindow.check) (.accepted none)) =
        .accepted quota ↔ RateWindow.IsGiven (globalGiven entries) quota := by
  unfold globalGiven
  cases given : lookup? "global" entries with
  | none =>
      rw [Check.field, given, Option.none_or]
      exact field_none_eq_accepted_iff
  | some value =>
      rw [Check.field, given, Option.some_or]
      dsimp only
      rw [Checked.under_eq_accepted_iff, nullable_eq_accepted_iff]

/-- In the flat form there is a global quota and no other. -/
theorem check_flat_eq_accepted_iff (isFlat : IsFlat entries) :
    check (.map entries) = .accepted config ↔
      RateWindow.IsGiven (some (.map entries)) config.global ∧ config.perDomain = none := by
  rw [check_map_of_flat isFlat, Checked.seq_eq_accepted_iff]
  constructor
  · rintro ⟨make, domains, made, ⟨⟩, rfl⟩
    obtain ⟨quota, accepted, rfl⟩ := Checked.map_eq_accepted_iff.mp made
    exact ⟨nullable_eq_accepted_iff.mp (Checked.under_eq_accepted_iff.mp accepted), rfl⟩
  · rintro ⟨given, noDomains⟩
    refine ⟨mk config.global, none, Checked.map_eq_accepted_iff.mpr ⟨config.global, ?_, rfl⟩,
      rfl, ?_⟩
    · exact Checked.under_eq_accepted_iff.mpr (nullable_eq_accepted_iff.mpr given)
    · rw [← noDomains]

/-- In the scoped form each scope has the quota that is given for it. -/
theorem check_scoped_eq_accepted_iff (notFlat : ¬ IsFlat entries) :
    check (.map entries) = .accepted config ↔
      RateWindow.IsGiven (globalGiven entries) config.global ∧
        RateWindow.IsGiven (lookup? "per_domain" entries) config.perDomain := by
  rw [check_map, spellOut_of_not_flat notFlat, Checked.seq_eq_accepted_iff]
  constructor
  · rintro ⟨make, domains, made, accepted, rfl⟩
    obtain ⟨quota, acceptedGlobal, rfl⟩ := Checked.map_eq_accepted_iff.mp made
    exact ⟨global_eq_accepted_iff.mp acceptedGlobal, field_none_eq_accepted_iff.mp accepted⟩
  · rintro ⟨given, domains⟩
    exact ⟨mk config.global, config.perDomain, Checked.map_eq_accepted_iff.mpr
      ⟨config.global, global_eq_accepted_iff.mpr given, rfl⟩,
      field_none_eq_accepted_iff.mpr domains, rfl⟩

/-- Dictionaries of one form whose quotas are alike. -/
inductive Alike (entries others : List (Value × Value)) : Prop where
  | flat (isFlat : IsFlat entries) (alsoFlat : IsFlat others)
      (same : RateWindow.Alike (.map entries) (.map others))
  | nested (notFlat : ¬ IsFlat entries) (neitherFlat : ¬ IsFlat others)
      (same : ∀ name ∈ ["global", "global_", "per_domain"],
        Option.Rel RateWindow.Alike (lookup? name entries) (lookup? name others))

theorem nullable_of_alike {value other : Value} (alike : RateWindow.Alike value other) :
    Check.nullable RateWindow.check value = Check.nullable RateWindow.check other := by
  cases alike with
  | same => rfl
  | maps requests length =>
      exact congrArg (some <$> ·) (RateWindow.Alike.maps requests length).check

theorem field_of_alike {name : String} {default : Checked (Option RateWindow)}
    (alike : Option.Rel RateWindow.Alike (lookup? name entries) (lookup? name others)) :
    Check.field entries name (Check.nullable RateWindow.check) default =
      Check.field others name (Check.nullable RateWindow.check) default := by
  unfold Check.field
  revert alike
  generalize lookup? name entries = first
  generalize lookup? name others = second
  rintro (alike | _)
  · dsimp only
    rw [nullable_of_alike alike]
  · rfl

/-- The spelling of the quotas makes no difference. -/
theorem Alike.check (alike : Alike entries others) :
    RateLimitConfig.check (.map entries) = RateLimitConfig.check (.map others) := by
  cases alike with
  | flat isFlat alsoFlat same =>
      rw [check_map_of_flat isFlat, check_map_of_flat alsoFlat, nullable_of_alike same]
  | nested notFlat neitherFlat same =>
      rw [check_map, check_map, spellOut_of_not_flat notFlat, spellOut_of_not_flat neitherFlat,
        field_of_alike (same "global" (by decide)), field_of_alike (same "global_" (by decide)),
        field_of_alike (same "per_domain" (by decide))]

/-- A dictionary in the flat form, and one in the scoped form with the same quotas. -/
structure Flattens (flat entries : List (Value × Value)) : Prop where
  isFlat : IsFlat flat
  notFlat : ¬ IsFlat entries
  global : ∃ quota, lookup? "global" entries = some quota ∧ RateWindow.Alike quota (.map flat)
  perDomain : lookup? "per_domain" flat = lookup? "per_domain" entries

/-- The flat form loses the quota of the domains. -/
theorem Flattens.check (flattens : Flattens flat entries)
    (accepted : RateLimitConfig.check (.map entries) = .accepted config) :
    RateLimitConfig.check (.map flat) = .accepted { config with perDomain := none } := by
  obtain ⟨given, -⟩ := (check_scoped_eq_accepted_iff flattens.notFlat).mp accepted
  obtain ⟨quota, known, alike⟩ := flattens.global
  rw [check_flat_eq_accepted_iff flattens.isFlat]
  refine ⟨?_, rfl⟩
  rw [globalGiven, known, Option.some_or, ← nullable_eq_accepted_iff,
    nullable_of_alike alike, nullable_eq_accepted_iff] at given
  exact given

/-- Where there is no quota for the domains, the two forms say the same. -/
theorem Flattens.check_eq (flattens : Flattens flat entries)
    (noDomains : lookup? "per_domain" entries = none ∨ lookup? "per_domain" entries = some .null) :
    RateLimitConfig.check (.map flat) = RateLimitConfig.check (.map entries) := by
  obtain ⟨quota, known, alike⟩ := flattens.global
  have domains : Check.field entries "per_domain" (Check.nullable RateWindow.check)
      (.accepted none) = .accepted none := by
    rw [field_none_eq_accepted_iff]
    rcases noDomains with absent | null
    · rw [absent]
      exact .absent
    · rw [null]
      exact .null
  rw [check_map_of_flat flattens.isFlat, check_map, spellOut_of_not_flat flattens.notFlat, domains,
    Check.field, known, ← nullable_of_alike alike]

end RateLimitConfig

end Configurations

section Enforcement

variable {τ : Type}

def RateWindow.numbers (rate : RateWindow) : Nat × Int := (rate.requests, rate.windowMs)

theorem RateWindow.numbers_injective : Function.Injective RateWindow.numbers := by
  rintro ⟨requests, windowMs⟩ ⟨otherRequests, otherMs⟩ same
  obtain ⟨rfl, lengths⟩ := Prod.mk.inj same
  obtain rfl := Int.ofNat_inj.mp lengths
  rfl

namespace SlidingWindow

def numbers (window : SlidingWindow τ) : Nat × Int := (window.quota, window.windowMs)

variable [TimeScale τ] {window after : SlidingWindow τ}

theorem purge_numbers {now : τ} (purged : window.purge now = .ok after) :
    after.numbers = window.numbers := by
  obtain ⟨length, -, done⟩ := Outcome.bind_ok_iff.mp purged
  cases done
  rfl

theorem wait_numbers {now delay : τ} (waited : window.wait now = .ok (after, delay)) :
    after.numbers = window.numbers := by
  obtain ⟨purged, purges, done⟩ := Outcome.bind_ok_iff.mp waited
  rw [← purge_numbers purges]
  cases stamps : purged.stamps with
  | nil =>
      simp only [stamps] at done
      cases done
      rfl
  | cons oldest rest =>
      simp only [stamps] at done
      split at done
      · cases done
        rfl
      · obtain ⟨length, -, done⟩ := Outcome.bind_ok_iff.mp done
        cases done
        rfl

/-- To ask a window changes its stamps only. -/
theorem poll_numbers {checked recorded : τ} {delay : Option τ}
    (polled : window.poll checked recorded = .ok (after, delay)) :
    after.numbers = window.numbers := by
  obtain ⟨⟨waited, wait⟩, waits, done⟩ := Outcome.bind_ok_iff.mp polled
  rw [← wait_numbers waits]
  dsimp only at done
  split at done
  · cases done
    rfl
  · cases done
    rfl

end SlidingWindow

namespace Limiter

theorem ofConfig_windowOf (config : RateLimitConfig) (scope : Scope) :
    (Limiter.ofConfig (some config) : Limiter τ).windowOf scope =
      (config.rate? scope).map RateWindow.window := by
  cases scope with
  | global => rfl
  | domain name => rfl

variable [TimeScale τ]

/-- A limiter after it has been asked again and again, each time for one scope. -/
def asked (limiter : Limiter τ) (polls : List (Scope × τ × τ)) : Limiter τ :=
  polls.foldl (fun limiter (scope, checked, recorded) =>
    (limiter.poll scope checked recorded).1) limiter

/-- Whatever the limiter has been asked, the window that a scope is polled by has the numbers of a
quota; without a quota there is none. -/
def Enforces (limiter : Limiter τ) (scope : Scope) (quota : Option RateWindow) : Prop :=
  ∀ polls, ((limiter.asked polls).windowOf scope).map (·.numbers) = quota.map (·.numbers)

/-- A limiter that enforces the quota that a dictionary holds, if it holds one. -/
def EnforcesGiven (limiter : Limiter τ) (scope : Scope) (given : Option Value) : Prop :=
  ∃ quota, RateWindow.IsGiven given quota ∧ limiter.Enforces scope quota

/-- To ask one scope leaves the numbers of all windows as they are. -/
theorem poll_numbers (limiter : Limiter τ) (scope other : Scope) (checked recorded : τ) :
    ((limiter.poll scope checked recorded).1.windowOf other).map (·.numbers) =
      (limiter.windowOf other).map (·.numbers) := by
  cases limited : limiter.windowOf scope with
  | none => rw [poll_of_unlimited limited, ensure_windowOf]
  | some window =>
      cases polled : window.poll checked recorded with
      | error failure =>
          have same : (limiter.poll scope checked recorded).1 = limiter.ensure scope := by
            rw [poll_eq, ensure_window?, limited]
            simp only [polled]
          rw [same, ensure_windowOf]
      | ok found =>
          obtain ⟨next, answered, replaced⟩ := poll_of_window limited polled
          rw [answered, replaced]
          by_cases same : other = scope
          · subst same
            rw [Function.update_self, limited, Option.map_some, Option.map_some,
              SlidingWindow.poll_numbers polled]
          · rw [Function.update_of_ne same]

theorem asked_numbers (limiter : Limiter τ) (polls : List (Scope × τ × τ)) (scope : Scope) :
    ((limiter.asked polls).windowOf scope).map (·.numbers) =
      (limiter.windowOf scope).map (·.numbers) := by
  induction polls generalizing limiter with
  | nil => rfl
  | cons poll rest ih => exact (ih _).trans (poll_numbers limiter poll.1 scope poll.2.1 poll.2.2)

theorem ofConfig_enforces (config : RateLimitConfig) (scope : Scope) :
    (Limiter.ofConfig (some config) : Limiter τ).Enforces scope (config.rate? scope) := by
  intro polls
  rw [asked_numbers, ofConfig_windowOf, Option.map_map]
  rfl

/-- A limiter enforces one quota in a scope. -/
theorem Enforces.unique {limiter : Limiter τ} {scope : Scope} {quota other : Option RateWindow}
    (enforces : limiter.Enforces scope quota) (also : limiter.Enforces scope other) :
    quota = other :=
  Option.map_injective RateWindow.numbers_injective ((enforces []).symm.trans (also []))

end Limiter

namespace RateLimitConfig

variable {entries : List (Value × Value)} {config : RateLimitConfig}

/-- The limiter of an accepted dictionary enforces the quotas that it holds, with exactly their
numbers, except that the flat form leaves no quota for the domains: so it is lost exactly where one
stands beside the flat form. Another spelling of the quotas gives the same limiter, and so does the
flat form in place of the scoped one unless there is a quota for the domains. -/
theorem quotas_enforced (accepted : check (.map entries) = .accepted config) [TimeScale τ] :
    let limiter : Limiter τ := .ofConfig (some config)
    (IsFlat entries → limiter.EnforcesGiven .global (some (.map entries)) ∧
      ∀ name, limiter.Enforces (.domain name) none) ∧
    (¬ IsFlat entries → limiter.EnforcesGiven .global (globalGiven entries) ∧
      ∀ name, limiter.EnforcesGiven (.domain name) (lookup? "per_domain" entries)) ∧
    ((∀ name, limiter.EnforcesGiven (.domain name) (lookup? "per_domain" entries)) ↔
      ¬ IsFlat entries ∨ lookup? "per_domain" entries = none ∨
        lookup? "per_domain" entries = some .null) ∧
    (∀ others, Alike entries others → check (.map others) = .accepted config) ∧
    ∀ flat, Flattens flat entries →
      check (.map flat) = .accepted { config with perDomain := none } ∧
        ((.ofConfig (some { config with perDomain := none }) : Limiter τ) = limiter ↔
          lookup? "per_domain" entries = none ∨ lookup? "per_domain" entries = some .null) := by
  intro limiter
  have enforces (scope : Scope) : limiter.Enforces scope (config.rate? scope) :=
    Limiter.ofConfig_enforces config scope
  have ofFlat (isFlat : IsFlat entries) :=
    (check_flat_eq_accepted_iff isFlat).mp accepted
  have ofNested (notFlat : ¬ IsFlat entries) :=
    (check_scoped_eq_accepted_iff notFlat).mp accepted
  refine ⟨fun isFlat => ⟨⟨config.global, (ofFlat isFlat).1, enforces .global⟩, fun name => ?_⟩,
    fun notFlat => ⟨⟨config.global, (ofNested notFlat).1, enforces .global⟩,
      fun name => ⟨config.perDomain, (ofNested notFlat).2, enforces (.domain name)⟩⟩,
    ⟨fun all => ?_, fun held name => ?_⟩, fun others alike => alike.check ▸ accepted,
    fun flat flattens => ⟨flattens.check accepted, ?_⟩⟩
  · exact (ofFlat isFlat).2 ▸ enforces (.domain name)
  · by_cases isFlat : IsFlat entries
    · obtain ⟨quota, given, also⟩ := all ""
      have lost : quota = config.perDomain := also.unique (enforces (.domain ""))
      exact .inr (given.eq_none_iff.mp (lost.trans (ofFlat isFlat).2))
    · exact .inl isFlat
  · by_cases isFlat : IsFlat entries
    · refine ⟨config.perDomain, ?_, enforces (.domain name)⟩
      rw [(ofFlat isFlat).2]
      rcases held.resolve_left (not_not_intro isFlat) with absent | null
      · rw [absent]
        exact .absent
      · rw [null]
        exact .null
    · exact ⟨config.perDomain, (ofNested isFlat).2, enforces (.domain name)⟩
  · rw [← (ofNested flattens.notFlat).2.eq_none_iff]
    constructor
    · intro same
      exact (congrArg Limiter.perDomain same).symm
    · intro lost
      rw [← lost]

/-- A quota for the domains beside the flat form: it is accepted, and lost. -/
theorem quotas_enforced_flat :
    let domains : Value := .map [(.text "requests", .int 1), (.text "window_ms", .int 5000)]
    let entries : List (Value × Value) :=
      [(.text "requests", .int 10), (.text "per", .int 1000), (.text "per_domain", domains)]
    let config : RateLimitConfig := { global := some ⟨10, 1000⟩ }
    let limiter : Limiter Int := .ofConfig (some config)
    check (.map entries) = .accepted config ∧
      limiter.EnforcesGiven .global (some (.map entries)) ∧
      ¬ ∀ name, limiter.EnforcesGiven (.domain name) (some domains) := by
  intro domains entries config limiter
  have accepted : check (.map entries) = .accepted config := by rfl
  obtain ⟨ofFlat, -, dropped, -⟩ := @quotas_enforced Int entries config accepted _
  have isFlat : IsFlat entries := by rfl
  refine ⟨accepted, (ofFlat isFlat).1, fun all => ?_⟩
  rcases dropped.mp all with notFlat | absent | null
  · exact notFlat isFlat
  · exact Option.some_ne_none domains absent
  · exact Value.noConfusion (Option.some.inj null)

end RateLimitConfig

end Enforcement

end RateLimit
end WebHarvest
