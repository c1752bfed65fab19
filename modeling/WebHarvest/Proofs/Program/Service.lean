import WebHarvest.Proofs.Program.Schedule
import WebHarvest.Proofs.Program.Settles
import WebHarvest.Proofs.RateLimit.Vacancy

/-!
# Hosts that serve programs

A host serves when its replies fit, sooner or later, and its limiter, on an exact clock, decides who
has to come back. Nothing else is asked of it: not how long a reply takes, nor whether a program
that waits for a slot is woken too early or too late.
-/

set_option autoImplicit false

namespace WebHarvest

open RateLimit (Limiter Scope)

/-- What is to be seen in the states of a host. -/
structure HostView (σ : Type) where
  /-- Signals can be emitted. -/
  Ready : σ → Prop
  limiter : σ → Limiter Int
  /-- What the next attempts of every operation come to. -/
  attempts : σ → String → Attempts
  pauses : Int → Except Failure Unit

namespace HostView

variable {σ α : Type}

structure Shows (view : HostView σ) (limiter : Limiter Int) (attempts : String → Attempts)
    (state : σ) : Prop where
  ready : view.Ready state
  limiter : view.limiter state = limiter
  attempts : view.attempts state = attempts

/-- An answer to a program around the operation `name`: a reply that fits, now or later. -/
inductive Answers (view : HostView σ) (name : String) (request : Request) (state : σ) :
    σ × Answer σ request.Reply → Prop where
  | now {next : σ} {reply : request.Reply}
      (shows : view.Shows (view.limiter state) (Function.update (view.attempts state) name
        ((view.attempts state name).after request)) next)
      (fits : request.Fits view.pauses (view.attempts state name) reply) :
      Answers view name request state (next, .now reply)
  | later {next : σ} {delay : Int} {finish : Int → σ → σ × request.Reply}
      (shows : view.Shows (view.limiter state) (Function.update (view.attempts state) name
        ((view.attempts state name).after request)) next)
      (finishes : ∀ woken other, view.Ready other →
        view.Shows (view.limiter other) (view.attempts other) (finish woken other).1 ∧
          request.Fits view.pauses (view.attempts state name) (finish woken other).2) :
      Answers view name request state (next, .later delay finish)

/-- What a program around the operation `name` has left behind: other operations, and this one if
all its attempts come to the same, have the same attempts before them. -/
structure Moved (view : HostView σ) (name : String) (state next : σ) : Prop where
  ready : view.Ready next
  isOpen : (view.limiter next).IsOpen
  attempts : ∀ other, (other = name → (view.attempts state name).Steady) →
    view.attempts next other = view.attempts state other

/-- How a program that sleeps goes on: with the reply that it waits for, or by asking for its slot
again. From there it settles within fewer requests than `cost`. -/
inductive Waits (view : HostView σ) (name : String) (good : α → Prop) (cost : Nat)
    (attempts : Attempts) (wakeUp : Int → σ → σ × Program α) : Prop where
  | reply (bound : Nat) (fewer : bound < cost)
      (wakes : ∀ woken state, view.Ready state →
        view.Shows (view.limiter state) (view.attempts state) (wakeUp woken state).1 ∧
          (wakeUp woken state).2.Settles view.pauses name (fun result _ => good result) bound
            attempts) :
      Waits view name good cost attempts wakeUp
  | slot (scope : Scope) (target : String)
      (next : (Request.takeSlot scope target).Reply → Program α) (bound : Nat)
      (fewer : bound < cost)
      (wakes : ∀ woken state, wakeUp woken state = (state, .ask (.takeSlot scope target) next))
      (goesOn : (next (.ok ())).Settles view.pauses name (fun result _ => good result) bound
        attempts) :
      Waits view name good cost attempts wakeUp

inductive Advanced (view : HostView σ) (name : String) (good : α → Prop) (bound : Nat)
    (state : σ) : σ × Pause σ α → Prop where
  | finished {next : σ} {result : α} (moved : view.Moved name state next) (holds : good result) :
      Advanced view name good bound state (next, .finished result)
  | asleep {next : σ} {delay : Int} {wakeUp : Int → σ → σ × Program α}
      (moved : view.Moved name state next)
      (waits : view.Waits name good bound (view.attempts next name) wakeUp) :
      Advanced view name good bound state (next, .asleep delay wakeUp)

variable {view : HostView σ} {name : String} {state next : σ} {good : α → Prop}
variable {bound more : Nat}

namespace Moved

theorem refl (ready : view.Ready state) (isOpen : (view.limiter state).IsOpen) :
    view.Moved name state state :=
  ⟨ready, isOpen, fun _ _ => rfl⟩

theorem trans {last : σ} (first : view.Moved name state next)
    (second : view.Moved name next last) : view.Moved name state last where
  ready := second.ready
  isOpen := second.isOpen
  attempts other steady := by
    rw [second.attempts other ?_, first.attempts other steady]
    rintro rfl
    rw [first.attempts other steady]
    exact steady rfl

theorem of_after {limiter : Limiter Int} {request : Request}
    (shows : view.Shows limiter (Function.update (view.attempts state) name
      ((view.attempts state name).after request)) next)
    (isOpen : limiter.IsOpen) : view.Moved name state next where
  ready := shows.ready
  isOpen := by rwa [shows.limiter]
  attempts other steady := by
    rw [shows.attempts]
    by_cases same : other = name
    · subst same
      rw [Function.update_self, (steady rfl).after_eq]
    · rw [Function.update_of_ne same]

theorem of_shows {limiter : Limiter Int} (shows : view.Shows limiter (view.attempts state) next)
    (isOpen : limiter.IsOpen) : view.Moved name state next where
  ready := shows.ready
  isOpen := by rwa [shows.limiter]
  attempts other _ := by rw [shows.attempts]

end Moved

theorem Waits.within {attempts : Attempts} {wakeUp : Int → σ → σ × Program α}
    (waits : view.Waits name good bound attempts wakeUp) (enough : bound ≤ more) :
    view.Waits name good more attempts wakeUp := by
  cases waits with
  | reply least fewer wakes => exact .reply least (fewer.trans_le enough) wakes
  | slot scope target next least fewer wakes goesOn =>
      exact .slot scope target next least (fewer.trans_le enough) wakes goesOn

theorem Advanced.after {outcome : σ × Pause σ α} (moved : view.Moved name state next)
    (advanced : view.Advanced name good bound next outcome) (enough : bound ≤ more) :
    view.Advanced name good more state outcome := by
  cases advanced with
  | finished rest holds => exact .finished (moved.trans rest) holds
  | asleep rest waits => exact .asleep (moved.trans rest) (waits.within enough)

end HostView

open HostView

/-- The replies of the host fit, its operations come to what their attempts say, and its limiter
gives the slots. -/
structure Host.Serves {σ : Type} (host : Host σ) (view : HostView σ) : Prop where
  ordinary : ∀ millis failure, view.pauses millis = .error failure → failure.isOrdinary = true
  answers : ∀ {request name now state}, view.Ready state → request.IsFor name →
    (∀ scope target, request ≠ .takeSlot scope target) →
    view.Answers name request state (host.answer request now state)
  grants : ∀ {scope now state limiter} (target : String), view.Ready state →
    (view.limiter state).poll scope now now = (limiter, .ok none) →
    ∃ next, host.answer (.takeSlot scope target) now state = (next, .now (.ok ())) ∧
      view.Shows limiter (view.attempts state) next
  refuses : ∀ {scope now state limiter delay} (target : String), view.Ready state → 0 < delay →
    (view.limiter state).poll scope now now = (limiter, .ok (some delay)) →
    ∃ next pause, host.answer (.takeSlot scope target) now state = (next, .putOff pause) ∧
      0 < pause ∧ view.Shows limiter (view.attempts state) next

namespace Host.Serves

variable {σ α : Type} {host : Host σ} {view : HostView σ} {name : String} {state : σ}

/-- Whoever asks for a slot gets it, or has to come back; but not for ever. -/
theorem slot (serves : host.Serves view) (ready : view.Ready state)
    (isOpen : (view.limiter state).IsOpen) (name : String) (scope : Scope) (target : String)
    (now : Int) :
    (∃ granted, view.Moved name state granted ∧ view.attempts granted = view.attempts state ∧
      host.answer (.takeSlot scope target) now state = (granted, .now (.ok ()))) ∨
    ∃ refused pause, view.Moved name state refused ∧
      view.attempts refused = view.attempts state ∧ 0 < pause ∧
      host.answer (.takeSlot scope target) now state = (refused, .putOff pause) ∧
      ∀ time, (view.limiter state).FreeBy time →
        (view.limiter refused).FreeBy time ∧ now < time := by
  obtain ⟨limiter, stays, granted | ⟨delay, late, refused, busy⟩⟩ :=
    RateLimit.Limiter.poll_progress isOpen scope now
  · obtain ⟨after, answer, shows⟩ := serves.grants target ready granted
    exact Or.inl ⟨after, .of_shows shows stays, shows.attempts, answer⟩
  · obtain ⟨after, pause, answer, positive, shows⟩ := serves.refuses target ready late refused
    refine Or.inr ⟨after, pause, .of_shows shows stays, shows.attempts, positive, answer,
      fun time free => ?_⟩
    rw [shows.limiter]
    exact busy time free

theorem advance (serves : host.Serves view) {program : Program α} {good : α → Prop}
    {attempts : Attempts} {bound : Nat} (now : Int)
    (settles : program.Settles view.pauses name (fun result _ => good result) bound attempts)
    (ready : view.Ready state) (isOpen : (view.limiter state).IsOpen)
    (same : view.attempts state name = attempts) :
    view.Advanced name good bound state (program.advance host now state) := by
  induction settles generalizing state with
  | done holds => exact .finished (.refl ready isOpen) holds
  | @ask bound attempts request next own goesOn ih =>
      subst same
      by_cases slot : ∃ scope target, request = .takeSlot scope target
      · obtain ⟨scope, target, rfl⟩ := slot
        obtain ⟨granted, moved, kept, answer⟩ | ⟨refused, pause, moved, kept, -, answer, -⟩ :=
          serves.slot ready isOpen name scope target now
        · rw [Program.advance_of_now answer]
          exact .after moved (ih (.ok ()) rfl moved.ready moved.isOpen (congrFun kept name))
            (Nat.le_succ bound)
        · rw [Program.advance_of_putOff answer]
          refine .asleep moved (.slot scope target next bound (Nat.lt_succ_self bound)
            (fun _ _ => rfl) ?_)
          rw [kept]
          exact goesOn (.ok ()) rfl
      · have answers : view.Answers name request state (host.answer request now state) :=
          serves.answers ready own fun scope target is => slot ⟨scope, target, is⟩
        rcases given : host.answer request now state with ⟨after, answer⟩
        rw [given] at answers
        cases answers with
        | now shows fits =>
            have moved := Moved.of_after shows isOpen
            have left : view.attempts after name = (view.attempts state name).after request := by
              rw [shows.attempts, Function.update_self]
            rw [Program.advance_of_now given]
            exact .after moved (ih _ fits moved.ready moved.isOpen left) (Nat.le_succ bound)
        | later shows finishes =>
            rw [Program.advance_of_later given]
            refine .asleep (.of_after shows isOpen) (.reply bound (Nat.lt_succ_self bound) ?_)
            intro woken other otherReady
            obtain ⟨otherShows, fits⟩ := finishes woken other otherReady
            refine ⟨otherShows, ?_⟩
            rw [shows.attempts, Function.update_self]
            exact goesOn _ fits

end Host.Serves

end WebHarvest
