import WebHarvest.Proofs.Simulation.Recording

/-!
# Where a password goes

Logins with the same user name and with different passwords ask for the same things in the same
order, but for what they fill into the password field. So they take the same time, come to the same
result or the same failure, and leave the same log, the same files and sessions, and the same record
of calls but for that one.
-/

set_option autoImplicit false

namespace WebHarvest.Session

open Browser (Call PageId)

section Twins

variable (page : PageId) (form : LoginForm) (username first second : String)

/-- What is filled into the password field. -/
def passwordFill (password : String) : Call := .fill page form.selectors.password password

theorem fillLoginForm_twins :
    Action.Twins (passwordFill page form first) (passwordFill page form second)
      (·.isDeskwork = true) (fillLoginForm page ⟨username, first⟩ form)
      (fillLoginForm page ⟨username, second⟩ form) := by
  refine Action.twins_bind (fillField page form form.selectors.username "Username" username)
    fun _ => Action.Twins.bind ?_ fun _ => submit_asks page form
  exact Action.twins_bind (waitForField page form form.selectors.password "Password") fun _ =>
    (Action.twins_browser _ _ _).bind fun _ => Action.asks_pure ()

/-- Logins that differ in the password differ in one call. -/
theorem login_twins (url : String) (outcome : LoginOutcome) :
    Action.Twins (passwordFill page form first) (passwordFill page form second)
      (·.isDeskwork = true) (login page url ⟨username, first⟩ form outcome)
      (login page url ⟨username, second⟩ form outcome) := by
  have enters : Action.Twins (passwordFill page form first) (passwordFill page form second)
      (·.isDeskwork = true) (enter page url ⟨username, first⟩ form outcome)
      (enter page url ⟨username, second⟩ form outcome) :=
    Action.twins_bind (openLogin page url form.timeoutMs) fun _ =>
      (fillLoginForm_twins page form username first second).bind fun _ =>
        awaitSign_asks page url form outcome
  rw [login_eq, login_eq]
  exact enters.bind fun _ => Action.asks_bind (Action.asks_log rfl) fun _ => keep_asks outcome

end Twins

open Simulation

/-- On every scripted page, in every state of the files and the store, logins with different
passwords come to the same result at the same time, and leave the same world, whose record of calls
shows at most one difference: what was filled into the password field. -/
theorem login_conceals_password {τ : Type} [TimeScale τ] (world : World τ) (now : Int)
    (registered wakeups : Nat) (page : PageId) (url username first second : String)
    (form : LoginForm) (outcome : LoginOutcome) :
    let moment : Moment (World τ) := { now, state := world, registered }
    let one := moment.perform World.host wakeups (login page url ⟨username, first⟩ form outcome)
    let other := moment.perform World.host wakeups (login page url ⟨username, second⟩ form outcome)
    one.2 = other.2 ∧ one.1.now = other.1.now ∧
      (other.1.state = one.1.state ∨
        ∃ before time after,
          one.1.state.engine.calls = before ++ (time, passwordFill page form first) :: after ∧
          other.1.state =
            one.1.state.recalled (before ++ (time, passwordFill page form second) :: after)) := by
  intro moment one other
  have conceals := World.host_conceals (τ := τ) page form.selectors.password first second
  have alone : moment.strays = [] := rfl
  obtain ⟨result, time, same⟩ :=
    (login_twins page form username first second url outcome).perform conceals wakeups alone
  exact ⟨result, time, same.imp Eq.symm id⟩

end WebHarvest.Session
