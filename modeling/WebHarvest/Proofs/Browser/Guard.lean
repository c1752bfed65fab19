import WebHarvest.Browser.Layer
import WebHarvest.Proofs.Program.Reach

/-!
# Guarded calls

The layer guards the calls by which it visits and reads a page: a failure of the engine goes on as a
harvesting failure that has it for its cause, and all other failures go on as they are.
-/

set_option autoImplicit false

namespace WebHarvest

/-- A harvesting failure that says how a page could not be harvested, and has the other failure for
its cause. -/
def Failure.Translates (raw translated : Failure) : Prop :=
  ∃ kind message url operation selector,
    translated = .harvest kind message url operation selector (some raw) ∧
      (kind = .navigation ∨ kind = .matchTimeout ∨ kind = .extraction)

namespace Browser

/-- A call whose engine failures are blamed on something. -/
def guard (call : Call) (blame : Failure → Failure) : Action Value :=
  ExceptT.mk <| (Program.request (.browser call)).bind fun reply =>
    .done (reply.mapError fun failure => if failure.isBrowser then blame failure else failure)

theorem guard_bind {α : Type} (call : Call) (blame : Failure → Failure)
    (next : Except Failure Value → Action α) (goesOn : Value → Action α)
    (succeeds : ∀ value, next (.ok value) = goesOn value)
    (fails : ∀ failure, next (.error failure) =
      if failure.isBrowser then throw (blame failure) else throw failure) :
    (Action.browser call).attempt >>= next = guard call blame >>= goesOn := by
  refine congrArg (Program.ask (.browser call)) (funext fun reply => ?_)
  cases reply with
  | ok value => exact succeeds value
  | error failure =>
      show next (.error failure) = (.done (.error (if failure.isBrowser then blame failure
        else failure)) : Program (Except Failure α))
      rw [fails failure]
      cases failure.isBrowser with
      | true => rfl
      | false => rfl

theorem guard_pure (call : Call) (blame : Failure → Failure) :
    guard call blame >>= pure = guard call blame := by
  refine congrArg (Program.ask (.browser call)) (funext fun reply => ?_)
  cases reply with
  | ok value => rfl
  | error failure => rfl

theorem guard_asks {allowed : Request → Prop} {call : Call} {blame : Failure → Failure}
    (own : allowed (.browser call)) : (guard call blame).Asks allowed :=
  .ask own fun _ => .done _

theorem guard_runs {call : Call} {blame : Failure → Failure} {trace : List Exchange}
    {outcome : Except Failure Value} :
    (guard call blame).Runs trace outcome ↔ ∃ reply, trace = [⟨.browser call, reply⟩] ∧
      outcome = reply.mapError fun failure =>
        if failure.isBrowser then blame failure else failure := by
  constructor
  · intro run
    obtain ⟨before, reply, after, asked, ends, rfl⟩ := Program.runs_bind.mp run
    obtain ⟨rfl, rfl⟩ := Program.runs_done.mp ends
    exact ⟨reply, by rw [Program.runs_request.mp asked, List.append_nil], rfl⟩
  · rintro ⟨reply, rfl, rfl⟩
    exact .ask reply (.done _)

/-- What the layer blames a failure of a navigation on, and so on for the other guarded calls. -/
def navigationBlame (url : String) (failure : Failure) : Failure :=
  .harvest .navigation ("Navigation to " ++ url ++ " failed: " ++ failure.message) (some url)
    (some "navigate") none (some failure)

def loadStateBlame (url state : String) (failure : Failure) : Failure :=
  .harvest .matchTimeout ("Load state " ++ Text.quoted state ++ " not reached on " ++ url)
    (some url) (some "wait_for_load_state") none (some failure)

def matchBlame (url selector state : String) (failure : Failure) : Failure :=
  if failure.isBrowserTimeout then
    .harvest .matchTimeout
      ("Selector " ++ Text.quoted selector ++ " did not become " ++ state ++ " on " ++ url)
      (some url) (some "wait_for_selector") (some selector) (some failure)
  else
    .harvest .navigation
      ("Page unavailable while waiting for " ++ Text.quoted selector ++ ": " ++ failure.message)
      (some url) (some "wait_for_selector") (some selector) (some failure)

def extractionBlame (what : String) (url operation : String) (selector : Option String)
    (failure : Failure) : Failure :=
  .harvest .extraction (what ++ " failed on " ++ url ++ ": " ++ failure.message) (some url)
    (some operation) selector (some failure)

section Calls

variable (layer : Layer) (page : PageId) (url : String)

theorem navigate_eq (waitUntil : String) (timeoutMs : Option Int) :
    layer.navigate page url waitUntil timeoutMs =
      Action.log (.debug logger "Navigating"
        [("url", .text url), ("wait_until", .text waitUntil)]) >>= fun _ =>
        guard (.goto page url (some waitUntil) (layer.timeout timeoutMs)) (navigationBlame url) >>=
          fun _ => pure () := by
  unfold Layer.navigate
  refine congrArg (Action.log _ >>= ·) (funext fun _ => ?_)
  exact guard_bind _ _ _ _ (fun _ => rfl) fun _ => rfl

theorem waitForLoadState_eq (state : String) (timeoutMs : Option Int) :
    layer.waitForLoadState page url state timeoutMs =
      guard (.waitForLoadState page state (layer.timeout timeoutMs)) (loadStateBlame url state) >>=
        fun _ => pure () :=
  guard_bind _ _ _ _ (fun _ => rfl) fun _ => rfl

theorem waitForMatch_eq (selector state : String) (timeoutMs : Option Int) :
    layer.waitForMatch page url selector state timeoutMs =
      guard (.waitForSelector page selector (some state) (layer.timeout timeoutMs))
          (matchBlame url selector state) >>= fun _ => pure () := by
  refine guard_bind _ _ _ _ (fun _ => rfl) fun failure => ?_
  unfold matchBlame
  cases isTimeout : failure.isBrowserTimeout with
  | false => simp only [isTimeout, Bool.false_eq_true, if_false]
  | true =>
      have isBrowser : failure.isBrowser = true := by
        unfold Failure.isBrowserTimeout at isTimeout
        split at isTimeout
        · rfl
        · cases isTimeout
      simp only [isTimeout, isBrowser, if_true]

theorem extract_eq (selector : String) (schema : CompiledSchema Value) :
    extract page url selector schema =
      guard (.extractAll page selector schema)
        (extractionBlame "Extraction" url "extract" (some selector)) :=
  (guard_bind _ _ _ _ (fun _ => rfl) fun _ => rfl).trans (guard_pure _ _)

theorem evaluate_eq (source : String) (argument : Value) :
    evaluate page url source argument =
      guard (.evaluate page source argument)
        (extractionBlame "Page function" url "evaluate" none) :=
  (guard_bind _ _ _ _ (fun _ => rfl) fun _ => rfl).trans (guard_pure _ _)

theorem captureImage_eq (options : ScreenshotOptions) :
    captureImage page url options =
      (match options.path with
        | some path => Action.makeParents path
        | none => pure ()) >>= fun _ =>
        guard (.screenshot page (screenshotOptions options))
          (extractionBlame "Screenshot" url "screenshot" none) := by
  unfold captureImage
  cases options.path with
  | none => exact (guard_bind _ _ _ _ (fun _ => rfl) fun _ => rfl).trans (guard_pure _ _)
  | some path =>
      refine congrArg (Action.makeParents path >>= ·) (funext fun _ => ?_)
      exact (guard_bind _ _ _ _ (fun _ => rfl) fun _ => rfl).trans (guard_pure _ _)

end Calls

end Browser

end WebHarvest
