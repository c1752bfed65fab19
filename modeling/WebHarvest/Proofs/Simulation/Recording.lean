import WebHarvest.Proofs.Program.Twins
import WebHarvest.Proofs.Session.Login
import WebHarvest.Simulation.World

/-!
# What the record of calls decides

The simulated engine records every call that is made, and never looks at its record; neither does it
look at what is filled into a field. So two worlds in which one call differs, by no more than what
it fills in, cannot be told apart by whoever works on a page and keeps sessions.
-/

set_option autoImplicit false

namespace WebHarvest.Simulation

open Browser (Call PageId)

namespace Engine

/-- The same engine with another record of the calls that were made. -/
def recalled (calls : List (Int × Call)) (engine : Engine) : Engine := { engine with calls }

section Recall

variable (engine : Engine) (calls : List (Int × Call)) (call : Call) (now : Int)

theorem takeTurn_recalled : (engine.recalled calls).takeTurn call =
    ((engine.takeTurn call).1, (engine.takeTurn call).2.recalled calls) := by
  unfold takeTurn recalled urlOf
  dsimp only
  split
  · rfl
  · rfl

theorem visit_recalled :
    (engine.recalled calls).visit call = (engine.visit call).recalled calls := by
  cases call with
  | _ => rfl

theorem missingFailure?_recalled :
    (engine.recalled calls).missingFailure? call = engine.missingFailure? call := by
  cases call with
  | _ => rfl

/-- The turn of a call that has been recorded. -/
def turnOf : Turn × Engine :=
  match engine.missingFailure? call, call with
  | some failure, _ => ({ outcome := some (.error failure) }, engine)
  | none, .setDefaultTimeout _ => ({}, engine)
  | none, call => engine.takeTurn call

theorem begin_eq : engine.begin now call =
    ((engine.visit call).recalled (engine.calls ++ [(now, call)])).turnOf call := rfl

theorem turnOf_recalled : (engine.recalled calls).turnOf call =
    ((engine.turnOf call).1, (engine.turnOf call).2.recalled calls) := by
  unfold turnOf
  rw [missingFailure?_recalled]
  split
  · rfl
  · rfl
  · exact takeTurn_recalled engine calls _

/-- A call is recorded, and the record decides nothing. -/
theorem begin_recalled : (engine.recalled calls).begin now call =
    ((engine.begin now call).1,
      (engine.begin now call).2.recalled (calls ++ [(now, call)])) := by
  simp only [begin_eq, visit_recalled, turnOf_recalled]
  rfl

theorem perform_recalled : (engine.recalled calls).perform call =
    ((engine.perform call).1.recalled calls, (engine.perform call).2) := by
  cases call with
  | _ => rfl

theorem finish_recalled (turn : Turn) : (engine.recalled calls).finish call turn =
    ((engine.finish call turn).1.recalled calls, (engine.finish call turn).2) := by
  unfold finish
  split
  · rfl
  · split
    · rfl
    · rfl
  · rw [perform_recalled]
  · rw [perform_recalled]

theorem begin_calls : (engine.begin now call).2.calls = engine.calls ++ [(now, call)] :=
  congrArg (fun begun => begun.2.calls) (begin_recalled engine engine.calls call now)

theorem finish_calls (turn : Turn) : (engine.finish call turn).1.calls = engine.calls :=
  congrArg (fun finished => finished.1.calls) (finish_recalled engine engine.calls call turn)

/-- What is filled into a field is recorded, and makes no other difference. -/
theorem begin_fill (page : PageId) (selector value other : String) :
    engine.begin now (.fill page selector other) =
      ((engine.begin now (.fill page selector value)).1,
        (engine.begin now (.fill page selector value)).2.recalled
          (engine.calls ++ [(now, .fill page selector other)])) := by
  simp only [begin_eq, turnOf_recalled]
  rfl

theorem finish_fill (page : PageId) (selector value other : String) (turn : Turn) :
    engine.finish (.fill page selector other) turn =
      engine.finish (.fill page selector value) turn := by
  unfold finish
  rcases turn.outcome with _ | _ | _
  · rfl
  · rfl
  · rfl

end Recall

end Engine

namespace World

variable {τ : Type}

/-- The same world with another record of the calls that were made. -/
def recalled (calls : List (Int × Call)) (world : World τ) : World τ :=
  { world with engine := world.engine.recalled calls }

/-- Worlds that are the same but for one call, which was made in the one world where the other one
was made in the other world. -/
def SameBut (first second : Call) (world other : World τ) : Prop :=
  ∃ before time after, world.engine.calls = before ++ (time, first) :: after ∧
    other = world.recalled (before ++ (time, second) :: after)

/-- How a call of the engine ends in a world. -/
def ending (call : Call) (turn : Turn) (_ : Int) (world : World τ) :
    World τ × Except Failure Value :=
  ({ world with engine := (world.engine.finish call turn).1 }, (world.engine.finish call turn).2)

theorem call_eq (world : World τ) (now : Int) (call : Call) :
    world.call now call =
      after (world.engine.begin now call).1.delay now
        { world with engine := (world.engine.begin now call).2 }
        (ending call (world.engine.begin now call).1) := rfl

section Sameness

variable {first second : Call}

theorem ending_same {call call' : Call} {turn : Turn}
    (alike : ∀ engine : Engine, engine.finish call' turn = engine.finish call turn) (woken : Int)
    {world other : World τ} (same : world.SameBut first second other) :
    (ending call turn woken world).1.SameBut first second (ending call' turn woken other).1 ∧
      (ending call turn woken world).2 = (ending call' turn woken other).2 := by
  obtain ⟨before, time, after, recorded, rfl⟩ := same
  have ends := Engine.finish_recalled world.engine (before ++ (time, second) :: after) call turn
  have kept := Engine.finish_calls world.engine call turn
  refine ⟨⟨before, time, after, kept.trans recorded, ?_⟩, ?_⟩
  · simp only [ending, recalled, alike, ends]
  · simp only [ending, recalled, alike, ends]

theorem after_same {ρ : Type} (delay : Option Int) (now : Int) {world other : World τ}
    {finish finish' : Int → World τ → World τ × ρ} (same : world.SameBut first second other)
    (finishes : ∀ woken state other, state.SameBut first second other →
      (finish woken state).1.SameBut first second (finish' woken other).1 ∧
        (finish woken state).2 = (finish' woken other).2) :
    Answer.Alike (SameBut first second) (after delay now world finish)
      (after delay now other finish') := by
  cases delay with
  | none =>
      obtain ⟨kept, replied⟩ := finishes now _ _ same
      show Answer.Alike _ ((finish now world).1, .now (finish now world).2)
        ((finish' now other).1, .now (finish' now other).2)
      rw [← replied]
      exact .now kept _
  | some delay => exact .later same delay finishes

theorem call_same (call : Call) (now : Int) {world other : World τ}
    (same : world.SameBut first second other) :
    Answer.Alike (SameBut first second) (world.call now call) (other.call now call) := by
  obtain ⟨before, time, after, recorded, rfl⟩ := same
  have begins := Engine.begin_recalled world.engine (before ++ (time, second) :: after) call now
  have kept := Engine.begin_calls world.engine call now
  rw [call_eq, call_eq]
  simp only [recalled, begins]
  refine after_same _ now ⟨before, time, after ++ [(now, call)], ?_, ?_⟩
    fun woken _ _ same => ending_same (fun _ => rfl) woken same
  · rw [kept, recorded, List.append_assoc, List.cons_append]
  · rw [recalled, List.append_assoc, List.cons_append]

variable [TimeScale τ]

theorem writeFile_same (path text : String) (now : Int) {world other : World τ}
    (same : world.SameBut first second other) :
    Answer.Alike (SameBut first second) (World.host.answer (.writeFile path text) now world)
      (World.host.answer (.writeFile path text) now other) := by
  obtain ⟨before, time, after, recorded, rfl⟩ := same
  let calls := before ++ (time, second) :: after
  have sameFiles : (world.recalled calls).files = world.files := rfl
  cases written : world.files.write path text with
  | ok files =>
      rw [host_writeFile_of_ok written, host_writeFile_of_ok (sameFiles ▸ written)]
      exact .now ⟨before, time, after, recorded, rfl⟩ _
  | error failure =>
      rw [host_writeFile_of_error written, host_writeFile_of_error (sameFiles ▸ written)]
      exact .now ⟨before, time, after, recorded, rfl⟩ _

theorem host_respects_sameBut :
    (World.host : Host (World τ)).Respects (SameBut first second) (·.isDeskwork = true) := by
  intro request own now world other same
  obtain ⟨before, time, after, recorded, rfl⟩ := id same
  cases request with
  | browser call => exact call_same call now same
  | writeFile path text => exact writeFile_same path text now same
  | pageUrl page => exact .now same _
  | log record => exact .now ⟨before, time, after, recorded, rfl⟩ _
  | saveSession id state => exact .now ⟨before, time, after, recorded, rfl⟩ _
  | sessionPath id => exact .now ⟨before, time, after, recorded, rfl⟩ _
  | _ => cases own

/-- The world answers alike whatever is filled into a field, and nothing shows what it was. -/
theorem host_conceals (page : PageId) (selector value other : String) :
    (World.host : Host (World τ)).Conceals
      (SameBut (.fill page selector value) (.fill page selector other))
      (.fill page selector value) (.fill page selector other) (·.isDeskwork = true) where
  respects := host_respects_sameBut
  answers now world := by
    show Answer.Alike _ (world.call now (.fill page selector value))
      (world.call now (.fill page selector other))
    have kept := Engine.begin_calls world.engine (.fill page selector value) now
    rw [call_eq, call_eq]
    simp only [Engine.begin_fill world.engine now page selector value other]
    exact after_same _ now ⟨world.engine.calls, now, [], kept, rfl⟩
      fun woken _ _ same => ending_same
        (fun engine => engine.finish_fill page selector value other _) woken same
  prompt now world delay := by
    show (world.call now (.fill page selector value)).2 ≠ .putOff delay
    rw [call_eq]
    cases (world.engine.begin now (.fill page selector value)).1.delay with
    | none => exact nofun
    | some delay => exact nofun

end Sameness

end World

end WebHarvest.Simulation
