import WebHarvest.Proofs.Program.Trace
import WebHarvest.Simulation.World

/-!
# Programs that work on files

Some programs ask for nothing but files and a browser. Given the files, what such a program does
depends on the replies of the browser only: its calls, its result and the files that it leaves.
-/

set_option autoImplicit false

namespace WebHarvest

/-- A tree of files gives a reply to a request, and is another tree afterwards. -/
def FileTree.Replies (files after : FileTree) : (request : Request) → request.Reply → Prop
  | .writeFile path text, .ok () => files.write path text = .ok after
  | .writeFile path text, .error failure =>
      files.write path text = .error failure ∧ after = files
  | .readFile path, reply => reply = files.read path ∧ after = files
  | _, _ => False

/-- Where files reply at all, they reply as those of a simulated world do. -/
theorem FileTree.Replies.host {τ : Type} [TimeScale τ] {world : Simulation.World τ}
    {after : FileTree} {request : Request} {reply : request.Reply}
    (replies : world.files.Replies after request reply) (now : Int) :
    Simulation.World.host.answer request now world =
      ({ world with files := after }, .now reply) := by
  cases request with
  | writeFile path text =>
      cases reply with
      | ok => exact Simulation.World.host_writeFile_of_ok replies now
      | error failure =>
          obtain ⟨refused, rfl⟩ := replies
          exact Simulation.World.host_writeFile_of_error refused now
  | readFile path =>
      obtain ⟨rfl, rfl⟩ := replies
      rfl
  | _ => cases replies

/-- An exchange with a browser, which may reply anything. -/
abbrev Browser.Exchange := Browser.Call × Except Failure Value

def Exchange.browser? : Exchange → Option Browser.Exchange
  | ⟨.browser call, reply⟩ => some (call, reply)
  | _ => none

namespace Program

variable {α β : Type} {files after : FileTree} {calls : List Browser.Exchange}

/-- With files to work on, the program ends with the result after exchanges with a browser, and
leaves the files as they are then. It asks for nothing else. -/
inductive RunsOn : FileTree → Program α → List Browser.Exchange → α → FileTree → Prop where
  | done {files : FileTree} {result : α} : RunsOn files (.done result) [] result files
  | browser {files after : FileTree} {call : Browser.Call}
      {next : Except Failure Value → Program α} {calls : List Browser.Exchange} {result : α}
      (reply : Except Failure Value) (rest : RunsOn files (next reply) calls result after) :
      RunsOn files (.ask (.browser call) next) ((call, reply) :: calls) result after
  | files {files middle after : FileTree} {request : Request} {next : request.Reply → Program α}
      {calls : List Browser.Exchange} {result : α} (reply : request.Reply)
      (replies : files.Replies middle request reply)
      (rest : RunsOn middle (next reply) calls result after) :
      RunsOn files (.ask request next) calls result after

theorem runsOn_done {first result : α} :
    RunsOn files (done first) calls result after ↔
      calls = [] ∧ result = first ∧ after = files := by
  constructor
  · intro run
    cases run
    exact ⟨rfl, rfl, rfl⟩
  · rintro ⟨rfl, rfl, rfl⟩
    exact .done

theorem runsOn_bind {program : Program α} {next : α → Program β} {result : β} :
    RunsOn files (program.bind next) calls result after ↔
      ∃ before first middle later, RunsOn files program before first middle ∧
        RunsOn middle (next first) later result after ∧ calls = before ++ later := by
  induction program generalizing files calls with
  | done first =>
      constructor
      · intro run
        exact ⟨[], first, files, calls, .done, run, rfl⟩
      · rintro ⟨before, middle, between, later, run, rest, rfl⟩
        obtain ⟨rfl, rfl, rfl⟩ := runsOn_done.mp run
        exact rest
  | ask request goesOn ih =>
      constructor
      · intro run
        cases run with
        | browser reply run =>
            obtain ⟨before, first, middle, later, begins, rest, rfl⟩ := (ih reply).mp run
            exact ⟨_, first, middle, later, .browser reply begins, rest, rfl⟩
        | files reply replies run =>
            obtain ⟨before, first, middle, later, begins, rest, rfl⟩ := (ih reply).mp run
            exact ⟨before, first, middle, later, .files reply replies begins, rest, rfl⟩
      · rintro ⟨before, first, middle, later, begins, rest, rfl⟩
        cases begins with
        | browser reply begins =>
            exact .browser reply ((ih reply).mpr ⟨_, _, _, _, begins, rest, rfl⟩)
        | files reply replies begins =>
            exact .files reply replies ((ih reply).mpr ⟨_, _, _, _, begins, rest, rfl⟩)

/-- What a program does with files is a run of it, whose exchanges with the browser are those. -/
theorem RunsOn.runs {program : Program α} {result : α}
    (run : RunsOn files program calls result after) :
    ∃ trace, program.Runs trace result ∧ calls = trace.filterMap Exchange.browser? := by
  induction run with
  | done => exact ⟨[], .done _, rfl⟩
  | @browser _ _ call _ _ _ reply _ ih =>
      obtain ⟨trace, run, rfl⟩ := ih
      exact ⟨⟨.browser call, reply⟩ :: trace, @Runs.ask α (.browser call) _ _ _ reply run, rfl⟩
  | @files _ _ _ request _ _ _ reply replies _ ih =>
      obtain ⟨trace, run, rfl⟩ := ih
      refine ⟨⟨request, reply⟩ :: trace, .ask reply run, ?_⟩
      cases request with
      | browser => cases replies
      | _ => rfl

end Program

namespace Action

variable {α β : Type} {files after : FileTree} {calls : List Browser.Exchange}

def RunsOn (action : Action α) (files : FileTree) (calls : List Browser.Exchange)
    (outcome : Except Failure α) (after : FileTree) : Prop :=
  action.run.RunsOn files calls outcome after

theorem runsOn_settle {given outcome : Except Failure α} :
    (settle given).RunsOn files calls outcome after ↔
      calls = [] ∧ outcome = given ∧ after = files := Program.runsOn_done

theorem runsOn_bind {action : Action α} {next : α → Action β} {outcome : Except Failure β} :
    (action >>= next).RunsOn files calls outcome after ↔
      (∃ before result middle later, action.RunsOn files before (.ok result) middle ∧
        (next result).RunsOn middle later outcome after ∧ calls = before ++ later) ∨
      ∃ failure, action.RunsOn files calls (.error failure) after ∧ outcome = .error failure := by
  have unfolded : (action >>= next).RunsOn files calls outcome after ↔
      (action.run.bind (ExceptT.bindCont next)).RunsOn files calls outcome after := Iff.rfl
  rw [unfolded, Program.runsOn_bind]
  constructor
  · rintro ⟨before, first, middle, later, begins, rest, rfl⟩
    cases first with
    | ok result => exact .inl ⟨before, result, middle, later, begins, rest, rfl⟩
    | error failure =>
        obtain ⟨rfl, rfl, rfl⟩ := Program.runsOn_done.mp rest
        rw [List.append_nil]
        exact .inr ⟨failure, begins, rfl⟩
  · rintro (⟨before, result, middle, later, begins, rest, rfl⟩ | ⟨failure, begins, rfl⟩)
    · exact ⟨before, .ok result, middle, later, begins, rest, rfl⟩
    · exact ⟨calls, .error failure, after, [], begins, .done, (List.append_nil calls).symm⟩

theorem runsOn_browser {call : Browser.Call} {outcome : Except Failure Value} :
    (browser call).RunsOn files calls outcome after ↔
      calls = [(call, outcome)] ∧ after = files := by
  constructor
  · intro run
    cases run with
    | browser reply rest =>
        obtain ⟨rfl, rfl, rfl⟩ := Program.runsOn_done.mp rest
        exact ⟨rfl, rfl⟩
    | files _ replies => cases replies
  · rintro ⟨rfl, rfl⟩
    exact .browser outcome .done

theorem runsOn_writeFile {path text : String} {outcome : Except Failure Unit} :
    (writeFile path text).RunsOn files calls outcome after ↔
      calls = [] ∧ files.Replies after (.writeFile path text) outcome := by
  constructor
  · intro run
    cases run with
    | files reply replies rest =>
        obtain ⟨rfl, rfl, rfl⟩ := Program.runsOn_done.mp rest
        exact ⟨rfl, replies⟩
  · rintro ⟨rfl, replies⟩
    exact .files outcome replies .done

theorem runsOn_readFile {path : String} {outcome : Except Failure String} :
    (readFile path).RunsOn files calls outcome after ↔
      calls = [] ∧ outcome = files.read path ∧ after = files := by
  constructor
  · intro run
    cases run with
    | files reply replies rest =>
        obtain ⟨rfl, rfl, rfl⟩ := Program.runsOn_done.mp rest
        exact ⟨rfl, replies⟩
  · rintro ⟨rfl, replies⟩
    exact .files outcome replies .done

section Steps

variable {next : Value → Action β} {outcome : Except Failure β}

/-- After a call that succeeds, the action goes on with the reply. -/
theorem runsOn_browser_bind {call : Browser.Call} {value : Value} :
    (browser call >>= next).RunsOn files ((call, .ok value) :: calls) outcome after ↔
      (next value).RunsOn files calls outcome after := by
  rw [runsOn_bind]
  constructor
  · rintro (⟨before, result, middle, later, asked, rest, same⟩ | ⟨failure, asked, -⟩)
    · obtain ⟨rfl, rfl⟩ := runsOn_browser.mp asked
      cases same
      exact rest
    · cases (runsOn_browser.mp asked).1
  · intro rest
    exact .inl ⟨_, value, files, calls, runsOn_browser.mpr ⟨rfl, rfl⟩, rest, rfl⟩

/-- A file that is there is read, and the action goes on with its text. -/
theorem runsOn_readFile_bind {path text : String} {next : String → Action β}
    (held : files.read path = .ok text) :
    (readFile path >>= next).RunsOn files calls outcome after ↔
      (next text).RunsOn files calls outcome after := by
  rw [runsOn_bind]
  simp only [runsOn_readFile, held]
  constructor
  · rintro (⟨before, result, middle, later, ⟨rfl, same, rfl⟩, rest, rfl⟩ | ⟨failure, told, -⟩)
    · cases same
      exact rest
    · cases told.2.1
  · intro rest
    exact .inl ⟨[], text, files, calls, ⟨rfl, rfl, rfl⟩, rest, rfl⟩

/-- The action goes on when a text could be written, and fails when it could not. -/
theorem runsOn_writeFile_bind {path text : String} {next : Unit → Action β} :
    (writeFile path text >>= next).RunsOn files calls outcome after ↔
      (∃ middle, files.write path text = .ok middle ∧
        (next ()).RunsOn middle calls outcome after) ∨
      ∃ failure, files.write path text = .error failure ∧ calls = [] ∧ outcome = .error failure ∧
        after = files := by
  rw [runsOn_bind]
  simp only [runsOn_writeFile]
  constructor
  · rintro (⟨before, result, middle, later, ⟨rfl, wrote⟩, rest, rfl⟩ |
      ⟨failure, ⟨rfl, refused, same⟩, rfl⟩)
    · exact .inl ⟨middle, wrote, rest⟩
    · exact .inr ⟨failure, refused, rfl, rfl, same⟩
  · rintro (⟨middle, wrote, rest⟩ | ⟨failure, refused, rfl, rfl, rfl⟩)
    · exact .inl ⟨[], (), middle, calls, ⟨rfl, wrote⟩, rest, rfl⟩
    · exact .inr ⟨failure, ⟨rfl, refused, rfl⟩, rfl⟩

end Steps

end Action

end WebHarvest
