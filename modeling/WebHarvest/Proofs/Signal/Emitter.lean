import WebHarvest.Signal.Emitter

/-!
# What an emission does

A new emitter has counted and retained nothing. An emission counts, retains its signal and writes
its line, in this order, whatever becomes of the line.
-/

set_option autoImplicit false

namespace WebHarvest.Emitter

variable {σ : Type}

/-- An emitter begins with what it is given, and with nothing else. -/
theorem eq_of_created {source : String} {ledger : Option String} {limit : Int}
    {start files : FileTree} {emitter : Emitter σ}
    (created : create source ledger limit start = (files, .ok emitter)) :
    emitter = { source, ledger, limit := limit.toNat } := by
  unfold create at created
  cases allowed : limitOf limit with
  | error failure =>
      rw [allowed] at created
      cases created
  | ok kept =>
      have limitSame : kept = limit.toNat := by
        unfold limitOf at allowed
        split at allowed
        · cases allowed
        · split at allowed
          · cases allowed
          · cases allowed
            rfl
      rw [allowed] at created
      subst limitSame
      cases ledger with
      | none =>
          cases created
          rfl
      | some path =>
          rcases made : start.makeDirectories (FilePath.parent path) with ⟨directories, outcome⟩
          dsimp only at created
          rw [made] at created
          cases outcome with
          | error failure => cases created
          | ok =>
              cases created
              rfl

/-- The signal of an emission is retained before its line is written. -/
def retain (emitter : Emitter σ) (signal : Signal) : Emitter σ :=
  { emitter with
    count := emitter.count + 1
    history := latest emitter.limit (emitter.history ++ [signal]) }

theorem publish_of_signal {emitter : Emitter σ} {now : Timestamp} {kind : SignalKind}
    {payload : Value} {signal : Signal} (made : emitter.signalOf now kind payload = .ok signal)
    (files : FileTree) :
    emitter.publish files now kind payload =
      ((emitter.retain signal, (emitter.writeLine files signal).1),
        (emitter.writeLine files signal).2.map fun _ => signal) := by
  unfold publish
  simp only [made]
  rfl

end WebHarvest.Emitter
