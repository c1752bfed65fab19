/-!
# Runs at the end of a text

A run of characters stands at the end of a text when nothing follows it, or a single line end only.
Such runs are looked for from the left, and the longest one that starts at a place counts.
-/

set_option autoImplicit false

namespace WebHarvest.Text

/-- Whether nothing is left of a text, or nothing but a line end. -/
def isAtEnd : List Char → Bool
  | [] => true
  | ['\n'] => true
  | _ => false

/-- The length of the run of characters that satisfy `p` with which a text starts, when it can be
chosen so that it stands at the end. Of several such runs it is the longest. -/
def finalRun? (p : Char → Bool) : List Char → Option Nat
  | [] => none
  | c :: rest =>
      if p c then
        match finalRun? p rest with
        | some length => some (length + 1)
        | none => if isAtEnd rest then some 1 else none
      else none

/-- Drops the runs at the end, one after another, and with them the first `run` characters, which
belong to a run that has been found already. -/
def dropFinalRuns (p : Char → Bool) (run : Nat) : List Char → List Char
  | [] => []
  | c :: rest =>
      match run with
      | run + 1 => dropFinalRuns p run rest
      | 0 =>
          match finalRun? p (c :: rest) with
          | some length => dropFinalRuns p (length - 1) rest
          | none => c :: dropFinalRuns p 0 rest

end WebHarvest.Text
