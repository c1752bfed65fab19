import WebHarvest.Config.Harvester

/-!
# The logger tree

All loggers of the library stand below one root, whose level and handlers are configured together.
A handler that is attached already is not attached again.
-/

set_option autoImplicit false

namespace WebHarvest

/-- The root of the tree: the weight of its level, and the handlers attached to it. -/
structure LoggerTree where
  weight : Nat := 10
  handlers : List Nat := []
  deriving DecidableEq, Repr

namespace LoggerTree

def configure (tree : LoggerTree) (config : LoggingConfig) : LoggerTree where
  weight := config.weight
  handlers := match config.sink with
    | some sink => if tree.handlers.contains sink then tree.handlers else tree.handlers ++ [sink]
    | none => tree.handlers

def attached (tree : LoggerTree) (handler : Nat) : Nat := tree.handlers.count handler

/-- The least weight of records that get through. A root without a level of its own lets warnings
through. -/
def threshold (tree : LoggerTree) : Nat := if tree.weight == 0 then 30 else tree.weight

def holds (logger : String) : Bool :=
  logger == rootLogger || logger.startsWith (rootLogger ++ ".")

def accepts (tree : LoggerTree) (record : LogRecord) : Bool :=
  holds record.logger && tree.threshold ≤ record.level

def reaches (tree : LoggerTree) (record : LogRecord) (handler : Nat) : Bool :=
  tree.accepts record && tree.handlers.contains handler

end LoggerTree

end WebHarvest
