import WebHarvest.Schema.Fault
import WebHarvest.Schema.Field
import WebHarvest.Text.Blank
import WebHarvest.Text.Ending

/-!
# Compiling schemas

Compilation checks a schema and turns it into a node tree. The functions it meets, in depth-first
order, are taken out of the tree: node number `k` of them refers to `__fn_k`, under which the table
of the compiled schema holds its cleaned source.
-/

set_option autoImplicit false

namespace WebHarvest.Schema

abbrev Compile := StateT (List String) (Except Fault)

/-- The reference of the function number `index`. -/
def callbackRef (index : Nat) : String := "__fn_" ++ toString index

/-- What may stand behind a source without being part of it. -/
def isTerminator (c : Char) : Bool := c == ';' || Text.isBlank c

/-- A source without the terminators at its end, and without the blanks around what is left. -/
def cleanSource (source : String) : String :=
  String.ofList (Text.trimBoth Text.isBlank (Text.dropFinalRuns isTerminator 0 source.toList))

/-- The cleaned text of a source. Whatever counts as nothing is an empty source; anything else has
to be a text. -/
def sourceText (path : Path) (source : Value) : Except Fault String :=
  match source.asText? with
  | some text =>
      let cleaned := cleanSource text
      if cleaned.isEmpty then .error (.emptySource path) else .ok cleaned
  | none => .error (if source.isEmpty then .emptySource path else .sourceNotText source)

def compileScript (path : Path) (source : Value) : Compile (Node Value) := do
  let cleaned ← sourceText path source
  let sources ← get
  set (sources ++ [cleaned])
  return .callback (callbackRef sources.length)

mutual

/-- Checks that data survives being sent to a page: scalars, sequences, which all become lists, and
mappings with text keys. -/
def checkData (path : Path) : Value → Except Fault Value
  | .null => .ok .null
  | .bool b => .ok (.bool b)
  | .int n => .ok (.int n)
  | .float x => .ok (.float x)
  | .text s => .ok (.text s)
  | .fieldKind kind => .ok (.text kind.name)
  | .list items => return .list (← checkItems path items)
  | .tuple items => return .list (← checkItems path items)
  | .map entries =>
      if entries.all fun (key, _) => key matches .text _ then
        return .map (← checkEntries path entries)
      else .error (.notData path (.map entries))
  | data => .error (.notData path data)

def checkItems (path : Path) : List Value → Except Fault (List Value)
  | [] => .ok []
  | item :: rest => return (← checkData path item) :: (← checkItems path rest)

def checkEntries (path : Path) : List (Value × Value) → Except Fault (List (Value × Value))
  | [] => .ok []
  | (key, value) :: rest => return (key, ← checkData path value) :: (← checkEntries path rest)

end

def kindOf? : Value → Option FieldKind
  | .fieldKind kind => some kind
  | .text s => FieldKind.ofName? s
  | _ => none

mutual

def compileNode (path : Path) : Value → Compile (Node Value)
  | .descriptor kind selector attrName trim default item =>
      match kindOf? kind with
      | none => throw (.unknownKind path kind)
      | some .text => return .text selector trim (← checkData path default)
      | some .attr =>
          if attrName.isEmpty then throw (.missingAttribute path)
          else return .attr selector attrName (← checkData path default)
      | some .html => return .html selector (← checkData path default)
      | some .presence => return .presence selector
      | some .count =>
          if selector.isEmpty then throw (.missingSelector path .count)
          else return .count selector
      | some .array =>
          if selector.isEmpty then throw (.missingSelector path .array)
          else if item matches .null then throw (.missingItem path)
          else return .array selector (← compileNode (path ++ [.item]) item)
  | .script source => compileScript path source
  | .map entries => return .object (← compileFields path entries)
  | .function => throw (.hostFunction path)
  | data => return .value (← checkData path data)

def compileFields (path : Path) : List (Value × Value) → Compile (List (String × Node Value))
  | [] => return []
  | (.text key, value) :: rest => do
      let node ← compileNode (path ++ [.key key]) value
      return (key, node) :: (← compileFields path rest)
  | (key, _) :: _ => throw (.keyNotText path key)

end

/-- Runs a compilation from an empty table of functions. -/
def Compile.finish (compile : Compile (Node Value)) : Except Fault (CompiledSchema Value) :=
  (compile.run []).map fun (root, sources) =>
    ⟨root, sources.mapIdx fun index source => (callbackRef index, source)⟩

def compileSchema : Value → Except Fault (CompiledSchema Value)
  | .map entries => Compile.finish do return .object (← compileFields [] entries)
  | schema => .error (.notAMapping schema)

/-- Compiles whatever describes an extraction: a compiled schema as it is, the default when there is
nothing, a source text or a function for each element, a single field, or a schema. -/
def compileExtractor : Value → Except Fault (CompiledSchema Value)
  | .compiled root callbacks => .ok ⟨root, callbacks⟩
  | .null => (compileScript [] (.text defaultSource)).finish
  | .text source => (compileScript [] (.text source)).finish
  | .fieldKind kind => (compileScript [] (.fieldKind kind)).finish
  | .map entries => compileSchema (.map entries)
  | .script source => (compileScript [] source).finish
  | .descriptor kind selector attrName trim default item =>
      (compileNode [] (.descriptor kind selector attrName trim default item)).finish
  | .function => .error .hostExtractor
  | extractor => .error (.unsupportedExtractor extractor)

end WebHarvest.Schema
