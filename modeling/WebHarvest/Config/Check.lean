import WebHarvest.Failure
import WebHarvest.Files.Path
import WebHarvest.Number.Numeral
import WebHarvest.Text.Utf8

/-!
# Checking input

A check turns a host value into a typed one, or says what is wrong with it. Checks are lenient: they
take the usual spellings of numbers and truth values. The fields of a model are all checked, so that
one rejection lists every bad field, in the order of their declaration. A default that cannot be
computed breaks the whole check off.
-/

set_option autoImplicit false

namespace WebHarvest

inductive Checked (α : Type) where
  | accepted (result : α)
  | rejected (issues : List Issue)
  /-- A default could not be computed. -/
  | broken (failure : Failure)

namespace Checked

variable {α β : Type}

def apply (f : Checked (α → β)) (x : Checked α) : Checked β :=
  match f, x with
  | .accepted f, .accepted x => .accepted (f x)
  | .broken failure, _ => .broken failure
  | _, .broken failure => .broken failure
  | .rejected first, .rejected second => .rejected (first ++ second)
  | .rejected first, .accepted _ => .rejected first
  | .accepted _, .rejected second => .rejected second

instance : Applicative Checked where
  pure := accepted
  seq f x := apply f (x ())

def fail (cause : IssueCause) : Checked α := .rejected [{ cause }]

/-- A result, or one issue when there is none. -/
def ofOption (cause : IssueCause) : Option α → Checked α
  | some a => .accepted a
  | none => fail cause

def andThen (outcome : Checked α) (next : α → Checked β) : Checked β :=
  match outcome with
  | .accepted a => next a
  | .rejected issues => .rejected issues
  | .broken failure => .broken failure

/-- The same outcome, seen from one step further out. -/
def under (step : PlaceStep) : Checked α → Checked α
  | .rejected issues => .rejected (issues.map (·.under step))
  | outcome => outcome

def ensure (outcome : Checked α) (rule : α → Bool) (cause : IssueCause) : Checked α :=
  outcome.andThen fun a => if rule a then .accepted a else fail cause

def validated (model : String) : Checked α → Except Failure α
  | .accepted a => .ok a
  | .rejected issues => .error (.invalid model issues)
  | .broken failure => .error failure

def all : List (Checked α) → Checked (List α)
  | [] => .accepted []
  | outcome :: rest => List.cons <$> outcome <*> all rest

end Checked

namespace Check

/-- The integer of a text, or the issue that it is none. -/
private def intOfText (s : String) : Checked Int :=
  match Numeral.lenientInt s with
  | .ok n => .accepted n
  | .error .malformed => Checked.fail .intParsing
  | .error (.tooLong _) => Checked.fail .intParsingSize

/-- The first integer that a signed word of 64 bits cannot hold. -/
def wordBound : Int := 9223372036854775808

/-- Whether a signed word of 64 bits can hold an integer. -/
def inWord (n : Int) : Bool := -wordBound ≤ n && n < wordBound

/-- The integer that a finite number without a fraction stands for, if it lies between the bounds of
a word. -/
private def wordOf? (x : Double) : Option Int :=
  x.toInt?.filter fun n => -wordBound < n && n < wordBound

def int : Value → Checked Int
  | .int n => .accepted n
  | .bool b => .accepted (if b then 1 else 0)
  | .float x =>
      if !x.isFinite then Checked.fail .finiteNumber
      else if x.toInt?.isNone then Checked.fail .intFromFloat
      else Checked.ofOption .intParsingSize (wordOf? x)
  | .text s => intOfText s
  | .bytes data => (Checked.ofOption .intParsing (Text.utf8? data)).andThen intOfText
  | _ => Checked.fail .intType

/-- An integer that is not below a bound. -/
def intAtLeast (bound : Int) (value : Value) : Checked Int :=
  (int value).ensure (bound ≤ ·) (.atLeast bound)

/-- A natural number that is not below a bound. -/
def natAtLeast (bound : Nat) (value : Value) : Checked Nat :=
  Int.toNat <$> intAtLeast bound value

def float : Value → Checked Double
  | .int n =>
      let x := Double.ofInt n
      if x.isFinite then .accepted x else Checked.fail .floatType
  | .bool b => .accepted (Double.ofInt (if b then 1 else 0))
  | .float x => .accepted x
  | .text s => Checked.ofOption .floatParsing (Numeral.lenientDouble? s)
  | .bytes data => Checked.ofOption .floatParsing ((Text.utf8? data).bind Numeral.lenientDouble?)
  | _ => Checked.fail .floatType

/-- A floating-point number between two bounds. "Not a number" is above the upper one. -/
def floatBetween (low high : Int) (value : Value) : Checked Double :=
  ((float value).ensure
      (fun x => x.compareInt high == some .lt || x.compareInt high == some .eq)
      (.atMost high)).ensure
    (fun x => x.compareInt low == some .gt || x.compareInt low == some .eq) (.atLeast low)

def boolOfWord? (s : String) : Option Bool :=
  let word := s.toLower
  if ["1", "true", "t", "yes", "y", "on"].contains word then some true
  else if ["0", "false", "f", "no", "n", "off"].contains word then some false
  else none

/-- Only zero and one stand for truth values. -/
private def boolOfInt (n : Int) : Checked Bool :=
  if n == 0 then .accepted false else if n == 1 then .accepted true else Checked.fail .boolParsing

def bool : Value → Checked Bool
  | .bool b => .accepted b
  | .int n => if inWord n then boolOfInt n else Checked.fail .boolType
  | .float x => (Checked.ofOption .boolType (wordOf? x)).andThen boolOfInt
  | .text s => Checked.ofOption .boolParsing (boolOfWord? s)
  | .bytes data => Checked.ofOption .boolParsing ((Text.utf8? data).bind boolOfWord?)
  | _ => Checked.fail .boolType

def text : Value → Checked String
  | .text s => .accepted s
  | .bytes data => Checked.ofOption .stringUnicode (Text.utf8? data)
  | _ => Checked.fail .stringType

def path : Value → Checked String
  | .text s => .accepted (FilePath.normalize s)
  | _ => Checked.fail .pathType

/-- Null, or what another check accepts. -/
def nullable {α : Type} (check : Value → Checked α) : Value → Checked (Option α)
  | .null => .accepted none
  | value => some <$> check value

def list {α : Type} (form : InputForm) (check : Value → Checked α) (value : Value) :
    Checked (List α) :=
  let items? := match value with
    | .list items => some items
    | .tuple items => some items
    | _ => none
  match items? with
  | none => Checked.fail (.listType form)
  | some items =>
      Checked.all (items.mapIdx fun index item => (check item).under (.index index))

def keyStep : Value → PlaceStep
  | .text s => .name s
  | .int n => if inWord n then .index n else .name (toString n)
  | .bool b => .index (if b then 1 else 0)
  | key => .name key.display

def mapping {α : Type} (form : InputForm) (check : Value → Checked α) :
    Value → Checked (List (String × α))
  | .map entries =>
      Checked.all <| entries.map fun (key, value) =>
        let name := ((text key).under (.name "[key]")).under (keyStep key)
        Prod.mk <$> name <*> (check value).under (keyStep key)
  | _ => Checked.fail (.dictType form)

def any (value : Value) : Checked Value := .accepted value

def record (form : InputForm) : Value → Checked Record := mapping form any

def literal (choices : List String) : Value → Checked String
  | .text s => if choices.contains s then .accepted s else Checked.fail (.literal choices)
  | _ => Checked.fail (.literal choices)

def enumeration {α : Type} (members : List α) (name : α → String) (value : Value) : Checked α :=
  let given : Option String := match value with
    | .text s => some s
    | .bytes data => Text.utf8? data
    | _ => none
  Checked.ofOption (.enumeration (members.map name))
    (members.find? fun member => given == some (name member))

def fields (model : String) (form : InputForm) : Value → Checked (List (Value × Value))
  | .map entries => .accepted entries
  | _ => Checked.fail (.modelType model form)

/-- A field of a model: what is given under its name, or else the default. -/
def field {α : Type} (entries : List (Value × Value)) (name : String) (check : Value → Checked α)
    (default : Checked α) : Checked α :=
  match Value.lookup? name entries with
  | some value => (check value).under (.name name)
  | none => default

def required {α : Type} (entries : List (Value × Value)) (name : String)
    (check : Value → Checked α) : Checked α :=
  field entries name check ((Checked.fail .missing).under (.name name))

end Check

end WebHarvest
