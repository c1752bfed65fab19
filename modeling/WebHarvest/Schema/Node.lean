/-!
# Compiled nodes

A compiled schema is a tree of nodes that a page can run without the host. The slots of a node
(selectors, attribute names, defaults) hold data of a type `α`: host values when the tree has just
been compiled, page data once it has been sent.
-/

set_option autoImplicit false

namespace WebHarvest

inductive FieldKind where
  | text
  | attr
  | html
  | presence
  | count
  | array
  deriving DecidableEq, Repr

namespace FieldKind

def all : List FieldKind := [text, attr, html, presence, count, array]

def name : FieldKind → String
  | text => "text"
  | attr => "attr"
  | html => "html"
  | presence => "exists"
  | count => "count"
  | array => "array"

def ofName? (s : String) : Option FieldKind := all.find? (·.name == s)

end FieldKind

/-- Why a node cannot be run. No compiled schema has such a node, but payloads can be written by
hand. -/
inductive Defect (α : Type) where
  /-- A node of a kind that no interpreter knows. -/
  | unknownKind (kind : α)
  | absent (nothing : α)
  /-- The fields of a record are no sequence. -/
  | noFields
  /-- A field of a record is no sequence of a key and a node. -/
  | noField
  deriving Repr

def Defect.map {α β : Type} (f : α → β) : Defect α → Defect β
  | .unknownKind kind => .unknownKind (f kind)
  | .absent nothing => .absent (f nothing)
  | .noFields => .noFields
  | .noField => .noField

/-- One instruction of a compiled schema. -/
inductive Node (α : Type) where
  /-- The text of the match, trimmed on demand. -/
  | text (selector trim default : α)
  | attr (selector attrName default : α)
  /-- The markup inside the match. -/
  | html (selector default : α)
  | presence (selector : α)
  /-- How many matches there are. -/
  | count (selector : α)
  | array (selector : α) (item : Node α)
  /-- A record. -/
  | object (fields : List (String × Node α))
  | callback (ref : String)
  /-- Data that does not depend on the page. -/
  | value (data : α)
  | defective (defect : Defect α)
  deriving Repr

namespace Node

variable {α β : Type}

mutual

def map (f : α → β) : Node α → Node β
  | .text selector trim default => .text (f selector) (f trim) (f default)
  | .attr selector attrName default => .attr (f selector) (f attrName) (f default)
  | .html selector default => .html (f selector) (f default)
  | .presence selector => .presence (f selector)
  | .count selector => .count (f selector)
  | .array selector item => .array (f selector) (map f item)
  | .object fields => .object (mapFields f fields)
  | .callback ref => .callback ref
  | .value data => .value (f data)
  | .defective defect => .defective (defect.map f)

def mapFields (f : α → β) : List (String × Node α) → List (String × Node β)
  | [] => []
  | (key, node) :: rest => (key, map f node) :: mapFields f rest

end

end Node

/-- A schema in executable form: its node tree and the sources of its functions, each under the
reference that the tree uses. -/
structure CompiledSchema (α : Type) where
  root : Node α
  callbacks : List (String × String) := []

/-- A compiled schema is pure when it carries no functions, so that its payload is plain data. -/
inductive CompileMode where
  | pure
  | mixed
  deriving DecidableEq, Repr

def CompileMode.all : List CompileMode := [.pure, .mixed]

def CompileMode.name : CompileMode → String
  | .pure => "pure"
  | .mixed => "mixed"

def CompiledSchema.mode {α : Type} (schema : CompiledSchema α) : CompileMode :=
  if schema.callbacks.isEmpty then .pure else .mixed

end WebHarvest
