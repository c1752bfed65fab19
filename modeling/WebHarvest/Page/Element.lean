/-!
# Elements of a page

An element, as far as extraction looks at it: its text, its markup, its attributes and, for each
selector, the elements below it that match, in document order.
-/

set_option autoImplicit false

namespace WebHarvest

inductive Element where
  | node (text html : Option String) (attributes : List (String × String))
      (matching : List (String × List Element))
  deriving Inhabited

namespace Element

def text? : Element → Option String
  | .node text _ _ _ => text

def html? : Element → Option String
  | .node _ html _ _ => html

/-- An attribute; names are compared exactly. -/
def attribute? (name : String) : Element → Option String
  | .node _ _ attributes _ => (attributes.find? (·.1 == name)).map (·.2)

/-- All matches of a selector below the element, in document order. -/
def select (selector : String) : Element → List Element
  | .node _ _ _ matching => ((matching.find? (·.1 == selector)).map (·.2)).getD []

end Element

end WebHarvest
