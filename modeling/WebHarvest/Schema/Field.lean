import WebHarvest.Value.Basic

/-!
# Building schemas

A schema maps output keys to fields. A field is a descriptor made by one of the builders below, a
function of the page, a nested schema, or data that is copied to every record.
-/

set_option autoImplicit false

namespace WebHarvest.Schema

/-- The text of the match, or of the current element when there is no selector. -/
def text (selector : Value := .null) (trim : Value := .bool true) (default : Value := .null) :
    Value :=
  .descriptor (.fieldKind .text) selector .null trim default .null

def attr (selector : Value := .null) (name : Value := .null) (default : Value := .null) : Value :=
  .descriptor (.fieldKind .attr) selector name (.bool true) default .null

def html (selector : Value := .null) (default : Value := .null) : Value :=
  .descriptor (.fieldKind .html) selector .null (.bool true) default .null

def presence (selector : Value := .null) : Value :=
  .descriptor (.fieldKind .presence) selector .null (.bool true) .null .null

def count (selector : Value) : Value :=
  .descriptor (.fieldKind .count) selector .null (.bool true) .null .null

/-- One result for every match, in document order. -/
def array (selector item : Value) : Value :=
  .descriptor (.fieldKind .array) selector .null (.bool true) .null item

/-- The extractor used when the caller gives none: text, markup and tag of each element. -/
def defaultSource : String :=
  "(el) => (\x7b text: el.textContent?.trim(), html: el.innerHTML, tag: el.tagName.toLowerCase() \x7d)"

end WebHarvest.Schema
