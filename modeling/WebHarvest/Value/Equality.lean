import WebHarvest.Value.Basic

/-!
# Equality of values

Two host values are the same when they stand for the same thing: numbers are compared by size
whatever their type, truth values count as zero and one, and mappings are compared without regard to
the order of their entries. A mapping holds a key once. A callable and an object of an unknown class
have no structure to compare: each is the same as nothing else, and since a value does not say which
one it is, it is the same as no value.
-/

set_option autoImplicit false

namespace WebHarvest.Value

/-- The number a value stands for, truth values included. -/
private inductive Numeric where
  | whole (n : Int)
  | real (x : Double)

/-- What a value counts as among numbers, if it is one. -/
private def numeric? : Value → Option Numeric
  | .bool b => some (.whole (if b then 1 else 0))
  | .int n => some (.whole n)
  | .float x => some (.real x)
  | _ => none

private def Numeric.same : Numeric → Numeric → Bool
  | .whole m, .whole n => m == n
  | .whole n, .real x => x.compareInt n == some .eq
  | .real x, .whole n => x.compareInt n == some .eq
  | .real x, .real y => Double.same x y

private def sameNumber (left right : Value) : Bool :=
  match numeric? left, numeric? right with
  | some m, some n => m.same n
  | _, _ => false

mutual

def same : Value → Value → Bool
  | .null, .null => true
  | .text s, .text t => s == t
  | .bytes s, .bytes t => s == t
  | .list xs, .list ys => sameItems xs ys
  | .tuple xs, .tuple ys => sameItems xs ys
  | .map xs, .map ys => xs.length == ys.length && sameEntries xs ys
  | .descriptor k s a t d i, .descriptor k' s' a' t' d' i' =>
      same k k' && same s s' && same a a' && same t t' && same d d' && same i i'
  | .fieldKind k, .fieldKind k' => k == k'
  | .fieldKind k, .text t => k.name == t
  | .text s, .fieldKind k => s == k.name
  | .script s, .script t => same s t
  | .compiled root callbacks, .compiled root' callbacks' =>
      sameNode root root' && callbacks == callbacks'
  | .options s, .options t => s == t
  | .job u s e o, .job u' s' e' o' => u == u' && s == s' && same e e' && o == o'
  | .bool b, right => sameNumber (.bool b) right
  | .int n, right => sameNumber (.int n) right
  | .float x, right => sameNumber (.float x) right
  | _, _ => false

def sameItems : List Value → List Value → Bool
  | [], [] => true
  | x :: xs, y :: ys => same x y && sameItems xs ys
  | _, _ => false

/-- Every entry of the first mapping has its like in the second. -/
def sameEntries : List (Value × Value) → List (Value × Value) → Bool
  | [], _ => true
  | (key, value) :: rest, ys =>
      (ys.any fun (key', value') => same key key' && same value value') && sameEntries rest ys

/-- Equality of compiled nodes: the same kind of node with the same slots. -/
def sameNode : Node Value → Node Value → Bool
  | .text s t d, .text s' t' d' => same s s' && same t t' && same d d'
  | .attr s a d, .attr s' a' d' => same s s' && same a a' && same d d'
  | .html s d, .html s' d' => same s s' && same d d'
  | .presence s, .presence s' => same s s'
  | .count s, .count s' => same s s'
  | .array s i, .array s' i' => same s s' && sameNode i i'
  | .object fields, .object fields' => sameFields fields fields'
  | .callback ref, .callback ref' => ref == ref'
  | .value data, .value data' => same data data'
  | .defective (.unknownKind kind), .defective (.unknownKind kind') => same kind kind'
  | _, _ => false

/-- Equality of the fields of a record, which includes their order. -/
def sameFields : List (String × Node Value) → List (String × Node Value) → Bool
  | [], [] => true
  | (key, node) :: rest, (key', node') :: rest' =>
      key == key' && sameNode node node' && sameFields rest rest'
  | _, _ => false

end

/-- Puts an entry into a mapping: a key that is there already keeps its place and gets the value. -/
def putEntry (key value : Value) : List (Value × Value) → List (Value × Value)
  | [] => [(key, value)]
  | (k, v) :: rest => if k.same key then (k, value) :: rest else (k, v) :: putEntry key value rest

/-- The mapping that results from putting entries one after another. -/
def ofPairs (pairs : List (Value × Value)) : Value :=
  .map (pairs.foldl (fun entries (key, value) => putEntry key value entries) [])

end WebHarvest.Value
