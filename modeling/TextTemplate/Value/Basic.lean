import TextTemplate.Binary64.Arithmetic
/-!
# Values

A value is what a data context holds and what an expression evaluates to. An object keeps its
entries in the order in which they were stored; no operation of the library lets that order be
seen, as long as no key is stored twice.

* `Value`: null, booleans, doubles, texts, arrays and objects.
* `Value.Kind`: the six kinds, with the names that messages use.
* `Value.get?`: the entry of an object.
* `Value.equals`: equality of contents, with numbers compared as doubles.
* `Value.ofEntries`: an object in which the last of several entries with one key counts.
-/
namespace TextTemplate

/-- A value of a data context. -/
inductive Value where
  | null
  | boolean (b : Bool)
  | number (n : Binary64)
  | string (s : String)
  | array (items : List Value)
  | object (entries : List (String × Value))
deriving Inhabited

namespace Value

/-- The kinds of values. -/
inductive Kind where
  | null
  | boolean
  | number
  | string
  | array
  | object
deriving DecidableEq, Repr

/-- The name of a kind in messages. -/
def Kind.name : Kind → String
  | .null => "null"
  | .boolean => "boolean"
  | .number => "number"
  | .string => "string"
  | .array => "array"
  | .object => "object"

/-- The kind of a value. -/
def kind : Value → Kind
  | .null => .null
  | .boolean _ => .boolean
  | .number _ => .number
  | .string _ => .string
  | .array _ => .array
  | .object _ => .object

/-- The entry of an object under a key; no other value has entries. -/
def get? (key : String) : Value → Option Value
  | .object entries => entries.lookup key
  | _ => none

/-- The double of a number; no other value has one. -/
def number? : Value → Option Binary64
  | .number n => some n
  | _ => none

/-- The object without entries. -/
def emptyObject : Value := .object []

/-! ## Equality of contents -/

mutual

/-- Whether two values have the same contents: numbers are compared as doubles, arrays position by
position, and objects key by key, in whatever order they are stored. -/
def equals : Value → Value → Bool
  | .null, .null => true
  | .boolean a, .boolean b => a == b
  | .number a, .number b => a.equals b
  | .string a, .string b => a == b
  | .array as, .array bs => equalItems as bs
  | .object as, .object bs => as.length == bs.length && equalEntries as bs
  | _, _ => false

/-- Whether two lists hold the same contents position by position. -/
def equalItems : List Value → List Value → Bool
  | [], [] => true
  | a :: as, b :: bs => equals a b && equalItems as bs
  | _, _ => false

/-- Whether every entry of the first list has an equal one in the second. -/
def equalEntries : List (String × Value) → List (String × Value) → Bool
  | [], _ => true
  | (key, a) :: as, bs =>
    (match bs.lookup key with
      | some b => equals a b
      | none => false) && equalEntries as bs

end

/-! ## Objects -/

/-- Stores a value under a key; an entry that is there already gets the new value. -/
def insertEntry (entries : List (String × Value)) (key : String) (value : Value) :
    List (String × Value) :=
  match entries with
  | [] => [(key, value)]
  | (k, v) :: rest =>
    if k = key then (key, value) :: rest else (k, v) :: insertEntry rest key value

/-- The object with the given entries, stored one after the other. -/
def ofEntries (entries : List (String × Value)) : Value :=
  .object (entries.foldl (fun stored entry => insertEntry stored entry.1 entry.2) [])

end Value
end TextTemplate
