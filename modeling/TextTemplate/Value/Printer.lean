import TextTemplate.Binary64.Text
import TextTemplate.Text.Quoted
import TextTemplate.Value.Basic
/-!
# Printing values

Values are printed as JSON on one line or indented by two spaces for each level. Objects are
printed in ascending order of their keys, and a number that JSON cannot carry is printed as `null`.

* `Value.compact`, `Value.indented`: the two layouts.
* `Value.display`: the text of a value in a template: texts stand for themselves, arrays and
  objects are compact JSON.
* `Value.summary`: a short description of a value for messages.
-/
namespace TextTemplate
namespace Value

/-- How nested values are laid out. -/
inductive Layout where
  | compact
  | indented
deriving DecidableEq, Repr

/-- What separates two members of an array or object at a level of nesting. -/
def Layout.lineBreak : Layout → (level : Nat) → List Char
  | .compact, _ => []
  | .indented, level => '\n' :: List.replicate (2 * level) ' '

/-- What stands between a key and its value. -/
def Layout.colon : Layout → List Char
  | .compact => [':']
  | .indented => [':', ' ']

/-- Members between brackets, with commas between them. The members stand one level deeper than
the brackets. -/
def bracketed (layout : Layout) (level : Nat) (left right : Char) : List (List Char) → List Char
  | [] => [left, right]
  | member :: more =>
    left :: layout.lineBreak (level + 1) ++ member
      ++ more.flatMap (fun m => ',' :: layout.lineBreak (level + 1) ++ m)
      ++ layout.lineBreak level ++ [right]

/-- Brings entries into ascending order of their keys, compared by code points. -/
def sortByKey {α : Type} (entries : List (String × α)) : List (String × α) :=
  entries.mergeSort fun a b => decide (a.1 ≤ b.1)

mutual

/-- The JSON text of a value whose brackets stand at a level of nesting. -/
def jsonChars (layout : Layout) (level : Nat) : Value → List Char
  | .null => "null".toList
  | .boolean true => "true".toList
  | .boolean false => "false".toList
  | .number n => if n.isFinite then n.textChars else "null".toList
  | .string s => quote s.toList
  | .array items => bracketed layout level '[' ']' (itemChars layout (level + 1) items)
  | .object entries =>
    bracketed layout level '\x7b' '\x7d'
      ((sortByKey (entryChars layout (level + 1) entries)).map (·.2))

/-- The JSON texts of a list of values. -/
def itemChars (layout : Layout) (level : Nat) : List Value → List (List Char)
  | [] => []
  | item :: more => jsonChars layout level item :: itemChars layout level more

/-- The JSON texts of a list of entries, each with its key. -/
def entryChars (layout : Layout) (level : Nat) :
    List (String × Value) → List (String × List Char)
  | [] => []
  | (key, value) :: more =>
    (key, quote key.toList ++ layout.colon ++ jsonChars layout level value)
      :: entryChars layout level more

end

/-- The value as JSON on one line. -/
def compact (v : Value) : String := String.ofList (jsonChars .compact 0 v)

/-- The value as JSON with one member on each line. -/
def indented (v : Value) : String := String.ofList (jsonChars .indented 0 v)

/-- The text that stands for a value in a template. -/
def display : Value → String
  | .null => "null"
  | .boolean true => "true"
  | .boolean false => "false"
  | .number n => n.text
  | .string s => s
  | v => v.compact

/-! ## Summaries -/

/-- How many keys of an object a summary lists. -/
def summaryKeys : Nat := 8

/-- How many characters of a text a summary shows at most. -/
def summaryChars : Nat := 32

/-- A short description of a value: arrays and long texts by their size, objects by their first
keys, and all others by their text. -/
def summary : Value → String
  | .object entries =>
    let keys := (sortByKey entries).map (·.1)
    let listed := ", ".intercalate (keys.take summaryKeys)
    let more := if summaryKeys < keys.length then ", ..." else ""
    "object \x7b" ++ listed ++ more ++ "\x7d"
  | .array items => "array of " ++ toString items.length
  | .string s =>
    if summaryChars < s.length then "string of " ++ toString s.length ++ " chars" else s
  | v => v.display

end Value
end TextTemplate
