import Mathlib

/-!
# JSON values

The value type of a JSON library that keeps object fields in order, the
accessors a program uses to read one, and the compact text a serializer without
whitespace writes.  Integers and other numbers are kept apart, since an
accessor for integers reads only the former.
-/

/-- A JSON value, with the fields of an object in the order they are written. -/
inductive Json where
  | null
  | bool (value : Bool)
  | int (value : Int)
  | float (text : String)
  | str (value : String)
  | arr (items : List Json)
  | obj (fields : List (String × Json))

namespace Json

/-- The field of an object, the first one where a name is repeated. -/
def get? (name : String) : Json → Option Json
  | obj fields => fields.lookup name
  | _ => none

def asStr? : Json → Option String
  | str value => some value
  | _ => none

def asBool? : Json → Option Bool
  | bool value => some value
  | _ => none

/-- An unsigned 64-bit reading of a number. -/
def asU64? : Json → Option Nat
  | int value => if 0 ≤ value ∧ value < 2 ^ 64 then some value.toNat else none
  | _ => none

def asArr? : Json → Option (List Json)
  | arr items => some items
  | _ => none

/-- Follow a path of field names. -/
def pointer? : List String → Json → Option Json
  | [], value => some value
  | name :: path, value =>
      match value.get? name with
      | some inner => pointer? path inner
      | none => none

/-- The value of a field as a typed reader of a record finds it: under its name
in an object, at its place in an array with one item for each field. -/
def recordField? (names : List String) (name : String) : Json → Option Json
  | obj fields => fields.lookup name
  | arr items => if items.length = names.length then items[names.idxOf name]? else none
  | _ => none

def ofOption {α : Type*} (encode : α → Json) : Option α → Json
  | some value => encode value
  | none => null

def hexDigit (digit : Nat) : Char :=
  if digit < 10 then Char.ofNat (48 + digit) else Char.ofNat (87 + digit)

/-- One character inside a string literal. -/
def escapeChar (char : Char) : List Char :=
  if char = '"' then ['\\', '"']
  else if char = '\\' then ['\\', '\\']
  else if char = '\x08' then ['\\', 'b']
  else if char = '\x0c' then ['\\', 'f']
  else if char = '\n' then ['\\', 'n']
  else if char = '\r' then ['\\', 'r']
  else if char = '\t' then ['\\', 't']
  else if char.toNat < 32 then
    ['\\', 'u', '0', '0', hexDigit (char.toNat / 16), hexDigit (char.toNat % 16)]
  else [char]

def quote (text : String) : String :=
  "\"" ++ String.ofList (text.toList.flatMap escapeChar) ++ "\""

mutual

/-- The text of a value without whitespace. -/
def compact : Json → String
  | null => "null"
  | bool true => "true"
  | bool false => "false"
  | int value => toString value
  | float text => text
  | str value => quote value
  | arr items => "[" ++ compactItems items ++ "]"
  | obj fields => "\x7b" ++ compactFields fields ++ "\x7d"

def compactItems : List Json → String
  | [] => ""
  | [item] => compact item
  | item :: next :: items => compact item ++ "," ++ compactItems (next :: items)

def compactFields : List (String × Json) → String
  | [] => ""
  | [(name, value)] => quote name ++ ":" ++ compact value
  | (name, value) :: next :: fields =>
      quote name ++ ":" ++ compact value ++ "," ++ compactFields (next :: fields)

end

end Json
