import ChartGrammar.Text.Integer
import ChartGrammar.Value.Equality

/-! Paths into a value. A path asks for a part, after a point, or for an item, between square brackets, and
goes on from what it finds there. Digits between the brackets ask for an item by its position, and anything
else asks for it by a text. A path is followed from left to right, so that a step which leads nowhere ends it
before the next one is looked at. -/

namespace ChartGrammar

namespace Value

/-- A part of an integer, taken for a complex number or for a fraction. -/
def partOfInt? (name : String) (n : Int) : Option Value :=
  if name = "real" ∨ name = "numerator" then some (int n)
  else if name = "imag" then some (int 0)
  else if name = "denominator" then some (int 1)
  else none

/-- A part of a value: the two sources of a binding have one each, and numbers are complex numbers. -/
def part? (name : String) : Value → Option Value
  | column v => if name = "name" then some v else none
  | literal v => if name = "value" then some v else none
  | int n => partOfInt? name n
  | bool b => partOfInt? name (if b then 1 else 0)
  | float x =>
    if name = "real" then some (float x)
    else if name = "imag" then some (float .zero)
    else none
  | _ => none

/-- The operations of a value, by name. -/
def operations : Value → List String
  | text _ =>
    ["capitalize", "casefold", "center", "count", "encode", "endswith", "expandtabs", "find", "format", "format_map",
     "index", "isalnum", "isalpha", "isascii", "isdecimal", "isdigit", "isidentifier", "islower", "isnumeric",
     "isprintable", "isspace", "istitle", "isupper", "join", "ljust", "lower", "lstrip", "maketrans", "partition",
     "removeprefix", "removesuffix", "replace", "rfind", "rindex", "rjust", "rpartition", "rsplit", "rstrip", "split",
     "splitlines", "startswith", "strip", "swapcase", "title", "translate", "upper", "zfill"]
  | int _ | bool _ => ["as_integer_ratio", "bit_count", "bit_length", "conjugate", "from_bytes", "to_bytes"]
  | float _ => ["as_integer_ratio", "conjugate", "fromhex", "hex", "is_integer"]
  | list _ => ["append", "clear", "copy", "count", "extend", "index", "insert", "pop", "remove", "reverse", "sort"]
  | tuple _ => ["count", "index"]
  | dict _ =>
    ["clear", "copy", "fromkeys", "get", "items", "keys", "pop", "popitem", "setdefault", "update", "values"]
  | unset => ["_instance"]
  | _ => []

/-- What a value has under the name of a part. Names with two underscores in front are the language's own; nothing is
said of what stands under them, nor of the operations. -/
def part (name : String) (v : Value) : Except Misuse Value :=
  match v.part? name with
  | some u => .ok u
  | none =>
    if "__".toList.isPrefixOf name.toList || v.operations.contains name then .error .uncharted
    else .error .missingAttribute

/-- The item at a position; in a dictionary, the value under an integer. -/
def itemAt (n : Nat) : Value → Except Misuse Value
  | list xs => xs[n]?.elim (.error .missingPosition) .ok
  | tuple xs => xs[n]?.elim (.error .missingPosition) .ok
  | text s => s.toList[n]?.elim (.error .missingPosition) fun c => .ok (text (String.singleton c))
  | dict es => (Entries.get? es (int n)).elim (.error .missingEntry) .ok
  | _ => .error .notIndexable

/-- The value under a text in a dictionary. Nothing else has items that a text asks for. -/
def itemNamed (name : String) : Value → Except Misuse Value
  | dict es => (Entries.field? es name).elim (.error .missingEntry) .ok
  | _ => .error .notIndexable

end Value

/-- One step of a path. -/
inductive Access where
  | part (name : List Char)
  | item (name : List Char)
  /-- A bracket that is not closed, or something other than a step; nothing after it counts. -/
  | broken
  deriving DecidableEq, Repr

namespace Access

/-- Where in a path the reader stands. Names are held backwards. -/
inductive Mode where
  | between
  | inPart (name : List Char)
  | inBrackets (name : List Char)

/-- The steps of a path, read from a given standing. -/
def scan : Mode → List Char → List Access
  | .between, [] => []
  | .between, c :: rest =>
    if c = '.' then scan (.inPart []) rest
    else if c = '[' then scan (.inBrackets []) rest
    else [broken]
  | .inPart name, [] => [part name.reverse]
  | .inPart name, c :: rest =>
    if c = '.' then part name.reverse :: scan (.inPart []) rest
    else if c = '[' then part name.reverse :: scan (.inBrackets []) rest
    else scan (.inPart (c :: name)) rest
  | .inBrackets _, [] => [broken]
  | .inBrackets name, c :: rest =>
    if c = ']' then item name.reverse :: scan .between rest else scan (.inBrackets (c :: name)) rest

/-- The largest position that can be asked for. -/
def maxPosition : Nat := 0x7fffffffffffffff

/-- The position that digits write after a number; `none` if there is something else among them. A position
that grows too large is refused before the rest is looked at. -/
def positionFrom (n : Nat) : List Char → Except Misuse (Option Nat)
  | [] => .ok (some n)
  | c :: rest =>
    match Text.decimalDigit? c with
    | none => .ok none
    | some d => if maxPosition < 10 * n + d then .error .badPattern else positionFrom (10 * n + d) rest

/-- The position that a name asks for, if it consists of digits. -/
def position? (name : List Char) : Except Misuse (Option Nat) :=
  if name.isEmpty then .ok none else positionFrom 0 name

/-- What one step finds in a value. A step has a name. -/
def find (v : Value) : Access → Except Misuse Value
  | broken => .error .badPattern
  | part name =>
    if name.isEmpty then .error .badPattern
    else v.part (String.ofList name)
  | item name => do
    match ← position? name with
    | some n => v.itemAt n
    | none => if name.isEmpty then .error .badPattern else v.itemNamed (String.ofList name)

/-- What a path finds in a value. -/
def follow (v : Value) (path : List Char) : Except Misuse Value :=
  (scan .between path).foldlM find v

end Access

end ChartGrammar
