import ChartGrammar.Value.Layout

/-! Patterns with one named field. A field stands between braces and holds a name, with a path into the value
where one is asked for; then, after an exclamation mark, the form in which the value is shown; and then, after
a colon, a layout, which may be a pattern of its own. A brace that is text is doubled. A pattern is read from
left to right, and the first piece of it that cannot be filled in decides how it fails. -/

namespace ChartGrammar.Template

/-- What stands between the braces of a field. -/
structure Field where
  name : List Char
  /-- The letter of the form. -/
  form : Option Char
  layout : List Char
  deriving DecidableEq, Repr

/-- A piece of a pattern. -/
inductive Piece where
  | char (c : Char)
  | field (f : Field)
  /-- A brace or a form out of place; nothing after it counts. -/
  | broken
  deriving DecidableEq, Repr

/-- Where in a pattern the reader stands. Names and layouts are held backwards. -/
inductive Mode where
  | plain
  /-- After an opening brace. -/
  | opened
  /-- After a closing brace outside a field. -/
  | closed
  | naming (name : List Char)
  /-- Between square brackets in a name, where no character but the closing bracket counts. -/
  | indexing (name : List Char)
  /-- After the exclamation mark of a field. -/
  | choosing (name : List Char)
  /-- After the letter of the form. -/
  | chosen (name : List Char) (form : Char)
  /-- After the colon of a field, inside so many braces. -/
  | layingOut (name : List Char) (form : Option Char) (layout : List Char) (depth : Nat)
  /-- After a brace or a form out of place. -/
  | failed

/-- The piece that a character completes, if it does, and where the reader stands after it. -/
abbrev Move := Option Piece × Mode

/-- One character of a field's name. -/
def nameStep (name : List Char) (c : Char) : Move :=
  if c = '\x7b' then (none, .failed)
  else if c = '\x7d' then (some (.field ⟨name.reverse, none, []⟩), .plain)
  else if c = '!' then (none, .choosing name)
  else if c = ':' then (none, .layingOut name none [] 0)
  else if c = '[' then (none, .indexing (c :: name))
  else (none, .naming (c :: name))

/-- One character of a field's layout. Only the brace that closes the field ends it. -/
def layoutStep (name : List Char) (form : Option Char) (layout : List Char) (depth : Nat) (c : Char) : Move :=
  if c = '\x7d' ∧ depth = 0 then (some (.field ⟨name.reverse, form, layout.reverse⟩), .plain)
  else if c = '\x7d' then (none, .layingOut name form (c :: layout) (depth - 1))
  else if c = '\x7b' then (none, .layingOut name form (c :: layout) (depth + 1))
  else (none, .layingOut name form (c :: layout) depth)

/-- One character of a pattern. -/
def step : Mode → Char → Move
  | .plain, c =>
    if c = '\x7b' then (none, .opened) else if c = '\x7d' then (none, .closed) else (some (.char c), .plain)
  | .opened, c => if c = '\x7b' then (some (.char c), .plain) else nameStep [] c
  | .closed, c => if c = '\x7d' then (some (.char c), .plain) else (none, .failed)
  | .naming name, c => nameStep name c
  | .indexing name, c => (none, if c = ']' then .naming (c :: name) else .indexing (c :: name))
  | .choosing name, c => (none, .chosen name c)
  | .chosen name form, c =>
    if c = '\x7d' then (some (.field ⟨name.reverse, some form, []⟩), .plain)
    else if c = ':' then (none, .layingOut name (some form) [] 0)
    else (none, .failed)
  | .layingOut name form layout depth, c => layoutStep name form layout depth c
  | .failed, _ => (none, .failed)

/-- The pieces of a pattern, read from a given standing. A pattern that ends inside a field is broken. -/
def scan : Mode → List Char → List Piece
  | .plain, [] => []
  | _, [] => [.broken]
  | mode, c :: rest =>
    match step mode c with
    | (some piece, after) => piece :: scan after rest
    | (none, after) => scan after rest

/-- The pieces of a pattern. -/
def pieces (pattern : List Char) : List Piece :=
  scan .plain pattern

/-- The value that a name stands for: that of the one field, or what a path finds in it. A field without a
name, or with a number for one, is asked for by position. -/
def lookUp (field : List Char) (value : Value) (name : List Char) : Except Misuse Value := do
  let base := name.takeWhile fun c => c != '.' && c != '['
  match ← Access.position? base with
  | some _ => .error .missingPosition
  | none =>
    if base.isEmpty then .error .missingPosition
    else if base ≠ field then .error .missingEntry
    else Access.follow value (name.drop base.length)

/-- A value in the form that a letter asks for: `s` for its display, `r` for its written form, `a` for the
written form in ASCII. A null character asks for nothing. -/
def showAs (v : Value) : Option Char → Except Misuse Value
  | none => .ok v
  | some c =>
    if c = 's' then .text <$> v.present
    else if c = 'r' then .text <$> v.write
    else if c = 'a' then (.text <| Text.ascii ·) <$> v.write
    else if c = '\x00' then .ok v
    else .error .badPattern

/-- The text that a field is filled with. A layout with a field in it is filled in first, by `expand`. -/
def fill (field : List Char) (value : Value) (expand : List Char → Except Misuse String) (f : Field) :
    Except Misuse String := do
  let found ← lookUp field value f.name
  let shown ← showAs found f.form
  if f.layout.contains '\x7b' then shown.layOut (← expand f.layout).toList else shown.layOut f.layout

/-- The pieces with their fields filled in. -/
def render (fill : Field → Except Misuse String) : List Piece → Except Misuse String
  | [] => .ok ""
  | .char c :: rest => do return String.singleton c ++ (← render fill rest)
  | .field f :: rest => do
    let filled ← fill f
    return filled ++ (← render fill rest)
  | .broken :: _ => .error .badPattern

/-- A pattern with its fields filled in, for so many levels of patterns inside patterns. -/
def expand (field : List Char) (value : Value) : Nat → List Char → Except Misuse String
  | 0, _ => .error .badPattern
  | levels + 1, pattern => render (fill field value (expand field value levels)) (pieces pattern)

/-- How many levels of patterns there may be: a pattern, and the layouts of its fields. -/
def maxLevels : Nat := 2

/-- Fills the field of a pattern with a value. Only a text is a pattern. -/
def apply (pattern : Value) (field : String) (value : Value) : Except Misuse Value :=
  match pattern with
  | .text s => do return .text (← expand field.toList value maxLevels s.toList)
  | _ => .error .missingAttribute

end ChartGrammar.Template
