import ChartGrammar.Text.Printable

/-! Quoted text. The quote is `'` unless the text holds a `'` and no `"`; the quote and the backslash are
written after a backslash, three controls by a letter, and other unprintable characters by their code point in
two, four or eight hexadecimal digits. -/

namespace ChartGrammar.Text

/-- A number in lower-case hexadecimal, filled with zeros to at least `width` digits. -/
def hex (width n : Nat) : String :=
  let digits := Nat.toDigits 16 n
  String.ofList (List.replicate (width - digits.length) '0' ++ digits)

/-- The escape of an unprintable character by its code point. -/
def escapeCode (c : Char) : String :=
  let n := c.toNat
  if n < 0x100 then "\\x" ++ hex 2 n
  else if n < 0x10000 then "\\u" ++ hex 4 n
  else "\\U" ++ hex 8 n

/-- The text with every character beyond ASCII escaped by its code point. -/
def ascii (s : String) : String :=
  String.join (s.toList.map fun c => if c.toNat < 0x80 then String.singleton c else escapeCode c)

/-- One character inside a text quoted by `quote`. -/
def quoteChar (quote c : Char) : String :=
  if c = quote ∨ c = '\\' then String.ofList ['\\', c]
  else if c = '\n' then "\\n"
  else if c = '\t' then "\\t"
  else if c = '\r' then "\\r"
  else if isPrintable c then String.singleton c
  else escapeCode c

/-- The quote that a text is written between. -/
def quoteFor (s : String) : Char :=
  if s.toList.contains '\x27' && !s.toList.contains '\x22' then '\x22' else '\x27'

/-- The text between quotes. -/
def quoted (s : String) : String :=
  let quote := quoteFor s
  String.singleton quote ++ String.join (s.toList.map (quoteChar quote)) ++ String.singleton quote

/-- A list of quoted texts between square brackets. -/
def quotedList (items : List String) : String :=
  "[" ++ ", ".intercalate (items.map quoted) ++ "]"

end ChartGrammar.Text
