import ChartGrammar.Value.Equality

/-! Values read from the text of a document: null, truth values, numbers, texts, lists and dictionaries with
text keys. A number without a point and an exponent is an integer. Of entries with one key the last counts.
-/

namespace ChartGrammar.JsonReader

/-- The characters between tokens. -/
def isSpace (c : Char) : Bool :=
  c == ' ' || c == '\n' || c == '\t' || c == '\r'

def skip (s : List Char) : List Char :=
  s.dropWhile isSpace

/-- The value of a hexadecimal digit. -/
def hexDigit? (c : Char) : Option Nat :=
  if c.isDigit then some (c.toNat - 48)
  else if 'a' ≤ c && c ≤ 'f' then some (c.toNat - 87)
  else if 'A' ≤ c && c ≤ 'F' then some (c.toNat - 55)
  else none

/-- The number that four hexadecimal digits write. -/
def unit? (a b c d : Char) : Option Nat := do
  return (((← hexDigit? a) * 16 + (← hexDigit? b)) * 16 + (← hexDigit? c)) * 16 + (← hexDigit? d)

/-- The character of a code point that is no surrogate. -/
def scalar? (n : Nat) : Option Char :=
  if n.isValidChar then some (Char.ofNat n) else none

/-- The character that a letter after a backslash stands for. -/
def escape? : Char → Option Char
  | '\x22' => some '\x22'
  | '\\' => some '\\'
  | '/' => some '/'
  | 'b' => some '\x08'
  | 'f' => some '\x0c'
  | 'n' => some '\n'
  | 'r' => some '\r'
  | 't' => some '\t'
  | _ => none

/-- The characters of a text up to its closing quote. Two surrogates in a row stand for one character. -/
def characters : List Char → Option (List Char × List Char)
  | [] => none
  | '\x22' :: rest => some ([], rest)
  | '\\' :: 'u' :: a :: b :: c :: d :: rest => do
    let n ← unit? a b c d
    if 0xd800 ≤ n && n < 0xdc00 then
      match rest with
      | '\\' :: 'u' :: e :: f :: g :: h :: rest =>
        let low ← unit? e f g h
        guard (0xdc00 ≤ low && low < 0xe000)
        let character ← scalar? (0x10000 + (n - 0xd800) * 0x400 + (low - 0xdc00))
        let (cs, after) ← characters rest
        return (character :: cs, after)
      | _ => none
    else
      let character ← scalar? n
      let (cs, after) ← characters rest
      return (character :: cs, after)
  | '\\' :: c :: rest => do
    let character ← escape? c
    let (cs, after) ← characters rest
    return (character :: cs, after)
  | c :: rest => do
    let (cs, after) ← characters rest
    return (c :: cs, after)

/-- The number that decimal digits write. -/
def natural? (digits : List Char) : Option Nat :=
  if digits.isEmpty || !digits.all Char.isDigit then none
  else some (digits.foldl (fun n c => 10 * n + (c.toNat - 48)) 0)

/-- The number that decimal digits after a sign write. -/
def signed? : List Char → Option Int
  | '-' :: digits => (natural? digits).map fun n => -(n : Int)
  | '+' :: digits => (natural? digits).map Int.ofNat
  | digits => (natural? digits).map Int.ofNat

/-- The digits after a decimal point, if there is one, and what follows them. -/
def fraction? : List Char → Option (List Char × List Char)
  | '.' :: rest =>
    let digits := rest.takeWhile Char.isDigit
    if digits.isEmpty then none else some (digits, rest.drop digits.length)
  | rest => some ([], rest)

/-- The power of ten at the end of a number. -/
def exponent? : List Char → Option Int
  | [] => some 0
  | 'e' :: rest => signed? rest
  | 'E' :: rest => signed? rest
  | _ => none

/-- The number without a sign that a word writes. -/
def size? (word : List Char) : Option Number := do
  let whole := word.takeWhile Char.isDigit
  let n ← natural? whole
  match word.drop whole.length with
  | [] => return .whole n
  | tail =>
    let (fraction, rest) ← fraction? tail
    let exponent ← exponent? rest
    return .real (.ofDecimal (← natural? (whole ++ fraction)) (exponent - fraction.length))

/-- The number that a word writes. -/
def number? : List Char → Option Value
  | '-' :: word => (size? word).map fun
    | .whole n => .int (-n)
    | .real x => .float x.neg
  | word => (size? word).map Value.ofNumber

/-- The characters that numbers and names are made of. -/
def isWord (c : Char) : Bool :=
  c.isAlphanum || c == '-' || c == '+' || c == '.'

/-- The value that a word stands for. -/
def word? (word : List Char) : Option Value :=
  if word = "null".toList then some .null
  else if word = "true".toList then some (.bool true)
  else if word = "false".toList then some (.bool false)
  else number? word

mutual

/-- The value at the front of a text. Each bracket and each element takes one unit of fuel. -/
def value : Nat → List Char → Option (Value × List Char)
  | 0, _ => none
  | fuel + 1, s =>
    match skip s with
    | '\x22' :: rest => (characters rest).map fun r => (.text (String.ofList r.1), r.2)
    | '[' :: rest =>
      match skip rest with
      | ']' :: after => some (.list [], after)
      | _ => (items fuel rest).map fun r => (.list r.1, r.2)
    | '\x7b' :: rest =>
      match skip rest with
      | '\x7d' :: after => some (.dict [], after)
      | _ => (entries fuel rest).map fun r => (.dict (Entries.ofList r.1), r.2)
    | s => (word? (s.takeWhile isWord)).map fun v => (v, s.dropWhile isWord)

/-- The items of a list up to its closing bracket. -/
def items : Nat → List Char → Option (List Value × List Char)
  | 0, _ => none
  | fuel + 1, s => do
    let (v, rest) ← value fuel s
    match skip rest with
    | ',' :: rest =>
      let (vs, after) ← items fuel rest
      return (v :: vs, after)
    | ']' :: after => return ([v], after)
    | _ => none

/-- The entries of a dictionary up to its closing brace. -/
def entries : Nat → List Char → Option (Entries × List Char)
  | 0, _ => none
  | fuel + 1, s => do
    let (key, rest) ← value fuel s
    guard (key.typeName == "str")
    match skip rest with
    | ':' :: rest =>
      let (v, rest) ← value fuel rest
      match skip rest with
      | ',' :: rest =>
        let (es, after) ← entries fuel rest
        return ((key, v) :: es, after)
      | '\x7d' :: after => return ([(key, v)], after)
      | _ => none
    | _ => none

end

end ChartGrammar.JsonReader

namespace ChartGrammar.Value

/-- The value that a document's text stands for; `none` for a text that is no document. -/
def ofJson? (s : String) : Option Value := do
  let (v, rest) ← JsonReader.value (s.toList.length + 1) s.toList
  guard (JsonReader.skip rest).isEmpty
  return v

end ChartGrammar.Value
