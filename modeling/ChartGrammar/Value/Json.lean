import ChartGrammar.Sorting.Runs
import ChartGrammar.Value.Equality
import ChartGrammar.Value.Written

/-! Values as documents. `plain` turns a value into one whose containers are lists and dictionaries with
text keys, and `jsonable` does so where every key can be displayed. `json` writes a document as ASCII text: two
spaces of indentation a level, keys sorted, and nothing between the brackets of an empty container. -/

namespace ChartGrammar.Value

mutual

/-- The value with tuples made lists and keys made texts. Of keys with one text the first gives the place
and the last the value. -/
def plain : Value → Value
  | list xs => list (plainItems xs)
  | tuple xs => list (plainItems xs)
  | dict es => dict (Entries.ofList (plainEntries es))
  | v => v

/-- The plain forms of the items. -/
def plainItems : List Value → List Value
  | [] => []
  | v :: vs => plain v :: plainItems vs

/-- The entries with their keys' texts and the plain forms of their values. -/
def plainEntries : Entries → Entries
  | [] => []
  | (k, v) :: es => (text k.display, plain v) :: plainEntries es

end

mutual

/-- The plain form of a value. A key that has no display is a misuse. -/
def jsonable : Value → Except Misuse Value
  | list xs => do return list (← jsonableItems xs)
  | tuple xs => do return list (← jsonableItems xs)
  | dict es => do return dict (Entries.ofList (← jsonableEntries es))
  | v => .ok v

/-- The plain forms of the items. -/
def jsonableItems : List Value → Except Misuse (List Value)
  | [] => .ok []
  | v :: vs => do return (← jsonable v) :: (← jsonableItems vs)

/-- The entries with their keys' texts and the plain forms of their values. -/
def jsonableEntries : Entries → Except Misuse Entries
  | [] => .ok []
  | (k, v) :: es => do
    let entry := (text (← k.present), ← jsonable v)
    return entry :: (← jsonableEntries es)

end

/-- A code point in four hexadecimal digits, or in the two surrogates that stand for it. -/
def jsonEscape (n : Nat) : String :=
  if n < 0x10000 then "\\u" ++ Text.hex 4 n
  else
    let high := 0xd800 + (n - 0x10000) / 0x400
    let low := 0xdc00 + (n - 0x10000) % 0x400
    "\\u" ++ Text.hex 4 high ++ "\\u" ++ Text.hex 4 low

/-- One character inside a document's text: printable ASCII stands for itself. -/
def jsonChar (c : Char) : String :=
  match c with
  | '\x22' => "\\\""
  | '\\' => "\\\\"
  | '\n' => "\\n"
  | '\r' => "\\r"
  | '\t' => "\\t"
  | '\x08' => "\\b"
  | '\x0c' => "\\f"
  | c => if 0x20 ≤ c.toNat ∧ c.toNat < 0x7f then String.singleton c else jsonEscape c.toNat

/-- A text in a document. -/
def jsonText (s : String) : String :=
  "\"" ++ String.join (s.toList.map jsonChar) ++ "\""

/-- A datum in a document. The names of the data that are no finite numbers are the longer ones. -/
def jsonFloat (x : Binary64) : String :=
  if x.isNaN then "NaN"
  else if x.isInfinite then (if x.negative then "-Infinity" else "Infinity")
  else x.text

/-- The text of a key; a tuple, a mark or a source is no key of a document. -/
def jsonKey : Value → Except Misuse String
  | null => .ok "null"
  | bool b => .ok (if b then "true" else "false")
  | int n => write (int n)
  | float x => .ok (jsonFloat x)
  | text s => .ok s
  | _ => .error .unwritable

/-- The order between keys: texts by code point, quantities by size, and no order between the two. -/
def keyBelow : Value → Value → Except Misuse Bool
  | text a, text b => .ok (a < b)
  | a, b =>
    match a.quantity?, b.quantity? with
    | some m, some n => .ok (m.lt n)
    | _, _ => .error .incomparable

/-- The items with the texts of their keys, if all keys are texts. -/
def withTextKeys? {α : Type} : List (Value × α) → Option (List (String × α))
  | [] => some []
  | (text s, a) :: rest => (withTextKeys? rest).map ((s, a) :: ·)
  | _ => none

/-- The texts of the keys are all that the keys are. -/
theorem map_withTextKeys? {α : Type} {items : List (Value × α)} {texts : List (String × α)}
    (known : withTextKeys? items = some texts) : texts.map (fun e => (text e.1, e.2)) = items := by
  induction items generalizing texts with
  | nil => cases known; rfl
  | cons item rest ih =>
    match item, known with
    | (text s, a), known =>
      obtain ⟨others, found, rfl⟩ := Option.map_eq_some_iff.mp known
      simp [ih found]

/-- The items in ascending order of their keys. Texts have one order, whichever way it is come by. Among other
keys may be one that is no number; it is below and above nothing, and what stands around it depends on the order
of work. -/
def sortByKey {α : Type} (items : List (Value × α)) : Except Misuse (List (Value × α)) :=
  match withTextKeys? items with
  | some texts => .ok ((texts.mergeSort fun a b => !decide (b.1 < a.1)).map fun e => (text e.1, e.2))
  | none => Sorting.sort (fun a b => keyBelow a.1 b.1) items

/-- The items in the order of their keys are the items. -/
theorem perm_sortByKey {α : Type} {items sorted : List (Value × α)} (sorting : sortByKey items = .ok sorted) :
    sorted.Perm items := by
  unfold sortByKey at sorting
  split at sorting
  next texts known =>
    cases sorting
    rw [← map_withTextKeys? known]
    exact (List.mergeSort_perm _ _).map _
  · exact Sorting.perm_sort sorting

/-- Written items between brackets, each on a line of its own. -/
def jsonBlock (opening closing : String) (depth : Nat) (items : List String) : String :=
  if items.isEmpty then opening ++ closing
  else
    let outer := "\n" ++ String.ofList (List.replicate (2 * depth) ' ')
    let inner := outer ++ "  "
    opening ++ inner ++ ("," ++ inner).intercalate items ++ outer ++ closing

/-- An entry of a document's dictionary, of which the value is what writing it gives. The key comes first. -/
def jsonEntry (e : Value × Except Misuse String) : Except Misuse String := do
  let key ← jsonKey e.1
  return jsonText key ++ ": " ++ (← e.2)

mutual

/-- A value inside a document, at a depth of nesting. -/
def jsonAt (depth : Nat) : Value → Except Misuse String
  | null => .ok "null"
  | bool b => .ok (if b then "true" else "false")
  | int n => write (int n)
  | float x => .ok (jsonFloat x)
  | text s => .ok (jsonText s)
  | list xs => do return jsonBlock "[" "]" depth (← jsonItems (depth + 1) xs)
  | tuple xs => do return jsonBlock "[" "]" depth (← jsonItems (depth + 1) xs)
  | dict es => do
    let sorted ← sortByKey (jsonEntries (depth + 1) es)
    return jsonBlock "\x7b" "\x7d" depth (← sorted.mapM jsonEntry)
  | _ => .error .unwritable

/-- The items of a document's list. -/
def jsonItems (depth : Nat) : List Value → Except Misuse (List String)
  | [] => .ok []
  | v :: vs => do return (← jsonAt depth v) :: (← jsonItems depth vs)

/-- The entries of a document's dictionary, with what writing their values gives. They are sorted before any of
them counts. -/
def jsonEntries (depth : Nat) : Entries → List (Value × Except Misuse String)
  | [] => []
  | (k, v) :: es => (k, jsonAt depth v) :: jsonEntries depth es

end

/-- The value as the text of a document. -/
def json (v : Value) : Except Misuse String :=
  jsonAt 0 v

end ChartGrammar.Value
