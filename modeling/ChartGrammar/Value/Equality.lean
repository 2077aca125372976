import ChartGrammar.Misuse
import ChartGrammar.Value.Basic

/-! When two values count as the same, and which values can be keys. Numbers and truth values are compared
as exact quantities, lists never equal tuples, and dictionaries are equal when they have the same keys with
the same values, in whatever order. -/

namespace ChartGrammar.Value

mutual

/-- Whether two values count as the same. -/
def same : Value → Value → Bool
  | null, null => true
  | unset, unset => true
  | text a, text b => a == b
  | list xs, list ys => sameItems xs ys
  | tuple xs, tuple ys => sameItems xs ys
  | dict es, dict fs => es.length == fs.length && sameEntries es fs
  | column a, column b => same a b
  | literal a, literal b => same a b
  | a, b =>
    match a.quantity?, b.quantity? with
    | some m, some n => m.same n
    | _, _ => false

/-- Item by item, and equally many. -/
def sameItems : List Value → List Value → Bool
  | [], [] => true
  | a :: as, b :: bs => same a b && sameItems as bs
  | _, _ => false

/-- Whether each entry of the first dictionary is one of the second. -/
def sameEntries : Entries → Entries → Bool
  | [], _ => true
  | (k, v) :: es, fs => (fs.any fun f => same k f.1 && same v f.2) && sameEntries es fs

end

mutual

/-- Whether a value can be a key: neither a list nor a dictionary, nor built from one. -/
def isKey : Value → Bool
  | list _ => false
  | dict _ => false
  | tuple xs => areKeys xs
  | column v => isKey v
  | literal v => isKey v
  | _ => true

/-- Whether every item can be a key. -/
def areKeys : List Value → Bool
  | [] => true
  | v :: vs => isKey v && areKeys vs

end

end ChartGrammar.Value

namespace ChartGrammar.Entries

/-- The value under a key. -/
def get? (es : Entries) (key : Value) : Option Value :=
  (es.find? fun e => e.1.same key).map (·.2)

/-- The value under a text. -/
def field? (es : Entries) (name : String) : Option Value :=
  es.get? (.text name)

/-- The value under a text, or null: an absent entry and one that holds null are alike. -/
def field (es : Entries) (name : String) : Value :=
  Value.ofOption (es.field? name)

/-- Puts a value under a key. A key that is there keeps its form and its place; a new one goes to the end. -/
def insert (es : Entries) (key value : Value) : Entries :=
  if es.any fun e => e.1.same key then
    es.map fun e => if e.1.same key then (e.1, value) else e
  else es ++ [(key, value)]

/-- The dictionary made by putting entries in one by one. -/
def ofList (es : Entries) : Entries :=
  es.foldl (fun acc e => acc.insert e.1 e.2) []

/-- Looks up any value; one that cannot be a key is a misuse. -/
def lookup (es : Entries) (key : Value) : Except Misuse (Option Value) :=
  if key.isKey then .ok (es.get? key) else .error .unhashable

end ChartGrammar.Entries
