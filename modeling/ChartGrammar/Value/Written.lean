import ChartGrammar.Misuse
import ChartGrammar.Number.Shortest
import ChartGrammar.Text.Integer
import ChartGrammar.Text.Quoted
import ChartGrammar.Value.Basic

/-! The written form of a value, as messages show it, and its plain display, which differs only for a text. An
integer of more digits than are written has neither, and nor has a value that holds one; asking for it is a
misuse. -/

namespace ChartGrammar.Value

mutual

/-- The written form, in which a text stands between quotes. -/
def written : Value → String
  | null => "None"
  | bool b => if b then "True" else "False"
  | int n => (Number.whole n).text
  | float x => x.text
  | text s => Text.quoted s
  | list xs => "[" ++ ", ".intercalate (writtenItems xs) ++ "]"
  | tuple [v] => "(" ++ written v ++ ",)"
  | tuple xs => "(" ++ ", ".intercalate (writtenItems xs) ++ ")"
  | dict es => "\x7b" ++ ", ".intercalate (writtenEntries es) ++ "\x7d"
  | unset => "UNSET"
  | column v => "ColumnRef(name=" ++ written v ++ ")"
  | literal v => "LiteralValue(value=" ++ written v ++ ")"

/-- The written forms of the items. -/
def writtenItems : List Value → List String
  | [] => []
  | v :: vs => written v :: writtenItems vs

/-- The written forms of the entries, each key before its value. -/
def writtenEntries : Entries → List String
  | [] => []
  | (k, v) :: es => (written k ++ ": " ++ written v) :: writtenEntries es

end

/-- The display of a value: a text is itself, and any other value its written form. -/
def display : Value → String
  | text s => s
  | v => v.written

mutual

/-- Whether a value can be written: no integer in it has too many digits. -/
def legible : Value → Bool
  | int n => Text.isWritable n
  | list xs => areLegible xs
  | tuple xs => areLegible xs
  | dict es => entriesLegible es
  | column v => legible v
  | literal v => legible v
  | _ => true

/-- Whether every item can be written. -/
def areLegible : List Value → Bool
  | [] => true
  | v :: vs => legible v && areLegible vs

/-- Whether every entry can be written, its key and its value. -/
def entriesLegible : Entries → Bool
  | [] => true
  | (k, v) :: es => legible k && legible v && entriesLegible es

end

theorem legible_int_iff {n : Int} : (int n).legible = true ↔ n.natAbs < Text.leastTooLong := by
  rw [legible, Text.isWritable, decide_eq_true_iff]
  exact Nat.length_toDigits_le_iff (by decide) (by decide)

theorem legible_leastTooLong : (int Text.leastTooLong).legible = false := by
  rw [Bool.eq_false_iff, ne_eq, legible_int_iff, Int.natAbs_natCast]
  exact Nat.lt_irrefl _

theorem legible_neg (n : Int) : (int (-n)).legible = (int n).legible := by
  simp only [legible, Text.isWritable, Int.natAbs_neg]

theorem areLegible_iff {xs : List Value} : areLegible xs = true ↔ ∀ x ∈ xs, x.legible = true := by
  induction xs with
  | nil => simp [areLegible]
  | cons x xs ih => simp [areLegible, ih]

theorem entriesLegible_iff {es : Entries} :
    entriesLegible es = true ↔ ∀ e ∈ es, e.1.legible = true ∧ e.2.legible = true := by
  induction es with
  | nil => simp [entriesLegible]
  | cons e es ih => simp [entriesLegible, ih]

/-- Writes a value. -/
def write (v : Value) : Except Misuse String :=
  if v.legible then .ok v.written else .error .tooLong

/-- Displays a value. -/
def present (v : Value) : Except Misuse String :=
  if v.legible then .ok v.display else .error .tooLong

end ChartGrammar.Value
