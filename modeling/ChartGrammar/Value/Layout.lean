import ChartGrammar.Layout.Numeral
import ChartGrammar.Value.Written

/-! Values in layouts. Texts, numbers and truth values have layouts, each with a presentation of its own where
none is named; a truth value is laid out as the integer that it counts for. -/

namespace ChartGrammar.Value

/-- A value in a layout; the empty layout is the display. -/
def layOut (v : Value) (layout : List Char) : Except Misuse String :=
  let laidOut (presentation : Char) (shown : Layout → Except Misuse String) : Except Misuse String :=
    (Layout.parse? presentation layout).elim (.error .badPattern) shown
  if layout.isEmpty then v.present
  else
    match v with
    | text s => laidOut 's' (·.layOutText s)
    | bool b => laidOut 'd' (·.layOutInt (if b then 1 else 0))
    | int n => laidOut 'd' (·.layOutInt n)
    | float x => laidOut '\x00' (Layout.layOutReal "eEfFgGn%\x00" · x)
    | _ => .error .unformattable

end ChartGrammar.Value
