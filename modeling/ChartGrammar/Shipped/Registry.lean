import ChartGrammar.Registry
import ChartGrammar.Shipped.Imperative
import ChartGrammar.Shipped.Layered

/-! The registry of the grammars that the library holds. -/

namespace ChartGrammar.Registry

/-- The registry of the imperative and the layered grammar. -/
def shipped : Registry := ⟨[Shipped.Imperative.table, Shipped.Layered.table]⟩

end ChartGrammar.Registry
