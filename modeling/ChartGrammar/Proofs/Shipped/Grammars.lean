import ChartGrammar.Proofs.Rendering.Owners
import ChartGrammar.Proofs.Rendering.Refusals

/-! The grammars that the library holds, and the rows that a chart is rendered by in each of them. -/

namespace ChartGrammar

namespace Rendering

variable {c : Chart} {rows : KindRows}

/-- No role is missing exactly if those are bound that are required, and those that others require. -/
theorem missingRole?_eq_none_iff : missingRole? c rows = none ↔
    (∀ r ∈ rows.required, c.hasRole r = true) ∧
      ∀ e ∈ rows.conditional, c.hasRole e.2 = true → c.hasRole e.1 = true := by
  unfold missingRole?
  split
  · next role hfound =>
      have hmissing := List.find?_some hfound
      simp only [reduceCtorEq, false_iff, not_and]
      intro hall
      rw [hall role (List.mem_of_find?_eq_some hfound)] at hmissing
      cases hmissing
  · next hnone =>
      have hrequired : ∀ r ∈ rows.required, c.hasRole r = true := by
        intro r hr
        simpa using List.find?_eq_none.mp hnone r hr
      rw [Option.map_eq_none_iff, List.find?_eq_none]
      constructor
      · intro h
        refine ⟨hrequired, fun e he hwhen => ?_⟩
        simpa [hwhen] using h e he
      · rintro ⟨-, h⟩ e he
        simpa using h e he

theorem of_missingRole? {role : Role} {because : Option Role} (h : missingRole? c rows = some (role, because)) :
    c.hasRole role = false ∧ (role ∈ rows.required ∨ ∃ e ∈ rows.conditional, e.1 = role) := by
  unfold missingRole? at h
  split at h
  · next other hfound =>
      cases h
      exact ⟨by simpa using List.find?_some hfound, .inl (List.mem_of_find?_eq_some hfound)⟩
  · obtain ⟨e, hfound, heq⟩ := Option.map_eq_some_iff.mp h
    cases heq
    have hmissing := List.find?_some hfound
    rw [Bool.and_eq_true] at hmissing
    exact ⟨by simpa using hmissing.2, .inr ⟨e, List.mem_of_find?_eq_some hfound, rfl⟩⟩

end Rendering

namespace Shipped

/-- The grammars that the library holds. -/
inductive Grammar where
  | imperative
  | layered
  deriving DecidableEq, Repr

namespace Grammar

def name : Grammar → String
  | imperative => "imperative"
  | layered => "layered"

def table : Grammar → Table
  | imperative => Imperative.table
  | layered => Layered.table

/-- The rows of a grammar for a kind. -/
def rows : Grammar → Kind → KindRows
  | imperative, .bar => Imperative.bar
  | imperative, .pie => Imperative.pie
  | imperative, .histogram => Imperative.histogram
  | imperative, .boxplot => Imperative.boxplot
  | imperative, .line => Imperative.line
  | imperative, .scatter => Imperative.scatter
  | layered, .bar => Layered.bar
  | layered, .pie => Layered.pie
  | layered, .histogram => Layered.histogram
  | layered, .boxplot => Layered.boxplot
  | layered, .line => Layered.line
  | layered, .scatter => Layered.scatter

theorem table_name (g : Grammar) : Registry.shipped.table g.name = .ok g.table := by
  cases g <;> rfl

theorem kind?_table (g : Grammar) (k : Kind) : g.table.kind? k = some (g.rows k) := by
  cases g <;> cases k <;> rfl

theorem table_of_ne {grammar : String} (h : ∀ g : Grammar, grammar ≠ g.name) :
    Registry.shipped.table grammar = .error (.rendering (.unknownGrammar grammar Registry.shipped.grammars)) := by
  have himperative : ("imperative" == grammar) = false := beq_false_of_ne (h imperative).symm
  have hlayered : ("layered" == grammar) = false := beq_false_of_ne (h layered).symm
  have hnone : Registry.shipped.table? grammar = none := by
    simp only [Registry.table?, Registry.shipped, Imperative.table, Layered.table, List.find?_cons, himperative,
      hlayered, List.find?_nil]
  rw [Registry.table, hnone]

end Grammar

end Shipped

namespace Rendering

open Shipped

variable {c : Chart} {g : Grammar}

theorem rowsFor_name (g : Grammar) (c : Chart) : rowsFor .shipped c g.name =
    match missingRole? c (g.rows c.kind) with
    | some (role, because) => .error (.rendering (.missingBinding g.name c.kind role because))
    | none => .ok (g.rows c.kind) := by
  rw [rowsFor, g.table_name]
  dsimp only [Bind.bind, Except.bind]
  rw [g.kind?_table]
  rfl

theorem rowsFor_name_eq_ok_iff {rows : KindRows} :
    rowsFor .shipped c g.name = .ok rows ↔ missingRole? c (g.rows c.kind) = none ∧ rows = g.rows c.kind := by
  rw [rowsFor_name]
  cases missingRole? c (g.rows c.kind) with
  | none => simp [eq_comm]
  | some e => simp

theorem exists_grammar_of_rowsFor {grammar : String} {rows : KindRows} (h : rowsFor .shipped c grammar = .ok rows) :
    ∃ g : Grammar, grammar = g.name := by
  by_contra hnone
  rw [rowsFor, Grammar.table_of_ne (not_exists.mp hnone)] at h
  cases h

/-- A rendering in a grammar has at a name what is put there by the grammar's rows. -/
theorem hasAt_of_rows {k : Desk} (hk : k.Reachable) {strict : Bool} {out : Rendering}
    (h : ofChart .shipped k.chart g.name strict = .ok out) {param : String} {v? : Option Value}
    (hputs : ∀ v, Puts k.chart (g.rows k.chart.kind) param v ↔ v? = some v) : out.HasAt param v? := by
  obtain ⟨rows, d, hrows, -⟩ := ofChart_eq_ok_iff.mp h
  obtain ⟨-, rfl⟩ := rowsFor_name_eq_ok_iff.mp hrows
  exact hasAt_of_puts regular_shipped hk h hrows hputs

end Rendering

end ChartGrammar
