import ChartGrammar.Fault

/-! Work on a state. Work that ends in a fault leaves the state as it is at that point; nothing is undone. -/

namespace ChartGrammar

/-- Work on a state that gives a result or ends in a fault. -/
abbrev Work (σ α : Type) := EStateM Fault σ α

namespace Work

variable {σ τ α : Type}

/-- The result of a check, which works on nothing. -/
def check (outcome : Except Fault α) : Work σ α :=
  match outcome with
  | .ok a => pure a
  | .error fault => throw fault

/-- Works on a part of the state and puts the part back, also after a fault. -/
def on (part : σ → τ) (replace : τ → σ → σ) (work : Work τ α) : Work σ α := fun s =>
  match work (part s) with
  | .ok a t => .ok a (replace t s)
  | .error fault t => .error fault (replace t s)

end Work

end ChartGrammar
