import ChartGrammar.Proofs.Rendering.Origins
import ChartGrammar.Shipped.Registry

/-! Groups of bars and boxes in the imperative grammar. Their columns are written for another role: the heights of
bars are split by the group, or else by the fill, but not by what stands along the axis; and boxes have a formula of
their heights by the group. -/

namespace ChartGrammar

open Shipped

namespace Chart

variable (c : Chart) (exclude : Option String)

/-- The column of a role, unless it is left out. -/
def otherColumn (r : Role) : Option String :=
  (c.columnFor r).filter fun name => some name ≠ exclude

/-- The column that splits bars. -/
def splitter : Option String :=
  (c.otherColumn exclude .group).or (c.otherColumn exclude .fill)

variable {c exclude}

theorem groupingAmong_cons {v : Value} {r : Role} (hrole : anyRole v = .ok r) (rest : List Value) :
    c.groupingAmong exclude (v :: rest) =
      match c.otherColumn exclude r with
      | some name => .ok (some name)
      | none => c.groupingAmong exclude rest := by
  rw [groupingAmong, hrole, otherColumn]
  show (match c.columnFor r with
    | some name => _
    | none => _) = _
  cases c.columnFor r with
  | none => rfl
  | some name =>
      show (if some name = exclude then c.groupingAmong exclude rest else Except.ok (some name)) = _
      rw [Option.filter_some]
      by_cases hleft : some name = exclude
      · rw [if_pos hleft, if_neg (by simpa using hleft)]
      · rw [if_neg hleft, if_pos (by simpa using hleft)]

theorem grouping_groupRoles : c.grouping Imperative.groupRoles exclude = .ok (c.splitter exclude) := by
  show c.groupingAmong exclude [.text "group", .text "fill"] = _
  rw [groupingAmong_cons (r := .group) rfl, groupingAmong_cons (r := .fill) rfl, splitter]
  cases c.otherColumn exclude .group with
  | some name => rfl
  | none => cases c.otherColumn exclude .fill <;> rfl

theorem columnFor_of_source {r : Role} {name : String} (h : c.source? r = some (.column name)) :
    c.columnFor r = some name := by
  rw [columnFor, h]
  rfl

theorem source_of_columnFor {r : Role} {name : String} (h : c.columnFor r = some name) :
    c.source? r = some (.column name) := by
  obtain ⟨source, hsource, hcolumn⟩ := Option.bind_eq_some_iff.mp h
  cases source with
  | column other =>
      cases hcolumn
      exact hsource
  | literal v => cases hcolumn

theorem splitter_of_group {name : String} (hgroup : c.columnFor .group = some name) (hother : some name ≠ exclude) :
    c.splitter exclude = some name := by
  rw [splitter, otherColumn, hgroup, Option.filter_some, if_pos (by simpa using hother), Option.some_or]

/-- A group that is left out splits nothing, and the fill takes its place. -/
theorem splitter_of_excluded (hgroup : c.columnFor .group = exclude) :
    c.splitter exclude = c.otherColumn exclude .fill := by
  have hleft : c.otherColumn exclude .group = none := by
    rw [otherColumn, hgroup, Option.filter_eq_none_iff]
    intro name hname
    simp [Option.mem_def.mp hname]
  rw [splitter, hleft, Option.none_or]

end Chart

namespace Rendering

variable {c : Chart} {x y : String}

theorem writesOf_x_counted (hx : c.source? .x = some (.column x)) (hy : c.source? .y = none) :
    writesOf c Imperative.bar (.role .x) = [⟨.text "height",
      ColumnWriter.split [(.text "column", .text x), (.text "stat", .text "count")] (c.splitter (some x)), .role .x⟩] := by
  have hheights : ¬c.hasRole .y = true := by
    show ¬(c.source? .y).isSome = true
    rw [hy]
    exact Bool.false_ne_true
  rw [writesOf, hx, Option.elim_some, bindingWrites_column rfl rfl, ColumnWriter.run, if_neg hheights]
  show written (c.grouping Imperative.groupRoles (some x) >>= _) _ = _
  rw [Chart.grouping_groupRoles]
  rfl

theorem writesOf_x_labels (hx : c.source? .x = some (.column x)) (hy : (c.source? .y).isSome = true) :
    writesOf c Imperative.bar (.role .x) =
      [⟨.text "names.arg", .dict [(.text "column", .text x)], .role .x⟩] := by
  have hheights : c.hasRole .y = true := hy
  rw [writesOf, hx, Option.elim_some, bindingWrites_column rfl rfl, ColumnWriter.run, if_pos hheights]
  rfl

theorem writesOf_y_heights (hy : c.source? .y = some (.column y)) :
    writesOf c Imperative.bar (.role .y) = [⟨.text "height",
      ColumnWriter.split [(.text "column", .text y)] (c.splitter (c.columnFor .x)), .role .y⟩] := by
  rw [writesOf, hy, Option.elim_some, bindingWrites_column rfl rfl]
  show written (c.grouping Imperative.groupRoles (c.columnFor .x) >>= _) _ = _
  rw [Chart.grouping_groupRoles]
  rfl

theorem writesOf_y_formula (hy : c.source? .y = some (.column y)) {group : String}
    (hgroup : c.columnFor .group = some group) : writesOf c Imperative.boxplot (.role .y) =
      [⟨.text "formula", .text (y ++ " ~ " ++ group), .role .y⟩] := by
  rw [writesOf, hy, Option.elim_some, bindingWrites_column rfl rfl]
  show written (match c.columnFor .group with
    | some name => _
    | none => _) _ = _
  rw [hgroup]
  rfl

end Rendering

end ChartGrammar
