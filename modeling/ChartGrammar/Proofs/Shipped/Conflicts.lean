import ChartGrammar.Proofs.Rendering.Origins
import ChartGrammar.Proofs.Shipped.Grammars

/-! What is in conflict in the grammars that the library holds. Few roles and style keys share a parameter; these
are listed, and the tables are gone through to see that there are no others. What a chart binds and sets then
tells whether two of them write unequal values. -/

namespace ChartGrammar

namespace Shipped

open Rendering

/-- The roles and the style keys that share a parameter, in pairs. -/
def Grammar.rivals : Grammar → Kind → List (Origin × Origin)
  | imperative, .bar | imperative, .pie => [(.role .x, .role .y), (.role .fill, .style .fillColor)]
  | imperative, .histogram => [(.role .fill, .style .fillColor), (.style .binWidth, .style .binCount)]
  | imperative, .line => [(.role .outline, .style .outlineColor)]
  | imperative, .scatter => [(.role .group, .style .outlineColor), (.role .shape, .style .pointShape)]
  | layered, .bar => [(.role .group, .role .fill), (.role .fill, .style .fillColor)]
  | layered, .pie => [(.role .x, .role .fill), (.role .fill, .style .fillColor)]
  | layered, .line => [(.role .group, .role .outline), (.role .outline, .style .outlineColor)]
  | layered, .scatter => [(.role .shape, .style .pointShape)]
  | _, .boxplot | layered, .histogram => [(.role .fill, .style .fillColor)]

theorem writesOnce_rows (g : Grammar) (k : Kind) : (g.rows k).WritesOnce := by
  cases g <;> cases k <;> decide +kernel

theorem onlyRivals_rows (g : Grammar) (k : Kind) : (g.rows k).OnlyRivals (g.rivals k) := by
  cases g <;> cases k <;> decide +kernel

/-- A column is bound to a role, and a style key is set. -/
def ColumnOverruled (c : Chart) (r : Role) (k : StyleKey) : Prop :=
  ∃ name v, c.source? r = some (.column name) ∧ c.style? k = some v

/-- A literal is bound to a role, and a style key is set to something else. -/
def LiteralOverruled (c : Chart) (r : Role) (k : StyleKey) : Prop :=
  ∃ u v, c.source? r = some (.literal u) ∧ c.style? k = some v ∧ u ≠ v

/-- Two roles are bound to different columns. -/
def Apart (c : Chart) (r q : Role) : Prop :=
  ∃ a b, c.source? r = some (.column a) ∧ c.source? q = some (.column b) ∧ a ≠ b

/-- What is bound and set on the chart is in conflict in the grammar. -/
def Clashes : Grammar → Chart → Prop
  | .imperative, c =>
      (c.kind ≠ .histogram ∧ ColumnOverruled c .fill .fillColor) ∨ LiteralOverruled c .fill .fillColor ∨
      (c.kind = .line ∧ LiteralOverruled c .outline .outlineColor) ∨
      (c.kind = .scatter ∧ (c.style? .outlineColor).isSome ∧ (c.source? .group).isSome) ∨
      (c.kind = .scatter ∧ (ColumnOverruled c .shape .pointShape ∨ LiteralOverruled c .shape .pointShape))
  | .layered, c =>
      LiteralOverruled c .fill .fillColor ∨ LiteralOverruled c .outline .outlineColor ∨
      LiteralOverruled c .shape .pointShape ∨ (c.kind = .bar ∧ Apart c .group .fill) ∨
      (c.kind = .pie ∧ Apart c .x .fill) ∨ (c.kind = .line ∧ Apart c .group .outline)

variable {s : Schema} {c : Chart} {rows : KindRows} {g : Grammar}

/-! ### Values that are compared -/

theorem differ_text_iff {a b : String} : (Value.text a).Differ (.text b) ↔ a ≠ b := by
  rw [Value.Differ, ← Bool.not_eq_true, Value.same_text_iff, Value.text.injEq, eq_comm]

theorem differ_dict {es : Entries} {v : Value} (h : ∀ fs, v ≠ .dict fs) : (Value.dict es).Differ v := by
  rw [Value.Differ, ← Bool.not_eq_true, Value.same_dict_iff]
  rintro ⟨fs, rfl, -⟩
  exact h fs rfl

theorem exists_text_of_colour {v u : Value} (h : Shape.colour.normalize? v = some u) :
    ∃ t, True ∧ u = .text t := by
  cases Shape.normalize?_eq_some_iff.mp h with
  | colour => exact ⟨_, trivial, rfl⟩

theorem exists_text_of_word {choices : List String} {v u : Value} (h : (Shape.word choices).normalize? v = some u) :
    ∃ t, t ∈ choices ∧ u = .text t := by
  cases Shape.normalize?_eq_some_iff.mp h with
  | word hmem => exact ⟨_, List.contains_iff_mem.mp hmem, rfl⟩

/-! ### When two rivals clash -/

/-- A role and a style key of the same shape. Their values are texts of some choices. If unequal texts clash, and
columns clash with them or do not, the two clash where something is overruled. -/
theorem clashing_iff_overruled (hc : c.Sound s) {r : Role} {k : StyleKey} (choices : String → Prop) {p : Prop}
    (hshape : r.literalShape? = some k.shape)
    (htexts : ∀ v u, k.shape.normalize? v = some u → ∃ t, choices t ∧ u = .text t)
    (hliteral : ∀ a b, choices a → choices b →
      (Disagree (bindingWrites c rows ⟨r, .literal (.text a)⟩) (styleWrites c rows (k, .text b)) ↔ a ≠ b))
    (hcolumn : ∀ name b, choices b →
      (Disagree (bindingWrites c rows ⟨r, .column name⟩) (styleWrites c rows (k, .text b)) ↔ p)) :
    Clashing c rows (.role r) (.style k) ↔ p ∧ ColumnOverruled c r k ∨ LiteralOverruled c r k := by
  rw [Clashing, writesOf, writesOf, ColumnOverruled, LiteralOverruled]
  cases hset : c.style? k with
  | none => simp
  | some v =>
      obtain ⟨b, hb, rfl⟩ := htexts v v (Chart.normalizeStyle_eq_ok_iff.mp (hc.style k v hset))
      cases hsource : c.source? r with
      | none => simp
      | some source =>
          cases source with
          | column name => simpa using hcolumn name b hb
          | literal u =>
              obtain ⟨shape, hown, hnormal⟩ := hc.literal hsource
              obtain rfl : k.shape = shape := Option.some.inj (hshape.symm.trans hown)
              obtain ⟨a, ha, rfl⟩ := htexts u u hnormal
              simpa using hliteral a b ha hb

/-- A role whose literals and a style key whose values are written as they are, to the same parameter. -/
theorem clashing_colours (hc : c.Sound s) {r : Role} {k : StyleKey} {row : RoleRow} {param : String} {p : Prop}
    (hshape : r.literalShape? = some .colour) (hkey : k.shape = .colour) (hrow : rows.role? r = some row)
    (hliteral : row.literal? = some (.scalar (.text param))) (hstyle : rows.style? k = some (scalar param))
    (hcolumn : ∀ name b, Disagree (bindingWrites c rows ⟨r, .column name⟩) [⟨.text param, .text b, .style k⟩] ↔ p) :
    Clashing c rows (.role r) (.style k) ↔ p ∧ ColumnOverruled c r k ∨ LiteralOverruled c r k := by
  have hvalue (b : Value) : styleWrites c rows (k, b) = [⟨.text param, b, .style k⟩] := by
    rw [styleWrites_of_row hstyle]
    rfl
  refine clashing_iff_overruled hc (fun _ => True) (hkey ▸ hshape) ?_ (fun a b _ _ => ?_)
    (fun name b _ => ?_)
  · rw [hkey]
    exact fun _ _ => exists_text_of_colour
  · rw [bindingWrites_literal hrow hliteral, hvalue]
    exact disagree_singleton.trans ((and_iff_right (Value.same_text_iff.mpr rfl)).trans differ_text_iff)
  · rw [hvalue]
    exact hcolumn name b

/-- Two roles whose columns are mapped to one aesthetic, the second of which takes constants elsewhere. -/
theorem clashing_columns {r q : Role} {param constant : String} (hne : param ≠ constant)
    (hr : rows.role? r = some (Layered.aesthetic param))
    (hq : rows.role? q = some (Layered.aestheticOr param constant)) :
    Clashing c rows (.role r) (.role q) ↔ Apart c r q := by
  rw [Clashing, writesOf, writesOf, Apart]
  cases hsource : c.source? r with
  | none => simp
  | some source =>
      cases source with
      | literal u => simp [bindingWrites, bindingOutcome, hr, Layered.aesthetic, column, role, written, Entries.writes]
      | column a =>
          have hfirst : bindingWrites c rows ⟨r, .column a⟩ = [⟨.text param, .text a, .role r⟩] :=
            bindingWrites_column hr rfl a
          cases hother : c.source? q with
          | none => simp
          | some other =>
              cases other with
              | column b =>
                  have hsecond : bindingWrites c rows ⟨q, .column b⟩ = [⟨.text param, .text b, .role q⟩] :=
                    bindingWrites_column hq rfl b
                  simp [hfirst, hsecond, Value.same_text_iff, differ_text_iff]
              | literal v =>
                  have hsecond : bindingWrites c rows ⟨q, .literal v⟩ = [⟨.text constant, v, .role q⟩] :=
                    bindingWrites_literal hq rfl v
                  simp [hfirst, hsecond, Value.same_text_iff, hne.symm]

/-- Where heights are bound, what is counted otherwise is written as labels. -/
theorem not_clashing_heights {roles : Value} {param labels : String} (hne : param ≠ labels)
    (hx : rows.role? .x = some (column (.countedOrLabels (.text param) (.text labels) roles)))
    (hy : rows.paramsOf (.role .y) = [.text param]) : ¬Clashing c rows (.role .x) (.role .y) := by
  rintro ⟨u, hu, v, hv, hname, -⟩
  have hparam : v.name = .text param := by simpa [hy] using name_mem_paramsOf hv
  have hheights : c.hasRole .y = true := by
    show (c.source? .y).isSome = true
    rw [writesOf] at hv
    cases hbound : c.source? .y with
    | none => simp [hbound] at hv
    | some source => rfl
  rw [writesOf] at hu
  cases hsource : c.source? .x with
  | none => simp [hsource] at hu
  | some source =>
      cases source with
      | literal w => simp [hsource, bindingWrites, bindingOutcome, hx, column, role, written, Entries.writes] at hu
      | column a =>
          have hlabels : bindingWrites c rows ⟨.x, .column a⟩ =
              [⟨.text labels, .dict [(.text "column", .text a)], .role .x⟩] := by
            rw [bindingWrites_column hx rfl, ColumnWriter.run, if_pos hheights]
            rfl
          rw [hsource, Option.elim_some, hlabels, List.mem_singleton] at hu
          rw [hu, hparam, Value.same_text_iff, Value.text.injEq] at hname
          exact hne hname

/-- At most one of two keys that exclude each other is set. -/
theorem not_clashing_bins (hc : c.Sound s) : ¬Clashing c rows (.style .binWidth) (.style .binCount) := by
  rw [Clashing, writesOf, writesOf]
  rcases hc.exclusive with hnone | hnone <;> simp [hnone]

/-! ### Fill, stroke and shape -/

theorem clashing_fill_imperative (hc : c.Sound s) (hrow : rows.role? .fill = some Imperative.fillRow)
    (hstyle : rows.style? .fillColor = some (scalar "col")) : Clashing c rows (.role .fill) (.style .fillColor) ↔
      ColumnOverruled c .fill .fillColor ∨ LiteralOverruled c .fill .fillColor := by
  rw [clashing_colours hc rfl rfl hrow rfl hstyle (p := True), true_and]
  intro name b
  rw [bindingWrites_column hrow rfl]
  exact disagree_singleton.trans (by simp [Value.same_text_iff, differ_dict])

/-- What adds a layer for each level leaves the fill of the first layer alone. -/
theorem clashing_fill_histogram (hc : c.Sound s) :
    Clashing c Imperative.histogram (.role .fill) (.style .fillColor) ↔ LiteralOverruled c .fill .fillColor := by
  rw [clashing_colours hc rfl rfl rfl rfl rfl (p := False), false_and, false_or]
  intro name b
  exact disagree_singleton.trans (by simp [Value.same_text_iff])

theorem clashing_outline_imperative (hc : c.Sound s) :
    Clashing c Imperative.line (.role .outline) (.style .outlineColor) ↔
      LiteralOverruled c .outline .outlineColor := by
  rw [clashing_colours hc rfl rfl rfl rfl rfl (p := False), false_and, false_or]
  intro name b
  exact iff_false_intro (disagree_nil_left _)

/-- The constant of a geometry stands beside what is mapped to the aesthetic. -/
theorem clashing_constant (hc : c.Sound s) {r : Role} {k : StyleKey} {param constant : String}
    (hne : param ≠ constant) (hshape : r.literalShape? = some .colour) (hkey : k.shape = .colour)
    (hrow : rows.role? r = some (Layered.aestheticOr param constant))
    (hstyle : rows.style? k = some (scalar constant)) :
    Clashing c rows (.role r) (.style k) ↔ LiteralOverruled c r k := by
  rw [clashing_colours hc hshape hkey hrow rfl hstyle (p := False), false_and, false_or]
  intro name b
  rw [bindingWrites_column hrow rfl]
  exact disagree_singleton.trans (by simp [Value.same_text_iff, hne.symm])

theorem clashing_points (hc : c.Sound s) :
    Clashing c Imperative.scatter (.role .group) (.style .outlineColor) ↔
      (c.style? .outlineColor).isSome ∧ (c.source? .group).isSome := by
  rw [Clashing, writesOf, writesOf]
  cases hset : c.style? .outlineColor with
  | none => simp
  | some v =>
      cases hsource : c.source? .group with
      | none => simp
      | some source =>
          cases source with
          | literal u =>
              obtain ⟨shape, hshape, -⟩ := hc.literal hsource
              cases hshape
          | column name =>
              obtain ⟨b, -, rfl⟩ :=
                exists_text_of_colour (Chart.normalizeStyle_eq_ok_iff.mp (hc.style .outlineColor v hset))
              simp only [Option.elim_some, Option.isSome_some, and_self, iff_true]
              exact disagree_singleton.mpr ⟨Value.same_text_iff.mpr rfl, differ_dict (by simp)⟩

instance (us vs : List Parameter) : Decidable (Disagree us vs) :=
  inferInstanceAs (Decidable (∃ u ∈ us, ∃ v ∈ vs, u.name.same v.name = true ∧ u.value.Differ v.value))

/-- No two shapes of points have the same number, and none has a factor's codes. -/
theorem clashing_shape_imperative (hc : c.Sound s) :
    Clashing c Imperative.scatter (.role .shape) (.style .pointShape) ↔
      ColumnOverruled c .shape .pointShape ∨ LiteralOverruled c .shape .pointShape := by
  have hnumbers : ∀ a ∈ Shape.points, ∀ b ∈ Shape.points,
      Disagree (written ((mapped "pch" Imperative.pointCodes).run (.text a)) (.role .shape))
        (written ((mapped "pch" Imperative.pointCodes).run (.text b)) (.style .pointShape)) ↔ a ≠ b := by
    decide +kernel
  refine Iff.trans (clashing_iff_overruled (p := True) hc (· ∈ Shape.points) rfl (fun _ _ => exists_text_of_word)
    (fun a b ha hb => hnumbers a ha b hb) ?_) (by rw [true_and])
  intro name b hb
  simp only [Shape.points, List.mem_cons, List.not_mem_nil, or_false] at hb
  rcases hb with rfl | rfl | rfl | rfl | rfl | rfl | rfl | rfl <;>
    exact iff_of_true (disagree_singleton.mpr ⟨Value.same_text_iff.mpr rfl, rfl⟩) trivial

theorem clashing_shape_layered (hc : c.Sound s) :
    Clashing c Layered.scatter (.role .shape) (.style .pointShape) ↔ LiteralOverruled c .shape .pointShape := by
  have hnames : ∀ a ∈ Shape.points, ∀ b ∈ Shape.points,
      Disagree (written ((mapped "geom.shape" Layered.pointNames).run (.text a)) (.role .shape))
        (written ((mapped "geom.shape" Layered.pointNames).run (.text b)) (.style .pointShape)) ↔ a ≠ b := by
    decide +kernel
  refine Iff.trans (clashing_iff_overruled (p := False) hc (· ∈ Shape.points) rfl (fun _ _ => exists_text_of_word)
    (fun a b ha hb => hnames a ha b hb) ?_) (by rw [false_and, false_or])
  intro name b _
  refine iff_of_false ?_ id
  rintro ⟨u, hu, v, hv, hname, -⟩
  obtain ⟨params, hok, hmem⟩ := mem_written hv
  have hconstant : v.name = .text "geom.shape" := List.mem_singleton.mp ((sublist_styleOutcome hok).subset hmem)
  have haesthetic : u = ⟨.text "aes.shape", .text name, .role .shape⟩ := List.mem_singleton.mp hu
  rw [hconstant, haesthetic, Value.same_text_iff] at hname
  exact absurd (Value.text.inj hname) (by decide)

/-! ### Conflicts -/

theorem not_columnOverruled (hc : c.Sound s) {r : Role} (hr : r ∉ c.kind.roles) (k : StyleKey) :
    ¬ColumnOverruled c r k := by
  rintro ⟨name, v, hsource, -⟩
  rw [hc.source_none hr] at hsource
  cases hsource

theorem not_literalOverruled (hc : c.Sound s) {r : Role} (hr : r ∉ c.kind.roles) (k : StyleKey) :
    ¬LiteralOverruled c r k := by
  rintro ⟨u, v, hsource, -⟩
  rw [hc.source_none hr] at hsource
  cases hsource

theorem exists_rival_imperative (hc : c.Sound s) : (∃ e ∈ Grammar.imperative.rivals c.kind,
    Clashing c (Grammar.imperative.rows c.kind) e.1 e.2) ↔ Clashes .imperative c := by
  rw [Clashes]
  -- Each kind has one or two pairs of rivals; the clauses about roles that it does not have fall away.
  cases hkind : c.kind <;> simp only [Grammar.rivals, Grammar.rows, List.mem_cons, List.not_mem_nil, or_false,
    exists_eq_or_imp, exists_eq_left]
  case bar | pie =>
    rw [or_iff_right (not_clashing_heights (by decide) rfl rfl), clashing_fill_imperative hc rfl rfl]
    simp +decide [hkind, not_literalOverruled hc]
  case histogram =>
    rw [or_iff_left (not_clashing_bins hc), clashing_fill_histogram hc]
    simp +decide [hkind, not_literalOverruled hc]
  case boxplot =>
    rw [clashing_fill_imperative hc rfl rfl]
    simp +decide [hkind, not_literalOverruled hc]
  case line =>
    rw [clashing_outline_imperative hc]
    simp +decide [hkind, not_literalOverruled hc, not_columnOverruled hc]
  case scatter =>
    rw [clashing_points hc, clashing_shape_imperative hc]
    simp +decide [hkind, not_literalOverruled hc, not_columnOverruled hc]

theorem exists_rival_layered (hc : c.Sound s) : (∃ e ∈ Grammar.layered.rivals c.kind,
    Clashing c (Grammar.layered.rows c.kind) e.1 e.2) ↔ Clashes .layered c := by
  have hfill {rows : KindRows} (hrow : rows.role? .fill = some Layered.fillRow)
      (hstyle : rows.style? .fillColor = some (scalar "geom.fill")) :=
    clashing_constant hc (by decide) rfl rfl hrow hstyle
  rw [Clashes]
  cases hkind : c.kind <;> simp only [Grammar.rivals, Grammar.rows, List.mem_cons, List.not_mem_nil, or_false,
    exists_eq_or_imp, exists_eq_left]
  case bar | pie =>
    rw [hfill rfl rfl, clashing_columns (by decide) rfl rfl]
    simp +decide [hkind, not_literalOverruled hc, or_comm]
  case histogram | boxplot =>
    rw [hfill rfl rfl]
    simp +decide [hkind, not_literalOverruled hc]
  case line =>
    rw [clashing_columns (by decide) rfl rfl, clashing_constant hc (by decide) rfl rfl rfl rfl]
    simp +decide [hkind, not_literalOverruled hc, or_comm]
  case scatter =>
    rw [clashing_shape_layered hc]
    simp +decide [hkind, not_literalOverruled hc]

/-- A rendering in which conflicts are let pass reports one exactly if the chart sets against each other what the
grammar writes to the same parameter. -/
theorem conflict_iff_clashes {k : Desk} (hk : k.Reachable) (g : Grammar) {out : Rendering}
    (h : ofChart .shipped k.chart g.name false = .ok out) :
    (∃ f ∈ out.diagnostics, f.code = .conflict) ↔ Clashes g k.chart := by
  obtain ⟨rows, d, hrows, rfl, hregular, hrecords⟩ := records_of_ofChart regular_shipped hk h
  obtain ⟨-, rfl⟩ := rowsFor_name_eq_ok_iff.mp hrows
  rw [conflict_iff_exists_clashing hrecords hregular (writesOnce_rows g _) (onlyRivals_rows g _)]
  cases g with
  | imperative => exact exists_rival_imperative hk.sound
  | layered => exact exists_rival_layered hk.sound

theorem conflict_iff_clashes_filledTwice : Desk.filledTwice.Reachable ∧ ∀ g : Grammar, ∃ out,
    ofChart .shipped Desk.filledTwice.chart g.name false = .ok out ∧ Clashes g Desk.filledTwice.chart ∧
      ∃ f ∈ out.diagnostics, f.code = .conflict := by
  have hreach := Desk.reachable_filledTwice
  have hoverruled : LiteralOverruled Desk.filledTwice.chart .fill .fillColor :=
    ⟨.text "red", .text "blue", rfl, rfl, by simp⟩
  refine ⟨hreach, fun g => ?_⟩
  cases g with
  | imperative =>
      have hclashes : Clashes .imperative Desk.filledTwice.chart := .inr (.inl hoverruled)
      exact ⟨_, rfl, hclashes, (conflict_iff_clashes hreach .imperative rfl).mpr hclashes⟩
  | layered =>
      have hclashes : Clashes .layered Desk.filledTwice.chart := .inl hoverruled
      exact ⟨_, rfl, hclashes, (conflict_iff_clashes hreach .layered rfl).mpr hclashes⟩

end Shipped

end ChartGrammar
