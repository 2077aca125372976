import ChartGrammar.Proofs.Rendering.StyleKeys

/-! What the completeness of tables is for. A registry is built of complete tables only, so that the rows for a
chart's kind are always found, and a title or a label is never unknown to a grammar. -/

namespace ChartGrammar

/-- The table has rows for every kind, and among them a row for the title and one for the label of either axis. -/
def Table.Complete (t : Table) : Prop :=
  ∀ kind : Kind, ∃ rows, t.kind? kind = some rows ∧
    ∀ key ∈ [StyleKey.title, .xLabel, .yLabel], ∃ row, rows.style? key = some row

theorem Table.complete_iff {t : Table} : t.Complete ↔ ∀ kind : Kind, t.incompleteness? kind = none := by
  refine forall_congr' fun kind => ?_
  rw [incompleteness?_eq_none_iff]
  cases hkind : t.kind? kind with
  | none => simp
  | some rows => simp [StyleKey.mandatory, style?, hkind, Option.isSome_iff_exists]

namespace Registry

variable {r : Registry} {tables : List Table} {t : Table}

/-- Tables make a registry exactly if there is one at least, no two are for one grammar, and each is complete. -/
theorem fit_iff : Fit tables ↔ tables ≠ [] ∧ (tables.map Table.grammar).Nodup ∧ ∀ t ∈ tables, t.Complete := by
  have hcomplete : (∀ t ∈ tables, t.Complete) ↔ ∀ t ∈ tables, ∀ kind : Kind, t.incompleteness? kind = none :=
    forall₂_congr fun t _ => t.complete_iff
  rw [hcomplete]
  exact ⟨fun h => ⟨h.nonempty, h.distinct, h.complete⟩, fun h => ⟨h.1, h.2.1, h.2.2⟩⟩

theorem Fit.table (h : Fit r.tables) (ht : t ∈ r.tables) : r.table t.grammar = .ok t := by
  rw [Registry.table, (table?_eq_some_iff h).mpr ⟨ht, rfl⟩]

end Registry

namespace Rendering

variable {r : Registry} {c : Chart} {t : Table} {rows : KindRows} {strict : Bool} {d : Document} {out : Rendering}

theorem rowsFor_eq (htable : r.table t.grammar = .ok t) (hrows : t.kind? c.kind = some rows) :
    rowsFor r c t.grammar = match missingRole? c rows with
      | some (role, because) => .error (.rendering (.missingBinding t.grammar c.kind role because))
      | none => .ok rows := by
  rw [rowsFor, htable]
  dsimp only [Bind.bind, Except.bind]
  rw [hrows]
  rfl

/-- With rows for the chart's kind, only a role that is needed and not bound stands in the way. -/
theorem rowsFor_of_kind (htable : r.table t.grammar = .ok t) (hrows : t.kind? c.kind = some rows) :
    rowsFor r c t.grammar = .ok rows ∨
      ∃ role because, rowsFor r c t.grammar = .error (.rendering (.missingBinding t.grammar c.kind role because)) := by
  rw [rowsFor_eq htable hrows]
  cases missingRole? c rows with
  | none => exact .inl rfl
  | some missing => exact .inr ⟨missing.1, missing.2, rfl⟩

/-- In a registry that was built, the rows for a chart are found unless there is a reason to refuse the chart. -/
theorem rowsFor_of_fit (hr : Registry.Fit r.tables) (c : Chart) (grammar : String) :
    (∃ t ∈ r.tables, t.grammar = grammar ∧ ∃ rows, t.kind? c.kind = some rows ∧ rowsFor r c grammar = .ok rows) ∨
    ∃ reason, rowsFor r c grammar = .error (.rendering reason) := by
  cases hfound : r.table? grammar with
  | none =>
      refine .inr ⟨.unknownGrammar grammar r.grammars, ?_⟩
      rw [rowsFor, Registry.table, hfound]
      rfl
  | some t =>
      obtain ⟨ht, rfl⟩ := (Registry.table?_eq_some_iff hr).mp hfound
      obtain ⟨rows, hrows, -⟩ := (Registry.fit_iff.mp hr).2.2 t ht c.kind
      rcases rowsFor_of_kind (hr.table ht) hrows with hok | ⟨role, because, herror⟩
      · exact .inl ⟨t, ht, rfl, rows, hrows, hok⟩
      · exact .inr ⟨_, herror⟩

/-- Where there is a row, the key is not found unknown. -/
theorem unknown_notMem_verdict (row : StyleRow) (v : Value) : Code.unknownToGrammar ∉ verdict (some row) v := by
  simp only [verdict]
  split
  · decide
  · split
    · decide
    · exact List.not_mem_nil

/-- A style key that there is a row for is never found unknown. -/
theorem Taken.ne_unknown (h : Taken r c t rows strict d) {key : StyleKey} {row : StyleRow}
    (hrow : rows.style? key = some row) {f : Diagnostic} (hf : f ∈ d.findings) (hcode : f.code = .unknownToGrammar) :
    f.key ≠ .text key.name := by
  intro hkey
  have habout : f ∈ about ⟨t.grammar, c.kind, d.entries, d.findings⟩ key := by
    have hstyle : f.styleKey? = some key := by
      rw [Diagnostic.styleKey?, hcode, hkey]
      exact Vocabulary.ofValue?_eq_some_iff.mpr rfl
    exact List.mem_filter.mpr ⟨hf, beq_iff_eq.mpr hstyle⟩
  cases hset : c.style? key with
  | none =>
      rw [h.about_unset hset] at habout
      exact absurd habout List.not_mem_nil
  | some v =>
      obtain ⟨first, crop, hsplit, hspec⟩ := h.about_set hset
      have hverdict : Code.unknownToGrammar ∈ verdict (some row) v := by
        rw [← hrow, ← h.style?, ← hspec.filter_codes, ← hsplit]
        exact List.mem_filter.mpr ⟨List.mem_map.mpr ⟨f, habout, hcode⟩, rfl⟩
      exact unknown_notMem_verdict row v hverdict

/-- A registry is built from tables exactly if there is one at least, no two are for one grammar, and each is complete.
Then for every chart that can be reached, the rows for its kind are found in each of the grammars, and no rendering
reports a title or a label as unknown. -/
theorem built_iff_complete {tables : List Table} :
    ((∃ r, Registry.ofTables tables = .ok r) ↔
      tables ≠ [] ∧ (tables.map Table.grammar).Nodup ∧ ∀ t ∈ tables, t.Complete) ∧
    ∀ r, Registry.ofTables tables = .ok r → ∀ desk : Desk, desk.Reachable → ∀ t ∈ tables,
      r.table t.grammar = .ok t ∧
      (∃ rows, t.kind? desk.chart.kind = some rows ∧ (rowsFor r desk.chart t.grammar = .ok rows ∨
        ∃ role because, rowsFor r desk.chart t.grammar =
          .error (.rendering (.missingBinding t.grammar desk.chart.kind role because)))) ∧
      ∀ strict out, ofChart r desk.chart t.grammar strict = .ok out →
        ∀ f ∈ out.diagnostics, f.code = .unknownToGrammar →
          ∀ key ∈ [StyleKey.title, .xLabel, .yLabel], f.key ≠ .text key.name := by
  refine ⟨?_, fun r hr desk hdesk t ht => ?_⟩
  · rw [← Registry.fit_iff]
    exact ⟨fun ⟨r, hr⟩ => (Registry.ofTables_eq_ok_iff.mp hr).1,
      fun hfit => ⟨_, Registry.ofTables_eq_ok_iff.mpr ⟨hfit, rfl⟩⟩⟩
  have hfit := Registry.fit_of_ofTables hr
  have hcomplete := (Registry.fit_iff.mp hfit).2.2
  rw [← Registry.tables_of_ofTables hr] at ht
  have htable := hfit.table ht
  obtain ⟨rows, hrows, hkeys⟩ := hcomplete t ht desk.chart.kind
  refine ⟨htable, ⟨rows, hrows, rowsFor_of_kind htable hrows⟩, fun strict out hout f hf hcode key hkey => ?_⟩
  obtain ⟨rows', d, hrows', hrun, rfl⟩ := ofChart_eq_ok_iff.mp hout
  obtain rfl : rows' = rows := by
    rcases rowsFor_of_kind htable hrows with hok | ⟨role, because, herror⟩
    · exact Except.ok.inj (hrows'.symm.trans hok)
    · rw [herror] at hrows'
      cases hrows'
  obtain ⟨row, hrow⟩ := hkeys key hkey
  exact Taken.ne_unknown ⟨hfit, ht, hrows, hdesk.code_eq, hrun⟩ hrow hf hcode

/-- The tables that the library holds are complete, a table does not go twice into a registry, and bars with a title are
drawn without finding it unknown. -/
theorem built_iff_complete_shipped :
    (∀ t ∈ [Shipped.Imperative.table, Shipped.Layered.table], t.Complete) ∧
    (¬∃ r, Registry.ofTables [Shipped.Layered.table, Shipped.Layered.table] = .ok r) ∧
    ∃ out, ofChart .shipped Desk.styledBars.chart "imperative" false = .ok out ∧
      ∀ f ∈ out.diagnostics, f.code = .unknownToGrammar → f.key ≠ .text "title" := by
  refine ⟨(built_iff_complete.1.mp ⟨_, Registry.ofTables_shipped⟩).2.2, fun htwice => ?_, ?_⟩
  · exact absurd (built_iff_complete.1.mp htwice).2.1 (by decide)
  · have hreach := Desk.reachable_styledBars
    obtain ⟨out, hout⟩ : ∃ out, ofChart .shipped Desk.styledBars.chart "imperative" false = .ok out :=
      Shipped.ok_of_complete (g := .imperative) hreach (by decide) (fun h => nomatch h.2.1) (.inl rfl)
    refine ⟨out, hout, fun f hf hcode => ?_⟩
    exact (built_iff_complete.2 .shipped Registry.ofTables_shipped Desk.styledBars hreach Shipped.Imperative.table
      List.mem_cons_self).2.2 false out hout f hf hcode .title List.mem_cons_self

end Rendering

end ChartGrammar
