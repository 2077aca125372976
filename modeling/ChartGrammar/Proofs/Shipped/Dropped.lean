import ChartGrammar.Proofs.Rendering.Findings
import ChartGrammar.Proofs.Shipped.Groups
import ChartGrammar.Proofs.Shipped.Refusals
import ChartGrammar.Proofs.Text.Formula

/-! Groups that the imperative grammar reports as not expressed. Whether the group of bars or boxes is there is asked
of the text of what was written, read as a formula. So the report is right for plain names; but a group with a tilde
in its name is not found in the formula of boxes, and the name of another column can be taken for a formula of the
group. -/

namespace ChartGrammar

open Rendering Document Shipped

theorem mentions_split {fields : Entries} {group : Option String} {name : String} :
    (ColumnWriter.split fields group).mentions name =
      (Value.entriesMention name fields || group.any fun other => textMentions other name) := by
  have happend (fields : Entries) (other : String) :
      Value.entriesMention name (fields ++ [(.text "by", .text other)]) =
        (Value.entriesMention name fields || textMentions other name) := by
    induction fields with
    | nil => simp [Value.entriesMention, Value.mentions]
    | cons e fields ih =>
        rw [List.cons_append, Value.entriesMention, Value.entriesMention, ih, Bool.or_assoc]
  cases group with
  | none => rw [ColumnWriter.split, Value.mentions, Option.any_none, Bool.or_false]
  | some other => rw [ColumnWriter.split, Value.mentions, happend, Option.any_some]

namespace Rendering

variable {c : Chart} {d : Document} {x y group : String}

/-- Where one role alone writes to a name, what it writes is what the document carries there. -/
theorem carries_of_role {rows : KindRows} (hrecords : Records (openingWrites c rows) d) {r : Role} {name : String}
    {value : Value} (hwrites : writesOf c rows (.role r) = [⟨.text name, value, .role r⟩])
    (hsole : ∀ o ≠ .role r, ∀ u ∈ writesOf c rows o, u.name ≠ .text name) (column : String) :
    d.carries (.text name) column = value.mentions column := by
  have hmem : (⟨.text name, value, .role r⟩ : Parameter) ∈ openingWrites c rows := by
    rw [writesOf] at hwrites
    cases hsource : c.source? r with
    | none => simp [hsource] at hwrites
    | some source =>
        rw [hsource, Option.elim_some] at hwrites
        refine List.mem_append_right _ (List.mem_flatMap.mpr ⟨⟨r, source⟩, Chart.mem_bindings.mpr hsource, ?_⟩)
        rw [hwrites]
        exact List.mem_cons_self
  refine hrecords.carries_of_sole hmem rfl (fun u hu hname => ?_) column
  obtain ⟨o, ho⟩ := mem_writes_iff.mp (List.mem_append_left _ (List.mem_append_left _ hu))
  by_cases hrole : o = .role r
  · rw [hrole, hwrites, List.mem_singleton] at ho
    rw [ho]
  · exact absurd hname (hsole o hrole u ho)

theorem eq_of_height : ∀ o, (∃ a ∈ Imperative.bar.paramsOf o, a.same (.text "height") = true) →
    o = .role .x ∨ o = .role .y := by
  decide

theorem eq_of_formula : ∀ o, (∃ a ∈ Imperative.boxplot.paramsOf o, a.same (.text "formula") = true) →
    o = .role .y := by
  decide

theorem carries_height_of_y (hrecords : Records (openingWrites c Imperative.bar) d)
    (hx : c.source? .x = some (.column x)) (hy : c.source? .y = some (.column y)) (column : String) :
    d.carries (.text "height") column =
      (textMentions y column || (c.splitter (some x)).any fun other => textMentions other column) := by
  rw [carries_of_role hrecords (writesOf_y_heights hy), mentions_split, Chart.columnFor_of_source hx]
  · rw [Value.entriesMention, Value.entriesMention, Bool.or_false, Value.mentions]
  · intro o hother u hu hname
    rcases eq_of_height o ⟨_, name_mem_paramsOf hu, Value.same_text_right_iff.mpr hname⟩ with rfl | rfl
    · rw [writesOf_x_labels hx (by rw [hy]; rfl), List.mem_singleton] at hu
      rw [hu] at hname
      exact absurd (Value.text.inj hname) (by decide)
    · exact hother rfl

theorem carries_height_of_x (hrecords : Records (openingWrites c Imperative.bar) d)
    (hx : c.source? .x = some (.column x)) (hy : c.source? .y = none) (column : String) :
    d.carries (.text "height") column =
      (textMentions x column || textMentions "count" column ||
        (c.splitter (some x)).any fun other => textMentions other column) := by
  rw [carries_of_role hrecords (writesOf_x_counted hx hy), mentions_split]
  · simp only [Value.entriesMention, Value.mentions, Bool.or_false]
  · intro o hother u hu hname
    rcases eq_of_height o ⟨_, name_mem_paramsOf hu, Value.same_text_right_iff.mpr hname⟩ with rfl | rfl
    · exact hother rfl
    · simp [writesOf, hy] at hu

theorem carries_formula (hrecords : Records (openingWrites c Imperative.boxplot) d)
    (hy : c.source? .y = some (.column y)) (hgroup : c.columnFor .group = some group) (column : String) :
    d.carries (.text "formula") column = textMentions (y ++ " ~ " ++ group) column := by
  rw [carries_of_role hrecords (writesOf_y_formula hy hgroup), Value.mentions]
  intro o hother u hu hname
  exact hother (eq_of_formula o ⟨_, name_mem_paramsOf hu, Value.same_text_right_iff.mpr hname⟩)

end Rendering

namespace Shipped

/-- The heights of the bars leave the group out, because it is what stands along the axis. -/
def LeavesOut (c : Chart) (group : String) : Prop :=
  c.kind = .bar ∧ (c.source? .y).isSome ∧ c.columnFor .x = some group

/-- Another column that the heights are made of has a name that reads as a formula with the group on one side. -/
def TakenForGroup (c : Chart) (group : String) : Prop :=
  ∃ r ∈ [Role.y, .fill], ∃ name, c.columnFor r = some name ∧ name ≠ group ∧ textMentions name group = true

variable {s : Schema} {c : Chart} {d : Document} {group : String}

/-- Columns of different types are different. -/
theorem ne_of_types (hc : c.Sound s) {r q : Role} {a b : String} (hr : c.source? r = some (.column a))
    (hq : c.source? q = some (.column b)) (htypes : ∀ t, ∀ ts ∈ c.kind.columnTypes? r, ∀ us ∈ c.kind.columnTypes? q,
      t ∈ ts → t ∉ us) : a ≠ b := by
  rintro rfl
  obtain ⟨-, -, hfitsr⟩ := hc.source r _ hr
  obtain ⟨-, -, hfitsq⟩ := hc.source q _ hq
  cases hfitsr with
  | column hresolve htypesr htype =>
      cases hfitsq with
      | column hresolve' htypesq htype' =>
          rw [hresolve] at hresolve'
          cases hresolve'
          exact htypes _ _ htypesr _ htypesq htype htype'

theorem mem_checks_iff {column : String} {into : Value} :
    Step.carried .group column into ∈ c.bindings.flatMap (carriedSteps c (Grammar.imperative.rows c.kind)) ↔
      c.source? .group = some (.column column) ∧
        (c.kind = .bar ∧ into = .text "height" ∨ c.kind = .boxplot ∧ into = .text "formula") := by
  rw [List.mem_flatMap]
  constructor
  · rintro ⟨b, hb, hcheck⟩
    obtain ⟨rfl, hnull, row, hrow, rfl⟩ := of_mem_carriedSteps hcheck
    refine ⟨Chart.mem_bindings.mp hb, ?_⟩
    cases hkind : c.kind with
    | bar =>
        rw [hkind] at hrow
        cases hrow
        exact .inl ⟨rfl, rfl⟩
    | boxplot =>
        rw [hkind] at hrow
        cases hrow
        exact .inr ⟨rfl, rfl⟩
    | line | scatter =>
        rw [hkind] at hrow
        cases hrow
        exact absurd rfl hnull
    | pie | histogram =>
        rw [hkind] at hrow
        cases hrow
  · rintro ⟨hsource, hinto⟩
    refine ⟨⟨.group, .column column⟩, Chart.mem_bindings.mpr hsource, ?_⟩
    rcases hinto with ⟨hkind, rfl⟩ | ⟨hkind, rfl⟩
    · rw [hkind]
      exact List.mem_cons_self
    · rw [hkind]
      exact List.mem_cons_self

/-- The group of bars is not found exactly if it is left out and nothing else is taken for it. -/
theorem carries_height_eq_false_iff (hc : c.Sound s) (hkind : c.kind = .bar)
    (hrecords : Records (openingWrites c Imperative.bar) d) {x : String} (hx : c.source? .x = some (.column x))
    (hgroup : c.columnFor .group = some group) :
    d.carries (.text "height") group = false ↔ LeavesOut c group ∧ ¬TakenForGroup c group := by
  have haxis := Chart.columnFor_of_source hx
  by_cases hsame : group = x
  -- What stands along the axis splits no bars: with heights, only the names of these and of the fill are searched.
  · subst hsame
    rw [LeavesOut, haxis]
    cases hbound : c.source? .y with
    | none => simp [carries_height_of_x hrecords hx hbound, textMentions_self]
    | some source =>
        obtain ⟨y, rfl⟩ := hc.exists_column (by decide) hbound
        have hother : y ≠ group := by
          refine ne_of_types hc hbound hx ?_
          rw [hkind]
          decide
        have hheight := Chart.columnFor_of_source hbound
        have htaken : TakenForGroup c group ↔ textMentions y group = true ∨
            ∃ name, c.columnFor .fill = some name ∧ name ≠ group ∧ textMentions name group = true := by
          simp [TakenForGroup, hheight, hother]
        have hfill : ((c.otherColumn (some group) .fill).any fun name => textMentions name group) = true ↔
            ∃ name, c.columnFor .fill = some name ∧ name ≠ group ∧ textMentions name group = true := by
          simp [Chart.otherColumn, Option.any_eq_true]
        -- The fill splits the bars in the group's place, if it is another column.
        rw [carries_height_of_y hrecords hx hbound, Chart.splitter_of_excluded hgroup, ← Bool.not_eq_true,
          Bool.or_eq_true, hfill, ← htaken]
        simp [hkind]
  · have hsplit : c.splitter (some x) = some group :=
      Chart.splitter_of_group hgroup (by simpa using hsame)
    have hcarried : d.carries (.text "height") group = true := by
      cases hbound : c.source? .y with
      | none => simp [carries_height_of_x hrecords hx hbound, hsplit, textMentions_self]
      | some source =>
          obtain ⟨y, rfl⟩ := hc.exists_column (by decide) hbound
          simp [carries_height_of_y hrecords hx hbound, hsplit, textMentions_self]
    rw [hcarried]
    refine iff_of_false Bool.noConfusion ?_
    rintro ⟨⟨-, -, hleft⟩, -⟩
    rw [haxis, Option.some.injEq] at hleft
    exact hsame hleft.symm

theorem carries_formula_eq_false_iff (hrecords : Records (openingWrites c Imperative.boxplot) d) {y : String}
    (hy : c.source? .y = some (.column y)) (hgroup : c.columnFor .group = some group) :
    d.carries (.text "formula") group = false ↔ ¬Text.Plain group := by
  rw [carries_formula hrecords hy hgroup, ← Bool.not_eq_true, textMentions_formula]

/-- The group is reported as not expressed. -/
def ReportsGroup (out : Rendering) : Prop :=
  ∃ f ∈ out.diagnostics, f.code = .unsupported ∧ f.key = .text "group"

/-- The report is made when the check on the group of bars or of boxes fails. -/
theorem reportsGroup_iff_check {k : Desk} (hk : k.Reachable) {out : Rendering}
    (h : ofChart .shipped k.chart "imperative" false = .ok out) : ReportsGroup out ↔
      ∃ group, k.chart.columnFor .group = some group ∧ (LeavesOut k.chart group ∧ ¬TakenForGroup k.chart group ∨
        k.chart.kind = .boxplot ∧ ¬Text.Plain group) := by
  obtain ⟨rows, e, hrows, hrun, rfl⟩ := ofChart_eq_ok_iff.mp h
  have hregular := regular_writes hk.sound (regular_rowsFor regular_shipped hrows)
  obtain ⟨hmissing, rfl⟩ := (rowsFor_name_eq_ok_iff (g := .imperative)).mp hrows
  have hcomplete : Complete .imperative k.chart := missingRole?_rows.mp hmissing
  -- `d` is the document that the checks look at: the kind and the bindings are written, the styles are not yet.
  obtain ⟨d, hopening, hreport⟩ := exists_unsupportedAt_iff (r := .group)
    (fun source hsource => hk.sound.exists_column (by decide) hsource) (by decide)
    (fun f hf => by rw [hk.code_eq f hf]; decide) hrun
  have hrecords := records_openingSteps hregular hopening
  have hat (f : Diagnostic) : f.unsupportedAt .group = true ↔ f.code = .unsupported ∧ f.key = .text "group" := by
    rw [Diagnostic.unsupportedAt, Bool.and_eq_true, beq_iff_eq, Value.same_text_right_iff]
    rfl
  simp only [hat, mem_checks_iff] at hreport
  rw [ReportsGroup, hreport]
  have hbars (hkind : k.chart.kind = .bar) {group : String} (hgroup : k.chart.columnFor .group = some group) :
      d.carries (.text "height") group = false ↔ LeavesOut k.chart group ∧ ¬TakenForGroup k.chart group := by
    obtain ⟨x, hx⟩ := hcomplete.exists_column hk.sound (r := .x) (by rw [hkind]; decide)
    rw [hkind] at hrecords
    exact carries_height_eq_false_iff hk.sound hkind hrecords hx hgroup
  have hboxes (hkind : k.chart.kind = .boxplot) {group : String} (hgroup : k.chart.columnFor .group = some group) :
      d.carries (.text "formula") group = false ↔ ¬Text.Plain group := by
    obtain ⟨y, hy⟩ := hcomplete.exists_column hk.sound (r := .y) (by rw [hkind]; decide)
    rw [hkind] at hrecords
    exact carries_formula_eq_false_iff hrecords hy hgroup
  constructor
  · rintro ⟨group, into, ⟨hsource, ⟨hkind, rfl⟩ | ⟨hkind, rfl⟩⟩, hmissed⟩
    · have hgroup := Chart.columnFor_of_source hsource
      exact ⟨group, hgroup, .inl ((hbars hkind hgroup).mp hmissed)⟩
    · have hgroup := Chart.columnFor_of_source hsource
      exact ⟨group, hgroup, .inr ⟨hkind, (hboxes hkind hgroup).mp hmissed⟩⟩
  · rintro ⟨group, hgroup, hleft | ⟨hkind, hplain⟩⟩
    · have hkind := hleft.1.1
      exact ⟨group, _, ⟨Chart.source_of_columnFor hgroup, .inl ⟨hkind, rfl⟩⟩, (hbars hkind hgroup).mpr hleft⟩
    · exact ⟨group, _, ⟨Chart.source_of_columnFor hgroup, .inr ⟨hkind, rfl⟩⟩, (hboxes hkind hgroup).mpr hplain⟩

/-- Where all names are plain, the groups that are reported are those that are left out. -/
theorem reportsGroup_iff_of_plain {k : Desk} (hk : k.Reachable) {out : Rendering}
    (h : ofChart .shipped k.chart "imperative" false = .ok out)
    (hplain : ∀ r name, k.chart.columnFor r = some name → Text.Plain name) :
    ReportsGroup out ↔ ∃ group, k.chart.columnFor .group = some group ∧ LeavesOut k.chart group := by
  rw [reportsGroup_iff_check hk h]
  refine exists_congr fun group => and_congr_right fun hgroup => ?_
  have htaken : ¬TakenForGroup k.chart group := by
    rintro ⟨r, -, name, hname, hother, hmentions⟩
    exact hother ((textMentions_of_plain (hplain r name hname)).mp hmentions)
  rw [and_iff_left htaken]
  exact or_iff_left fun hboxes => hboxes.2 (hplain .group group hgroup)

/-- When the imperative grammar reports the group of a chart as not expressed: when the heights of the bars leave it
out and no other name is taken for it, and also when it is the group of boxes and its name is not plain. So the
report tells exactly of the groups that are left out if and only if no name is misread: no other name is taken for
the group of bars that is left out, and the group of boxes has a plain name. -/
theorem reportsGroup_iff {k : Desk} (hk : k.Reachable) {out : Rendering}
    (h : ofChart .shipped k.chart "imperative" false = .ok out) :
    (ReportsGroup out ↔ ∃ group, k.chart.columnFor .group = some group ∧
      (LeavesOut k.chart group ∧ ¬TakenForGroup k.chart group ∨ k.chart.kind = .boxplot ∧ ¬Text.Plain group)) ∧
    ((ReportsGroup out ↔ ∃ group, k.chart.columnFor .group = some group ∧ LeavesOut k.chart group) ↔
      ∀ group, k.chart.columnFor .group = some group →
        (LeavesOut k.chart group → ¬TakenForGroup k.chart group) ∧ (k.chart.kind = .boxplot → Text.Plain group)) := by
  have hreport := reportsGroup_iff_check hk h
  refine ⟨hreport, ?_⟩
  rw [hreport]
  cases hgroup : k.chart.columnFor .group with
  | none => simp
  | some group =>
      have hkinds : LeavesOut k.chart group → k.chart.kind ≠ .boxplot := by
        rintro ⟨hkind, -⟩
        rw [hkind]
        decide
      simp only [Option.some.injEq, exists_eq_left', forall_eq']
      tauto

end Shipped

/-- Boxes of one column by another whose name has a tilde in it. -/
def Desk.boxesByTilde : Desk :=
  (Desk.mk .empty { kind := .boxplot, facetLimit := 12 }).run [
    .define (.text "Income") (.text "numeric") .null,
    .define (.text "a~b") (.text "categorical") .null,
    .bind (.text "y") (.text "Income"),
    .bind (.text "group") (.text "a~b")]

theorem Desk.reachable_boxesByTilde : Desk.boxesByTilde.Reachable :=
  Desk.reachable_new .boxplot _

namespace Shipped

theorem reportsGroup_iff_boxesByTilde : Desk.boxesByTilde.Reachable ∧ ∃ out,
    ofChart .shipped Desk.boxesByTilde.chart "imperative" false = .ok out ∧ ReportsGroup out ∧
      ¬Text.Plain "a~b" := by
  have hreach := Desk.reachable_boxesByTilde
  have htilde : ¬Text.Plain "a~b" := by decide
  refine ⟨hreach, _, rfl, ?_, htilde⟩
  exact (reportsGroup_iff hreach rfl).1.mpr ⟨"a~b", rfl, .inr ⟨rfl, htilde⟩⟩

/-- Boxes whose formula has their group on its right, and whose group is nevertheless reported. -/
theorem not_reportsGroup_only_of_leavesOut : Desk.boxesByTilde.Reachable ∧ ∃ out,
    ofChart .shipped Desk.boxesByTilde.chart "imperative" false = .ok out ∧
      out.parameters = [(.text "call", .text "boxplot"), (.text "formula", .text "Income ~ a~b")] ∧
      ¬(ReportsGroup out ↔ ∃ group, Desk.boxesByTilde.chart.columnFor .group = some group ∧
        LeavesOut Desk.boxesByTilde.chart group) := by
  refine ⟨Desk.reachable_boxesByTilde, _, rfl, rfl, ?_⟩
  intro h
  obtain ⟨group, -, hkind, -⟩ := h.mp ⟨_, List.mem_cons_self, rfl, rfl⟩
  cases hkind

end Shipped

end ChartGrammar
