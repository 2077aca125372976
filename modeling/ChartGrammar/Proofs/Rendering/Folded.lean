import ChartGrammar.Proofs.Rendering.StyleKeys
import ChartGrammar.Proofs.Table.Reading

/-! Columns that are folded into the parameter of another role. Nothing is written for such a column, and whether it
has reached the parameter is told by a search for its name in what stands there. So a column that has not reached it is
reported, unless the row names no parameter or something else in the parameter is taken for the column. -/

namespace ChartGrammar

/-! ### Mentions -/

namespace Value

variable {name : String} {v u : Value}

theorem itemsMention_iff {xs : List Value} : itemsMention name xs = true ↔ ∃ x ∈ xs, x.mentions name = true := by
  induction xs with
  | nil => simp [itemsMention]
  | cons x xs ih => simp [itemsMention, ih]

theorem entriesMention_iff {es : Entries} : entriesMention name es = true ↔ ∃ e ∈ es, e.2.mentions name = true := by
  induction es with
  | nil => simp [entriesMention]
  | cons e es ih => simp [entriesMention, ih]

/-- A value that counts as the same refers to all that the value refers to. -/
theorem mentions_of_same (h : v.same u = true) (hv : v.mentions name = true) : u.mentions name = true := by
  have hitems {xs ys : List Value} (ih : ∀ x ∈ xs, ∀ {u}, x.same u = true → x.mentions name = true →
      u.mentions name = true) (hall : List.Forall₂ (fun a b => a.same b = true) xs ys)
      (hxs : itemsMention name xs = true) : itemsMention name ys = true := by
    obtain ⟨x, hx, hmentions⟩ := itemsMention_iff.mp hxs
    obtain ⟨i, hi, rfl⟩ := List.mem_iff_getElem.mp hx
    have hi' : i < ys.length := hall.length_eq ▸ hi
    exact itemsMention_iff.mpr ⟨ys[i], List.getElem_mem hi', ih _ hx (hall.get hi hi') hmentions⟩
  induction v using Value.induction generalizing u with
  | text s => rwa [same_text_iff.mp h]
  | list xs ih =>
      obtain ⟨ys, rfl, hall⟩ := same_list_iff.mp h
      exact hitems (fun x hx _ => ih x hx) hall hv
  | tuple xs ih =>
      obtain ⟨ys, rfl, hall⟩ := same_tuple_iff.mp h
      exact hitems (fun x hx _ => ih x hx) hall hv
  | dict es ih =>
      obtain ⟨fs, rfl, -, hall⟩ := same_dict_iff.mp h
      obtain ⟨e, he, hmentions⟩ := entriesMention_iff.mp hv
      obtain ⟨f, hf, -, hvalue⟩ := hall e he
      exact entriesMention_iff.mpr ⟨f, hf, (ih e he).2 hvalue hmentions⟩
  | null | bool | int | float | unset | column | literal => cases hv

/-- The values are the same: they are one, or count as the same from either side. -/
def Alike (v u : Value) : Prop :=
  v = u ∨ v.same u = true ∧ u.same v = true

theorem Alike.mentions (h : v.Alike u) (name : String) : v.mentions name = u.mentions name := by
  rcases h with rfl | ⟨hvu, huv⟩
  · rfl
  · exact Bool.eq_iff_iff.mpr ⟨mentions_of_same hvu, mentions_of_same huv⟩

end Value

/-- The chart with nothing bound to a role. -/
def Chart.unbound (c : Chart) (role : Role) : Chart :=
  { c with source? := fun q => if q = role then none else c.source? q }

namespace Document

variable {grammar : String} {strict : Bool} {d e : Document} {s : Step} {steps : List Step} {param : Value}

/-- A parameter has the same value in both documents, or is in neither. -/
def AlikeAt (d e : Document) (param : Value) : Prop :=
  match d.find? param, e.find? param with
  | some p, some q => p.value.Alike q.value
  | none, none => True
  | _, _ => False

theorem AlikeAt.carries_eq (h : d.AlikeAt e param) (column : String) :
    d.carries param column = e.carries param column := by
  unfold AlikeAt at h
  unfold carries
  cases hd : d.find? param with
  | none =>
      cases he : e.find? param with
      | none => rfl
      | some q =>
          rw [hd, he] at h
          exact h.elim
  | some p =>
      cases he : e.find? param with
      | none =>
          rw [hd, he] at h
          exact h.elim
      | some q =>
          rw [hd, he] at h
          exact h.mentions column

/-- What stands in a document after a step stood there before, or the step wrote it. -/
theorem value_of_step (htaken : d.step grammar strict s = .ok e) {p : Parameter} (hp : p ∈ e.parameters) :
    (∃ q ∈ d.parameters, q.value = p.value) ∨ ∃ w, s.write? = some w ∧ w.value = p.value := by
  cases s with
  | write param value origin =>
      cases writeCase htaken with
      | new =>
          rcases List.mem_append.mp hp with hp | hp
          · exact .inl ⟨p, hp, rfl⟩
          · rw [List.mem_singleton.mp hp]
            exact .inr ⟨_, rfl, rfl⟩
      | repeated => exact .inl ⟨p, hp, rfl⟩
      | override =>
          obtain ⟨q, hq, rfl⟩ := List.mem_map.mp hp
          split
          · exact .inr ⟨_, rfl, rfl⟩
          · exact .inl ⟨q, hq, rfl⟩
  | report finding =>
      cases htaken
      exact .inl ⟨p, hp, rfl⟩
  | carried role column into =>
      cases carriedCase htaken with
      | found | dropped => exact .inl ⟨p, hp, rfl⟩
  | fail fault => cases htaken

/-- What stands in a document after some steps stood there before, or one of the steps wrote it. -/
theorem value_of_run (htaken : d.run grammar strict steps = .ok e) {p : Parameter} (hp : p ∈ e.parameters) :
    (∃ q ∈ d.parameters, q.value = p.value) ∨ ∃ w ∈ steps.filterMap Step.write?, w.value = p.value := by
  induction steps generalizing d with
  | nil =>
      cases htaken
      exact .inl ⟨p, hp, rfl⟩
  | cons s steps ih =>
      rw [run_cons] at htaken
      obtain ⟨next, hstep, hrest⟩ := bind_eq_ok_iff.mp htaken
      obtain ⟨q, hq, hvalue⟩ | ⟨w, hw, hvalue⟩ := ih hrest
      · refine (value_of_step hstep hq).imp ?_ ?_
        · rintro ⟨q', hq', hvalue'⟩
          exact ⟨q', hq', hvalue'.trans hvalue⟩
        · rintro ⟨w, hw, hvalue'⟩
          exact ⟨w, List.mem_filterMap.mpr ⟨s, List.mem_cons_self, hw⟩, hvalue'.trans hvalue⟩
      · obtain ⟨s', hs', hw⟩ := List.mem_filterMap.mp hw
        exact .inr ⟨w, List.mem_filterMap.mpr ⟨s', List.mem_cons_of_mem s hs', hw⟩, hvalue⟩

end Document

namespace Rendering

open Document

variable {r : Registry} {c : Chart} {grammar : String} {rows : KindRows} {role : Role} {row : RoleRow} {into : Value}
  {name : String} {d e : Document}

/-! ### Which folded columns are reported -/

/-- The rendering warns that what is bound to a role is not expressed. -/
def WarnsOf (out : Rendering) (role : Role) : Prop :=
  ∃ f ∈ out.diagnostics, f.severity = .warning ∧ f.code = .unsupported ∧ f.key = .text role.name

theorem unsupportedAt_iff {f : Diagnostic} :
    f.unsupportedAt role = true ↔ f.code = .unsupported ∧ f.key = .text role.name := by
  rw [Diagnostic.unsupportedAt, Bool.and_eq_true, beq_iff_eq, Value.same_text_right_iff]

/-- A folded column is checked on in its parameter, if the row names one, and nowhere else. -/
theorem carried_mem_iff (hrow : rows.role? role = some row) (hw : row.column? = some (.consumed into))
    (hinto : row.consumedInto = into) (hbound : c.source? role = some (.column name)) {column : String} {param : Value} :
    .carried role column param ∈ c.bindings.flatMap (carriedSteps c rows) ↔
      into ≠ .null ∧ column = name ∧ param = into := by
  have hb : (⟨role, .column name⟩ : Binding) ∈ c.bindings := Chart.mem_bindings.mpr hbound
  rw [List.mem_flatMap]
  constructor
  · rintro ⟨b, hb', hs⟩
    obtain ⟨rfl, hnull, row', hrow', rfl⟩ := of_mem_carriedSteps hs
    rw [hrow] at hrow'
    cases hrow'
    have hsource := Chart.mem_bindings.mp hb'
    rw [hbound] at hsource
    cases hsource
    exact ⟨hinto ▸ hnull, rfl, hinto⟩
  · rintro ⟨hnull, rfl, rfl⟩
    rw [← hinto] at hnull ⊢
    exact ⟨_, hb, carried_mem_carriedSteps hrow hw rfl hnull⟩

/-- A check on a column that fails after all bindings are written leaves its warning in the rendering. -/
theorem droppedWarning_mem (hrun : Document.empty.run grammar false (steps r c grammar rows) = .ok e)
    (hopening : Document.empty.run grammar false (openingSteps c grammar rows) = .ok d) {column : String} {param : Value}
    (hs : .carried role column param ∈ c.bindings.flatMap (carriedSteps c rows))
    (hmissed : d.carries param column = false) : droppedWarning grammar role column param ∈ e.findings := by
  obtain ⟨d', checked, hopening', hfindings, hrest⟩ := exists_opening_of_run hrun
  cases Except.ok.inj (hopening.symm.trans hopening')
  refine (findings_run hrest).subset ?_
  rw [hfindings]
  refine List.mem_append_right _ (List.mem_filterMap.mpr ⟨_, hs, ?_⟩)
  rw [dropped?, hmissed]
  rfl

/-- A column that is folded into a parameter is reported exactly if the row names the parameter and the search for the
column's name there fails. -/
theorem warnsOf_iff {desk : Desk} (hdesk : desk.Reachable)
    (hrun : Document.empty.run grammar false (steps r desk.chart grammar rows) = .ok e)
    (hopening : Document.empty.run grammar false (openingSteps desk.chart grammar rows) = .ok d)
    (hrow : rows.role? role = some row) (hw : row.column? = some (.consumed into)) (hinto : row.consumedInto = into)
    (hbound : desk.chart.source? role = some (.column name)) :
    WarnsOf ⟨grammar, desk.chart.kind, e.entries, e.findings⟩ role ↔ into ≠ .null ∧ d.carries into name = false := by
  constructor
  · rintro ⟨f, hf, -, hcode, hkey⟩
    obtain ⟨d', hopening', hiff⟩ := exists_unsupportedAt_iff (r := role)
      (fun source hsource => ⟨name, Option.some.inj (hsource.symm.trans hbound)⟩) (name_styleKey_ne role)
      (fun f hf => by rw [hdesk.code_eq f hf]; decide) hrun
    cases Except.ok.inj (hopening.symm.trans hopening')
    obtain ⟨column, param, hs, hmissed⟩ := hiff.mp ⟨f, hf, unsupportedAt_iff.mpr ⟨hcode, hkey⟩⟩
    obtain ⟨hnull, rfl, rfl⟩ := (carried_mem_iff hrow hw hinto hbound).mp hs
    exact ⟨hnull, hmissed⟩
  · rintro ⟨hnull, hmissed⟩
    have hs : .carried role name into ∈ desk.chart.bindings.flatMap (carriedSteps desk.chart rows) :=
      (carried_mem_iff hrow hw hinto hbound).mpr ⟨hnull, rfl, rfl⟩
    exact ⟨_, droppedWarning_mem hrun hopening hs hmissed, rfl, rfl, rfl⟩

/-- Where nothing that is written refers to a column, no parameter carries it. -/
theorem not_carries_of_writes (hopening : Document.empty.run grammar false (openingSteps c grammar rows) = .ok d)
    (h : ∀ w ∈ openingWrites c rows, w.value.mentions name = false) : d.carries into name = false := by
  have hholds : Holds (openingSteps c grammar rows) (openingWrites c rows) :=
    holds_kindSteps.append (Holds.flatMap _ holds_bindingSteps)
  unfold carries
  cases hfound : d.find? into with
  | none => rfl
  | some p =>
      obtain ⟨q, hq, -⟩ | ⟨w, hw, hvalue⟩ := value_of_run hopening (List.mem_of_find?_eq_some hfound)
      · exact absurd hq List.not_mem_nil
      · rw [hholds.writes] at hw
        show p.value.mentions name = false
        rw [← hvalue]
        exact h w hw

/-- A column that a grammar folds into the parameter of another role is reported unless it is found there. In a
rendering with conflicts let pass, the warning is there exactly if the row names a parameter and the search for the
column's name in it fails after the bindings are written. When the parameter is the same without the binding, that is
a search in what was written for everything else; so the warning is there if the row names a parameter and nothing
else that is written refers to the column. -/
theorem warns_of_folded {tables : List Table} (hread : ∀ t ∈ tables, t.IsRead) (hr : Registry.ofTables tables = .ok r)
    {desk : Desk} (hdesk : desk.Reachable) {out : Rendering} (hout : ofChart r desk.chart grammar false = .ok out) :
    ∃ t ∈ tables, t.grammar = grammar ∧ ∃ rows d, t.kind? desk.chart.kind = some rows ∧
      Document.empty.run grammar false (openingSteps desk.chart grammar rows) = .ok d ∧
      ∀ role row into name, rows.role? role = some row → row.column? = some (.consumed into) →
        desk.chart.source? role = some (.column name) →
        (out.WarnsOf role ↔ into ≠ .null ∧ d.carries into name = false) ∧
        ∀ d', Document.empty.run grammar false (openingSteps (desk.chart.unbound role) grammar rows) = .ok d' →
          d.AlikeAt d' into →
          (out.WarnsOf role ↔ into ≠ .null ∧ d'.carries into name = false) ∧
          (into ≠ .null → (∀ w ∈ openingWrites (desk.chart.unbound role) rows, w.value.mentions name = false) →
            out.WarnsOf role) := by
  obtain ⟨rows, e, hrows, hrun, rfl⟩ := ofChart_eq_ok_iff.mp hout
  obtain ⟨t, ht, rfl, hkind⟩ := exists_table_of_rowsFor hrows
  rw [Registry.tables_of_ofTables hr] at ht
  obtain ⟨d, -, hopening, -⟩ := exists_opening_of_run hrun
  refine ⟨t, ht, rfl, rows, d, hkind, hopening, fun role row into name hrow hw hbound => ?_⟩
  have hinto : row.consumedInto = into := by
    have hrole : t.role? desk.chart.kind role = some row := by rw [Table.role?, hkind, Option.bind_some, hrow]
    exact (hread t ht).consumedInto hrole hw
  have hiff := warnsOf_iff hdesk hrun hopening hrow hw hinto hbound
  refine ⟨hiff, fun d' hopening' halike => ?_⟩
  rw [hiff, halike.carries_eq name]
  exact ⟨Iff.rfl, fun hnull hwrites => ⟨hnull, not_carries_of_writes hopening' hwrites⟩⟩

end Rendering

/-- Rows for bars that count the levels of one column, with that of the group folded into their heights. Nothing is
split by the group. -/
def Table.groupIntoHeights : Entries :=
  smallPayload fun
    | .bar => [
      (.text "x", .dict [(.text "column", .dict [(.text "write", .text "counted_or_labels"),
        (.text "param", .text "height"), (.text "labels_param", .text "names.arg")])]),
      (.text "group", .dict [(.text "column", .dict [(.text "write", .text "consumed"), (.text "into", .text "height")])])]
    | _ => []

/-- Bars of one column, grouped by another. -/
def Desk.barsByGroup (group : String) : Desk :=
  (Desk.mk .empty { kind := .bar, facetLimit := 12 }).run [
    .define (.text "Region") (.text "categorical") .null,
    .define (.text group) (.text "categorical") .null,
    .bind (.text "x") (.text "Region"),
    .bind (.text "group") (.text group)]

theorem Desk.reachable_barsByGroup (group : String) : (Desk.barsByGroup group).Reachable :=
  Desk.reachable_new .bar _

namespace Rendering

open Document

/-- A group that the heights do not carry is reported. -/
theorem warns_of_folded_barsByGroup : ∃ t r out, Table.parse "<memory>" (.dict Table.groupIntoHeights) = .ok t ∧
    Registry.ofTables [t] = .ok r ∧ (Desk.barsByGroup "Year").Reachable ∧
    ofChart r (Desk.barsByGroup "Year").chart "mini" false = .ok out ∧ out.WarnsOf .group := by
  obtain ⟨t, r, out, rows, row, d, d', ht, hr, hout, hkind, hrow, hw, hd, hd', halike, hmissed⟩ :
      ∃ t r out rows row d d', Table.parse "<memory>" (.dict Table.groupIntoHeights) = .ok t ∧
        Registry.ofTables [t] = .ok r ∧ ofChart r (Desk.barsByGroup "Year").chart "mini" false = .ok out ∧
        t.kind? .bar = some rows ∧ rows.role? .group = some row ∧
        row.column? = some (.consumed (.text "height")) ∧
        Document.empty.run "mini" false (openingSteps (Desk.barsByGroup "Year").chart "mini" rows) = .ok d ∧
        Document.empty.run "mini" false (openingSteps ((Desk.barsByGroup "Year").chart.unbound .group) "mini" rows)
          = .ok d' ∧ d.AlikeAt d' (.text "height") ∧ d'.carries (.text "height") "Year" = false :=
    ⟨_, _, _, _, _, _, _, rfl, rfl, rfl, rfl, rfl, rfl, rfl, rfl, .inl rfl, rfl⟩
  have hreach := Desk.reachable_barsByGroup "Year"
  refine ⟨t, r, out, ht, hr, hreach, hout, ?_⟩
  obtain ⟨t', ht', -, rows', e, hkind', he, hwarns⟩ :=
    warns_of_folded (List.forall_mem_singleton.mpr ⟨_, _, ht⟩) hr hreach hout
  cases List.mem_singleton.mp ht'
  cases Option.some.inj (hkind'.symm.trans hkind)
  cases Except.ok.inj (he.symm.trans hd)
  exact ((hwarns .group row (.text "height") "Year" hrow hw rfl).2 d' hd' halike).1.mpr ⟨nofun, hmissed⟩

/-- A group that has reached no parameter may go unreported: the name of what the bars count is taken for it. -/
theorem not_warns_of_every_folded : ¬∀ (payload : Entries) (t : Table) (r : Registry) (desk : Desk) (out : Rendering),
    Table.parse "<memory>" (.dict payload) = .ok t → Registry.ofTables [t] = .ok r → desk.Reachable →
    ofChart r desk.chart t.grammar false = .ok out →
    ∀ rows role row into name d d', t.kind? desk.chart.kind = some rows → rows.role? role = some row →
      row.column? = some (.consumed into) → desk.chart.source? role = some (.column name) →
      (∀ q, q ≠ role → desk.chart.source? q ≠ some (.column name)) →
      Document.empty.run t.grammar false (openingSteps desk.chart t.grammar rows) = .ok d →
      Document.empty.run t.grammar false (openingSteps (desk.chart.unbound role) t.grammar rows) = .ok d' →
      d.AlikeAt d' into → out.WarnsOf role := by
  intro h
  obtain ⟨t, r, out, rows, row, d, d', ht, hr, hout, hnone, hkind, hrow, hw, hd, hd', halike⟩ :
      ∃ t r out rows row d d', Table.parse "<memory>" (.dict Table.groupIntoHeights) = .ok t ∧
        Registry.ofTables [t] = .ok r ∧ ofChart r (Desk.barsByGroup "count").chart t.grammar false = .ok out ∧
        out.diagnostics = [] ∧ t.kind? .bar = some rows ∧ rows.role? .group = some row ∧
        row.column? = some (.consumed (.text "height")) ∧
        Document.empty.run t.grammar false (openingSteps (Desk.barsByGroup "count").chart t.grammar rows) = .ok d ∧
        Document.empty.run t.grammar false
          (openingSteps ((Desk.barsByGroup "count").chart.unbound .group) t.grammar rows) = .ok d' ∧
        d.AlikeAt d' (.text "height") :=
    ⟨_, _, _, _, _, _, _, rfl, rfl, rfl, rfl, rfl, rfl, rfl, rfl, rfl, .inl rfl⟩
  have hother (q : Role) (hq : q ≠ .group) : (Desk.barsByGroup "count").chart.source? q ≠ some (.column "count") := by
    have hcolumn : (Desk.barsByGroup "count").chart.columnFor q ≠ some "count" := by
      revert q
      decide
    intro hbound
    rw [Chart.columnFor, hbound] at hcolumn
    exact hcolumn rfl
  obtain ⟨f, hf, -⟩ := h Table.groupIntoHeights t r (Desk.barsByGroup "count") out ht hr
    (Desk.reachable_barsByGroup "count") hout rows .group row (.text "height") "count" d d' hkind hrow hw rfl hother hd hd'
    halike
  rw [hnone] at hf
  exact absurd hf List.not_mem_nil

end Rendering

end ChartGrammar
