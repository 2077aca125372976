import ChartGrammar.Proofs.Value.Sameness
import ChartGrammar.Registry

/-! What writers pass on. A property that containers share with all that they hold passes from a table, and from what is
bound and set on a chart, to everything that is written. Regularity is such a property, by which no NaN stands anywhere
and the keys of dictionaries differ pairwise; and so is legibility, by which no integer is too long to be written. -/

namespace ChartGrammar

/-- All names and values have a property. -/
def Entries.All (P : Value → Prop) (es : Entries) : Prop :=
  ∀ e ∈ es, P e.1 ∧ P e.2

namespace Entries

variable {P : Value → Prop}

theorem all_nil : All P [] :=
  fun _ he => absurd he List.not_mem_nil

theorem all_singleton {name value : Value} (hname : P name) (hvalue : P value) : All P [(name, value)] :=
  List.forall_mem_singleton.mpr ⟨hname, hvalue⟩

theorem All.get? {es : Entries} {key value : Value} (h : es.All P) (hfound : es.get? key = some value) : P value := by
  obtain ⟨e, he, rfl⟩ := Option.map_eq_some_iff.mp hfound
  exact (h e (List.mem_of_find?_eq_some he)).2

theorem All.insert {es : Entries} {key value : Value} (h : es.All P) (hkey : P key) (hvalue : P value) :
    (es.insert key value).All P := by
  intro e he
  obtain ⟨hname, hgiven⟩ := exists_of_mem_insert he
  constructor
  · rcases hname with ⟨f, hf, hsame⟩ | hsame
    · rw [hsame]
      exact (h f hf).1
    · rwa [hsame]
  · rcases hgiven with he | hsame
    · exact (h e he).2
    · rwa [hsame]

end Entries

namespace Value

/-- Texts and truth values have the property, and containers share it with all that they hold; of dictionaries only
those matter whose keys differ pairwise. -/
structure Hereditary (P : Value → Prop) : Prop where
  text : ∀ s, P (.text s)
  bool : ∀ b, P (.bool b)
  tuple : ∀ {items}, (∀ x ∈ items, P x) → P (.tuple items)
  dict : ∀ {es : Entries}, es.Distinct → es.All P → P (.dict es)
  entries : ∀ {es : Entries}, P (.dict es) → es.All P
  items : ∀ {items}, P (.list items) ∨ P (.tuple items) → ∀ x ∈ items, P x

theorem hereditary_regular : Hereditary fun v => v.regular = true where
  text _ := rfl
  bool _ := rfl
  tuple h := regularItems_iff.mpr h
  dict hdistinct h := regularEntries_iff.mpr ⟨h, hdistinct⟩
  entries h := (regularEntries_iff.mp h).1
  items h := h.elim regularItems_iff.mp regularItems_iff.mp

theorem hereditary_legible : Hereditary fun v => v.legible = true where
  text _ := rfl
  bool _ := rfl
  tuple h := areLegible_iff.mpr h
  dict _ h := entriesLegible_iff.mpr h
  entries h := entriesLegible_iff.mp h
  items h := h.elim areLegible_iff.mp areLegible_iff.mp

variable {P : Value → Prop} (hP : Hereditary P)

include hP

theorem Hereditary.elements {v : Value} {items : List Value} (h : P v) (helements : v.elements? = some items) :
    ∀ x ∈ items, P x := by
  cases v with
  | list xs =>
      cases helements
      exact hP.items (.inl h)
  | tuple xs =>
      cases helements
      exact hP.items (.inr h)
  | dict es =>
      cases helements
      intro x hx
      obtain ⟨e, he, rfl⟩ := List.mem_map.mp hx
      exact (hP.entries h e he).1
  | text s =>
      cases helements
      intro x hx
      obtain ⟨c, -, rfl⟩ := List.mem_map.mp hx
      exact hP.text _
  | _ => cases helements

/-- A dictionary with one entry. -/
theorem Hereditary.field {name value : Value} (hname : P name) (hvalue : P value) : P (.dict [(name, value)]) :=
  hP.dict (List.pairwise_singleton _ _) (Entries.all_singleton hname hvalue)

end Value

/-! ### The values that writers hold -/

def StyleWriter.values : StyleWriter → List Value
  | scalar param => [param]
  | pair param => [param]
  | nested param field => [param, field]
  | mapped param words => [param, .dict words]
  | template param pattern => [param, pattern]
  | legendPosition param hidden shown => [param, hidden, shown]
  | nothing => []

def ColumnWriter.values : ColumnWriter → List Value
  | column param => [param]
  | vector param => [param]
  | countedOrLabels param labels roles => [param, labels, roles]
  | groupedVector param roles => [param, roles]
  | formula param other => [param, other]
  | consumed into => [into]
  | palette param => [param]
  | factorCodes param => [param]
  | overlay param call colour => [param, call, colour]

def SelectorWriter.values : SelectorWriter → List Value
  | fixed params => [.dict params]
  | barGeometry param counted valued => [param, counted, valued]

def FacetWriter.values : FacetWriter → List Value
  | wrap param => [param]
  | panelGrid param layout => [param, layout]

def Arranger.values : Arranger → List Value
  | groupedBars param scale roles => [param, scale, roles]

def Realization.values : Realization → List Value
  | written w => w.values
  | arranged arranger => arranger.values

def RoleRow.values (row : RoleRow) : List Value :=
  row.column?.elim [] ColumnWriter.values ++ row.literal?.elim [] StyleWriter.values

def KindRows.values (rows : KindRows) : List Value :=
  rows.selector.values ++ rows.roles.flatMap (fun e => e.2.values)
    ++ rows.styles.flatMap (fun e => e.2.realization.values)
    ++ rows.facet?.elim [] (fun row => row.writer.values)

/-- The values that the writers of a registry hold are regular. -/
def Registry.Regular (r : Registry) : Prop :=
  ∀ t ∈ r.tables, ∀ rows ∈ t.kinds, ∀ v ∈ rows.values, v.regular = true

/-! ### What writers write -/

section

variable {P : Value → Prop} (hP : Value.Hereditary P) {params : Entries}

include hP

theorem StyleWriter.inherits_run {w : StyleWriter} {v : Value} (hw : ∀ u ∈ w.values, P u) (hv : P v)
    (h : w.run v = .ok params) : params.All P := by
  cases w with
  | scalar param =>
      cases h
      rw [values, List.forall_mem_singleton] at hw
      exact Entries.all_singleton hw hv
  | pair param =>
      rw [values, List.forall_mem_singleton] at hw
      obtain ⟨bound, hbounds, h⟩ := bind_eq_ok_iff.mp h
      cases h
      unfold bounds at hbounds
      split at hbounds
      · next lower upper helements =>
          cases hbounds
          exact Entries.all_singleton hw (hP.tuple (hP.elements hv helements))
      · cases hbounds
      · cases hbounds
  | nested param field =>
      rw [values, List.forall_mem_cons, List.forall_mem_singleton] at hw
      rw [run] at h
      split at h
      · cases h
        exact Entries.all_singleton hw.1 (hP.field hw.2 hv)
      · cases h
  | mapped param words =>
      rw [values, List.forall_mem_cons, List.forall_mem_singleton] at hw
      obtain ⟨word?, hlookup, h⟩ := bind_eq_ok_iff.mp h
      unfold Entries.lookup at hlookup
      split at hlookup
      · cases hlookup
        split at h
        · next word hword =>
            cases h
            exact Entries.all_singleton hw.1 ((hP.entries hw.2).get? hword)
        · cases h
          exact Entries.all_nil
      · cases hlookup
  | template param pattern =>
      rw [values, List.forall_mem_cons] at hw
      obtain ⟨filled, hfilled, h⟩ := bind_eq_ok_iff.mp h
      cases h
      unfold Template.apply at hfilled
      split at hfilled
      · obtain ⟨expanded, -, hfilled⟩ := bind_eq_ok_iff.mp hfilled
        cases hfilled
        exact Entries.all_singleton hw.1 (hP.text expanded)
      · cases hfilled
  | legendPosition param hidden shown =>
      cases h
      rw [values, List.forall_mem_cons, List.forall_mem_cons, List.forall_mem_singleton] at hw
      refine Entries.all_singleton hw.1 ?_
      split
      · exact hw.2.2
      · exact hw.2.1
  | nothing =>
      cases h
      exact Entries.all_nil

/-- The values of a column, with or without a group. -/
theorem ColumnWriter.inherits_split {fields : Entries} (hdistinct : fields.Distinct) (h : fields.All P)
    (hnew : ∀ e ∈ fields, e.1.same (.text "by") = false) (group : Option String) : P (split fields group) := by
  cases group with
  | none => exact hP.dict hdistinct h
  | some name =>
      refine hP.dict (List.pairwise_append.mpr ⟨hdistinct, List.pairwise_singleton _ _, ?_⟩)
        (List.forall_mem_append.mpr ⟨h, List.forall_mem_singleton.mpr ⟨hP.text _, hP.text _⟩⟩)
      intro e he
      exact List.forall_mem_singleton.mpr (hnew e he)

theorem ColumnWriter.inherits_layer {call colour layer : Value} {name : String} (hcall : P call) (hcolour : P colour)
    (h : ColumnWriter.layer call colour (.text name) = .ok layer) : P layer := by
  let fields : Entries := [(.text "call", call), (.text "split_by", .text name), (.text "add", .bool true)]
  have hdistinct : fields.Distinct := by simp [fields, Entries.Distinct, Value.same]
  have hfields : fields.All P := by simp [fields, Entries.All, hP.text, hP.bool, hcall]
  unfold ColumnWriter.layer at h
  dsimp only at h
  split at h
  · cases h
    exact hP.dict hdistinct hfields
  · split at h
    · cases h
      exact hP.dict hdistinct.insert (hfields.insert hcolour (hP.field (hP.text _) (hP.text _)))
    · cases h

theorem ColumnWriter.inherits_run {w : ColumnWriter} {name : String} {c : Chart} (hw : ∀ u ∈ w.values, P u)
    (h : w.run (.text name) c = .ok params) : params.All P := by
  have hvalues : P (.dict [(.text "column", .text name)]) := hP.field (hP.text _) (hP.text _)
  cases w with
  | column param =>
      cases h
      rw [values, List.forall_mem_singleton] at hw
      exact Entries.all_singleton hw (hP.text _)
  | vector param =>
      cases h
      rw [values, List.forall_mem_singleton] at hw
      exact Entries.all_singleton hw hvalues
  | palette param =>
      cases h
      rw [values, List.forall_mem_singleton] at hw
      exact Entries.all_singleton hw (hP.field (hP.text _) (hP.text _))
  | factorCodes param =>
      cases h
      rw [values, List.forall_mem_singleton] at hw
      refine Entries.all_singleton hw (hP.dict (by simp [Entries.Distinct, Value.same]) ?_)
      simp [Entries.All, hP.text]
  | countedOrLabels param labels roles =>
      rw [values, List.forall_mem_cons, List.forall_mem_cons] at hw
      rw [run] at h
      split at h
      · cases h
        exact Entries.all_singleton hw.2.1 hvalues
      · obtain ⟨group, -, h⟩ := bind_eq_ok_iff.mp h
        cases h
        refine Entries.all_singleton hw.1 (inherits_split hP (by simp [Entries.Distinct, Value.same]) ?_ ?_ group)
        · simp [Entries.All, hP.text]
        · simp [Value.same]
  | groupedVector param roles =>
      rw [values, List.forall_mem_cons] at hw
      obtain ⟨group, -, h⟩ := bind_eq_ok_iff.mp h
      cases h
      refine Entries.all_singleton hw.1 (inherits_split hP (List.pairwise_singleton _ _) (hP.entries hvalues) ?_ group)
      simp [Value.same]
  | formula param other =>
      rw [values, List.forall_mem_cons] at hw
      obtain ⟨role, -, h⟩ := bind_eq_ok_iff.mp h
      split at h
      · cases h
        exact Entries.all_singleton hw.1 (hP.text _)
      · cases h
        exact Entries.all_singleton hw.1 hvalues
  | consumed into =>
      cases h
      exact Entries.all_nil
  | overlay param call colour =>
      rw [values, List.forall_mem_cons, List.forall_mem_cons, List.forall_mem_singleton] at hw
      obtain ⟨layer, hlayer, h⟩ := bind_eq_ok_iff.mp h
      cases h
      exact Entries.all_singleton hw.1
        (hP.tuple (List.forall_mem_singleton.mpr (inherits_layer hP hw.2.1 hw.2.2 hlayer)))

theorem SelectorWriter.inherits_run {w : SelectorWriter} (hw : ∀ u ∈ w.values, P u) (c : Chart) :
    (w.run c).All P := by
  cases w with
  | fixed params =>
      rw [values, List.forall_mem_singleton] at hw
      exact hP.entries hw
  | barGeometry param counted valued =>
      rw [values, List.forall_mem_cons, List.forall_mem_cons, List.forall_mem_singleton] at hw
      refine Entries.all_singleton hw.1 ?_
      split
      · exact hw.2.2
      · exact hw.2.1

theorem FacetWriter.inherits_run {w : FacetWriter} (hw : ∀ u ∈ w.values, P u) (name : String) :
    (w.run (.text name)).All P := by
  cases w with
  | wrap param =>
      rw [values, List.forall_mem_singleton] at hw
      exact Entries.all_singleton hw (hP.text _)
  | panelGrid param layout =>
      rw [values, List.forall_mem_cons, List.forall_mem_singleton] at hw
      refine Entries.all_singleton hw.1 (hP.dict (by simp [Entries.Distinct, Value.same]) ?_)
      simp [Entries.All, hP.text, hw.2]

theorem Arranger.inherits_run {a : Arranger} {v : Value} {c : Chart} {arrangement : Arrangement}
    (ha : ∀ u ∈ a.values, P u) (h : a.run v c = .ok arrangement) : arrangement.fragments.All P := by
  cases a with
  | groupedBars param scale roles =>
      rw [values, List.forall_mem_cons, List.forall_mem_cons] at ha
      obtain ⟨group, -, h⟩ := bind_eq_ok_iff.mp h
      split at h
      · obtain ⟨beside, hfragments⟩ | hfragments := fragments_layout h
        · rw [hfragments]
          exact Entries.all_singleton ha.1 (hP.bool beside)
        · rw [hfragments]
          exact List.forall_mem_cons.mpr ⟨⟨ha.1, hP.bool false⟩, Entries.all_singleton ha.2.1 (hP.text _)⟩
      · obtain ⟨shown, -, h⟩ := bind_eq_ok_iff.mp h
        cases h
        exact Entries.all_nil

end

end ChartGrammar
