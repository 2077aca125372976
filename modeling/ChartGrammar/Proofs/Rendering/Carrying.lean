import ChartGrammar.Proofs.Rendering.Origins
import ChartGrammar.Proofs.Rendering.Refusals

/-! Where the columns of a chart end up. A value carries a column if the column's name is the value, stands under
one of some fields of it or of a layer of it, or is a side of a formula. What is written for a column carries it,
unless the writer leaves that to another role; and what is written is there in the end or is in conflict. -/

namespace ChartGrammar

/-- The fields under which columns stand. -/
def Value.columnFields : List String :=
  ["column", "by", "palette_by", "split_by"]

def Entries.HasColumn (es : Entries) (name : String) : Prop :=
  ∃ field ∈ Value.columnFields, (Value.text field, Value.text name) ∈ es

/-- The value tells of the column: by its name, under a field, in a layer, in the formula of the heights by their
group, or in the formula of the facet. -/
inductive Chart.Carries (c : Chart) (name : String) : Value → Prop where
  | name : Carries c name (.text name)
  | field {es : Entries} (h : es.HasColumn name) : Carries c name (.dict es)
  | layer {layers : List Value} {es : Entries} (hlayer : .dict es ∈ layers) (h : es.HasColumn name) :
      Carries c name (.tuple layers)
  | formula {y group : String} (hy : c.columnFor .y = some y) (hgroup : c.columnFor .group = some group)
      (h : name = y ∨ name = group) : Carries c name (.text (y ++ " ~ " ++ group))
  | facet (h : c.facet? = some name) : Carries c name (.text ("~" ++ name))

variable {c : Chart} {name : String}

theorem Entries.HasColumn.congr {es fs : Entries} (h : es.HasColumn name)
    (hsame : ∀ e ∈ es, ∃ f ∈ fs, e.1.same f.1 = true ∧ e.2.same f.2 = true) : fs.HasColumn name := by
  obtain ⟨field, hfield, hmem⟩ := h
  obtain ⟨⟨key, value⟩, hf, hkey, hvalue⟩ := hsame _ hmem
  rw [Value.same_text_iff] at hkey hvalue
  subst hkey hvalue
  exact ⟨field, hfield, hf⟩

/-- A value that counts as the same carries what the value carries. -/
theorem Chart.Carries.congr {v u : Value} (h : c.Carries name v) (hsame : v.same u = true) : c.Carries name u := by
  cases h with
  | name =>
      rw [Value.same_text_iff.mp hsame]
      exact .name
  | field h =>
      obtain ⟨fs, rfl, -, hall⟩ := Value.same_dict_iff.mp hsame
      exact .field (h.congr hall)
  | layer hlayer h =>
      obtain ⟨others, rfl, hall⟩ := Value.same_tuple_iff.mp hsame
      obtain ⟨i, hi, hget⟩ := List.mem_iff_getElem.mp hlayer
      have hi' : i < others.length := hall.length_eq ▸ hi
      have hlike := hall.get hi hi'
      rw [List.get_eq_getElem, hget] at hlike
      obtain ⟨fs, hother, -, hentries⟩ := Value.same_dict_iff.mp hlike
      exact .layer (hother ▸ List.getElem_mem hi') (h.congr hentries)
  | formula hy hgroup h =>
      rw [Value.same_text_iff.mp hsame]
      exact .formula hy hgroup h
  | facet h =>
      rw [Value.same_text_iff.mp hsame]
      exact .facet h

/-! ### Writers -/

/-- Whether a writer at a role keeps the column that it is given. What is folded into another parameter is kept
there, if at all; and a formula is known only with the heights on its left and their group on its right. -/
def ColumnWriter.keeps (r : Role) : ColumnWriter → Bool
  | consumed _ => false
  | formula _ other => r == .y && (Vocabulary.ofValue? other : Option Role) == some .group
  | overlay _ _ colour => !(Value.text "split_by").same colour
  | _ => true

theorem Entries.mem_insert {es : Entries} {e : Value × Value} {key value : Value} (he : e ∈ es)
    (hkey : e.1.same key = false) : e ∈ es.insert key value := by
  unfold insert
  split
  · refine List.mem_map.mpr ⟨e, he, ?_⟩
    rw [hkey]
    rfl
  · exact List.mem_append_left _ he

theorem Chart.carries_head {field : String} (hfield : field ∈ Value.columnFields) (rest : Entries) :
    c.Carries name (.dict ((.text field, .text name) :: rest)) :=
  .field ⟨field, hfield, List.mem_cons_self⟩

theorem ColumnWriter.carries_split (fields : Entries) (group : Option String) :
    c.Carries name (split ((.text "column", .text name) :: fields) group) := by
  cases group with
  | none => exact Chart.carries_head (by decide) _
  | some other => exact Chart.carries_head (by decide) _

theorem ColumnWriter.carries_split_by (fields : Entries) : c.Carries name (split fields (some name)) :=
  .field ⟨"by", by decide, List.mem_append_right _ List.mem_cons_self⟩

/-- A layer stands for the column that splits it, unless its colour is put in the place of the column. -/
theorem ColumnWriter.hasColumn_layer {call colour added : Value} (hcolour : (Value.text "split_by").same colour = false)
    (hadded : layer call colour (.text name) = .ok added) : ∃ es : Entries, added = .dict es ∧ es.HasColumn name := by
  have hmem : (Value.text "split_by", Value.text name) ∈
      ([(.text "call", call), (.text "split_by", .text name), (.text "add", .bool true)] : Entries) := by
    simp
  unfold layer at hadded
  dsimp only at hadded
  split at hadded
  · cases hadded
    exact ⟨_, rfl, "split_by", by decide, hmem⟩
  split at hadded
  · cases hadded
    exact ⟨_, rfl, "split_by", by decide, Entries.mem_insert hmem hcolour⟩
  · cases hadded

theorem ColumnWriter.carries_run {w : ColumnWriter} {r : Role} {params : Entries} (hkeeps : w.keeps r = true)
    (hsource : c.source? r = some (.column name)) (hrun : w.run (.text name) c = .ok params) :
    ∃ e ∈ params, c.Carries name e.2 := by
  cases w with
  | column param =>
      cases hrun
      exact ⟨_, List.mem_cons_self, .name⟩
  | vector param | factorCodes param =>
      cases hrun
      exact ⟨_, List.mem_cons_self, Chart.carries_head (by decide) _⟩
  | palette param =>
      cases hrun
      exact ⟨_, List.mem_cons_self, Chart.carries_head (by decide) _⟩
  | countedOrLabels param labels roles =>
      rw [run] at hrun
      split at hrun
      · cases hrun
        exact ⟨_, List.mem_cons_self, Chart.carries_head (by decide) _⟩
      · obtain ⟨group, -, hrun⟩ := bind_eq_ok_iff.mp hrun
        cases hrun
        exact ⟨_, List.mem_cons_self, carries_split _ group⟩
  | groupedVector param roles =>
      obtain ⟨group, -, hrun⟩ := bind_eq_ok_iff.mp hrun
      cases hrun
      exact ⟨_, List.mem_cons_self, carries_split _ group⟩
  | formula param other =>
      simp only [keeps, Bool.and_eq_true, beq_iff_eq] at hkeeps
      obtain ⟨rfl, hother⟩ := hkeeps
      rw [run, Chart.anyRole, hother] at hrun
      dsimp only [Bind.bind, Except.bind] at hrun
      split at hrun
      · next group hgroup =>
          cases hrun
          have hy : c.columnFor .y = some name := by rw [Chart.columnFor, hsource]; rfl
          exact ⟨_, List.mem_cons_self, .formula hy hgroup (.inl rfl)⟩
      · cases hrun
        exact ⟨_, List.mem_cons_self, Chart.carries_head (by decide) _⟩
  | consumed into => cases hkeeps
  | overlay param call colour =>
      rw [keeps, Bool.not_eq_true'] at hkeeps
      obtain ⟨added, hadded, hrun⟩ := bind_eq_ok_iff.mp hrun
      cases hrun
      obtain ⟨es, rfl, hcolumn⟩ := hasColumn_layer hkeeps hadded
      exact ⟨_, List.mem_cons_self, .layer List.mem_cons_self hcolumn⟩

theorem FacetWriter.carries_run (w : FacetWriter) (hfacet : c.facet? = some name) :
    ∃ e ∈ w.run (.text name), c.Carries name e.2 := by
  cases w with
  | wrap param => exact ⟨_, List.mem_cons_self, .facet hfacet⟩
  | panelGrid param layout =>
      exact ⟨_, List.mem_cons_self, .field ⟨"split_by", by decide, List.mem_cons_self⟩⟩

namespace Rendering

open Document

variable {rows : KindRows} {s : Schema}

theorem exists_write_of_keeps {r : Role} {row : RoleRow} {w : ColumnWriter} (hrow : rows.role? r = some row)
    (hw : row.column? = some w) (htakes : w.takesAny = true) (hkeeps : w.keeps r = true)
    (hsource : c.source? r = some (.column name)) : ∃ u ∈ writesOf c rows (.role r), c.Carries name u.value := by
  obtain ⟨params, hrun⟩ := ColumnWriter.run_of_takesAny htakes name c
  obtain ⟨e, he, hcarries⟩ := ColumnWriter.carries_run hkeeps hsource hrun
  refine ⟨⟨e.1, e.2, .role r⟩, ?_, hcarries⟩
  rw [writesOf, hsource, Option.elim_some, bindingWrites_column hrow hw, hrun]
  exact List.mem_map_of_mem he

theorem exists_write_of_facet {row : FacetRow} (hrow : rows.facet? = some row) (hfacet : c.facet? = some name) :
    ∃ u ∈ writesOf c rows .facet, c.Carries name u.value := by
  obtain ⟨e, he, hcarries⟩ := row.writer.carries_run hfacet
  refine ⟨⟨e.1, e.2, .facet⟩, ?_, hcarries⟩
  rw [writesOf, facetWrites, hfacet, hrow]
  exact List.mem_map_of_mem he

/-- What was written with a column in it is there in the end with the column, or is in conflict. -/
theorem carried_or_conflict {ws : List Parameter} {d : Document} (h : Records ws d) (hregular : ∀ w ∈ ws, w.Regular)
    {w : Parameter} (hw : w ∈ ws) (hcarries : c.Carries name w.value) :
    (∃ e ∈ d.entries, c.Carries name e.2) ∨ ∃ f ∈ conflicts d.findings, f.key.same w.name = true := by
  obtain ⟨e, he, -, hvalue | hconflict⟩ := h.kept_or_conflict hregular w hw
  · exact .inl ⟨e, he, hcarries.congr (Value.same_symm (h.regular_value hregular he) hvalue)⟩
  · exact .inr hconflict

end Rendering

end ChartGrammar
