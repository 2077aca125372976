import ChartGrammar.Proofs.Style.NormalForm
import ChartGrammar.Proofs.Value.Pattern
import ChartGrammar.Rendering.Basic

/-! What writers take, and what they write to. Whether a row can be misused is read off the row: its writers take
every source that a chart can bring to its place, its notes can be filled in with every column, and the names
that it writes to can be keys. A writer that shows what it takes in a text makes nothing of what is too long to be
written, though it takes it. -/

namespace ChartGrammar

/-- The elements are the names of roles. -/
def Value.namesRoles (v : Value) : Bool :=
  match v.elements? with
  | some items => items.all fun item => (Vocabulary.ofValue? item : Option Role).isSome
  | none => false

theorem Chart.groupingAmong_of_names {items : List Value} (c : Chart) (exclude : Option String)
    (h : ∀ item ∈ items, (Vocabulary.ofValue? item : Option Role).isSome = true) :
    ∃ group, c.groupingAmong exclude items = .ok group := by
  induction items with
  | nil => exact ⟨none, rfl⟩
  | cons item items ih =>
      rw [List.forall_mem_cons] at h
      obtain ⟨role, hrole⟩ := Option.isSome_iff_exists.mp h.1
      obtain ⟨group, hgroup⟩ := ih h.2
      rw [groupingAmong, anyRole, hrole]
      dsimp only [Bind.bind, Except.bind]
      split
      · split
        · exact ⟨group, hgroup⟩
        · exact ⟨_, rfl⟩
      · exact ⟨group, hgroup⟩

theorem Chart.grouping_of_namesRoles {roles : Value} (c : Chart) (exclude : Option String)
    (h : roles.namesRoles = true) : ∃ group, c.grouping roles exclude = .ok group := by
  unfold Value.namesRoles at h
  split at h
  · next items helements =>
      rw [grouping, helements]
      exact c.groupingAmong_of_names exclude (List.all_eq_true.mp h)
  · exact absurd h Bool.false_ne_true

/-! ### The names that writers write to -/

def StyleWriter.params : StyleWriter → List Value
  | scalar param => [param]
  | pair param => [param]
  | nested param _ => [param]
  | mapped param _ => [param]
  | template param _ => [param]
  | legendPosition param _ _ => [param]
  | nothing => []

def ColumnWriter.params : ColumnWriter → List Value
  | column param => [param]
  | vector param => [param]
  | countedOrLabels param labels _ => [param, labels]
  | groupedVector param _ => [param]
  | formula param _ => [param]
  | consumed _ => []
  | palette param => [param]
  | factorCodes param => [param]
  | overlay param _ _ => [param]

def SelectorWriter.params : SelectorWriter → List Value
  | fixed params => params.map Prod.fst
  | barGeometry param _ _ => [param]

def FacetWriter.params : FacetWriter → List Value
  | wrap param => [param]
  | panelGrid param _ => [param]

def Arranger.params : Arranger → List Value
  | groupedBars param scale _ => [param, scale]

def Realization.params : Realization → List Value
  | written w => w.params
  | arranged arranger => arranger.params

def RoleRow.params (row : RoleRow) : List Value :=
  row.column?.elim [] ColumnWriter.params ++ row.literal?.elim [] StyleWriter.params

/-- At most one parameter is written, and it has one of some names. -/
def Entries.AtMostOne (es : Entries) (names : List Value) : Prop :=
  es = [] ∨ ∃ name ∈ names, ∃ value, es = [(name, value)]

theorem Entries.atMostOne_singleton {name value : Value} {names : List Value} (h : name ∈ names) :
    AtMostOne [(name, value)] names :=
  .inr ⟨name, h, value, rfl⟩

theorem StyleWriter.atMostOne_run {w : StyleWriter} {v : Value} {params : Entries} (h : w.run v = .ok params) :
    params.AtMostOne w.params := by
  cases w with
  | scalar param | legendPosition param =>
      cases h
      exact Entries.atMostOne_singleton List.mem_cons_self
  | pair param | template param =>
      obtain ⟨u, -, h⟩ := bind_eq_ok_iff.mp h
      cases h
      exact Entries.atMostOne_singleton List.mem_cons_self
  | nested param field =>
      rw [run] at h
      split at h
      · cases h
        exact Entries.atMostOne_singleton List.mem_cons_self
      · cases h
  | mapped param words =>
      obtain ⟨word?, -, h⟩ := bind_eq_ok_iff.mp h
      split at h
      · cases h
        exact Entries.atMostOne_singleton List.mem_cons_self
      · cases h
        exact .inl rfl
  | nothing =>
      cases h
      exact .inl rfl

theorem ColumnWriter.atMostOne_run {w : ColumnWriter} {name : Value} {c : Chart} {params : Entries}
    (h : w.run name c = .ok params) : params.AtMostOne w.params := by
  cases w with
  | column param | vector param | palette param | factorCodes param =>
      cases h
      exact Entries.atMostOne_singleton List.mem_cons_self
  | countedOrLabels param labels roles =>
      rw [run] at h
      split at h
      · cases h
        exact Entries.atMostOne_singleton (List.mem_cons_of_mem _ List.mem_cons_self)
      · obtain ⟨group, -, h⟩ := bind_eq_ok_iff.mp h
        cases h
        exact Entries.atMostOne_singleton List.mem_cons_self
  | groupedVector param roles | overlay param call colour =>
      obtain ⟨found, -, h⟩ := bind_eq_ok_iff.mp h
      cases h
      exact Entries.atMostOne_singleton List.mem_cons_self
  | formula param other =>
      obtain ⟨role, -, h⟩ := bind_eq_ok_iff.mp h
      split at h
      · cases h
        exact Entries.atMostOne_singleton List.mem_cons_self
      · cases h
        exact Entries.atMostOne_singleton List.mem_cons_self
  | consumed into =>
      cases h
      exact .inl rfl

theorem SelectorWriter.map_fst_run (w : SelectorWriter) (c : Chart) : (w.run c).map Prod.fst = w.params := by
  cases w <;> rfl

theorem FacetWriter.atMostOne_run (w : FacetWriter) (name : Value) : (w.run name).AtMostOne w.params := by
  cases w with
  | wrap param | panelGrid param => exact Entries.atMostOne_singleton List.mem_cons_self

/-- The parameters of an arrangement are some of those that the arranger may write to, each at most once. -/
theorem Arranger.sublist_run {a : Arranger} {v : Value} {c : Chart} {arrangement : Arrangement}
    (h : a.run v c = .ok arrangement) : (arrangement.fragments.map Prod.fst).Sublist a.params := by
  cases a with
  | groupedBars param scale roles =>
      obtain ⟨group, -, h⟩ := bind_eq_ok_iff.mp h
      split at h
      · obtain ⟨beside, hfragments⟩ | hfragments := fragments_layout h
        · rw [hfragments]
          exact List.sublist_append_left [param] [scale]
        · rw [hfragments]
          exact List.Sublist.refl _
      · obtain ⟨shown, -, h⟩ := bind_eq_ok_iff.mp h
        cases h
        exact List.nil_sublist _

/-! ### What writers take -/

/-- Whether a writer takes the normal forms of a shape. -/
def StyleWriter.takes (shape : Shape) : StyleWriter → Bool
  | pair _ => shape == .range
  | nested _ field => field.isKey
  | template _ pattern => Template.takesAny pattern "value"
  | _ => true

/-- Whether a writer takes every column on every chart. -/
def ColumnWriter.takesAny : ColumnWriter → Bool
  | countedOrLabels _ _ roles => roles.namesRoles
  | groupedVector _ roles => roles.namesRoles
  | formula _ other => (Vocabulary.ofValue? other : Option Role).isSome
  | overlay _ _ colour => colour.isKey
  | _ => true

/-- Whether an arranger takes every value on every chart. -/
def Arranger.takesAny : Arranger → Bool
  | groupedBars _ _ roles => roles.namesRoles

/-- Whether the realization of a style key takes the normal forms of a shape. -/
def Realization.takes (shape : Shape) : Realization → Bool
  | written w => w.takes shape
  | arranged arranger => arranger.takesAny

theorem Shape.isKey_of_normalize? {shape : Shape} {v u : Value} (h : shape.normalize? v = some u) :
    u.isKey = true := by
  have hnumber : ∀ {w : Value} {n : Number}, finite? w = some n → w.isKey = true := by
    intro w n hw
    have hnumber := (finite?_eq_some_iff.mp hw).1
    cases w <;> first | rfl | cases hnumber
  cases normalize?_eq_some_iff.mp h with
  | text | colour | zero | one | between | positiveWhole | flag | word => rfl
  | positive hfinite => exact hnumber hfinite
  | rangeOfList hl hu | rangeOfTuple hl hu =>
      simp only [Value.isKey, Value.areKeys, hnumber hl, hnumber hu, Bool.and_self]

theorem StyleWriter.yields_run {w : StyleWriter} {shape : Shape} {v : Value} (h : w.takes shape = true)
    (hv : shape.normalize? v = some v) : v.Yields (w.run v) := by
  cases w with
  | scalar | legendPosition | nothing => exact v.yields_ok _
  | pair param =>
      rw [takes, beq_iff_eq] at h
      subst h
      cases Shape.normalize?_eq_some_iff.mp hv with
      | rangeOfTuple => exact .inl ⟨_, rfl⟩
  | nested param field =>
      rw [takes] at h
      rw [run, if_pos h]
      exact v.yields_ok _
  | mapped param words =>
      rw [run, Entries.lookup, if_pos (Shape.isKey_of_normalize? hv)]
      cases words.get? v with
      | none => exact v.yields_ok []
      | some word => exact v.yields_ok [(param, word)]
  | template param pattern => exact (Template.yields_apply Template.names_value h v).bind fun _ => v.yields_ok _

theorem ColumnWriter.run_of_takesAny {w : ColumnWriter} (h : w.takesAny = true) (name : String) (c : Chart) :
    ∃ params, w.run (.text name) c = .ok params := by
  cases w with
  | column | vector | palette | factorCodes | consumed => exact ⟨_, rfl⟩
  | countedOrLabels param labels roles =>
      rw [run]
      split
      · exact ⟨_, rfl⟩
      · obtain ⟨group, hgroup⟩ := c.grouping_of_namesRoles (some name) h
        show ∃ params, (c.grouping roles (some name) >>= _) = .ok params
        rw [hgroup]
        exact ⟨_, rfl⟩
  | groupedVector param roles =>
      obtain ⟨group, hgroup⟩ := c.grouping_of_namesRoles (c.columnFor .x) h
      rw [run, hgroup]
      exact ⟨_, rfl⟩
  | formula param other =>
      obtain ⟨role, hrole⟩ := Option.isSome_iff_exists.mp h
      rw [run, Chart.anyRole, hrole]
      dsimp only [Bind.bind, Except.bind]
      split
      · exact ⟨_, rfl⟩
      · exact ⟨_, rfl⟩
  | overlay param call colour =>
      rw [takesAny] at h
      obtain ⟨added, hadded⟩ : ∃ added, layer call colour (.text name) = .ok added := by
        unfold layer
        dsimp only
        split
        · exact ⟨_, rfl⟩
        · rw [if_pos h]
          exact ⟨_, rfl⟩
      rw [run, hadded]
      exact ⟨_, rfl⟩

/-- An arranger that takes every value shows the value itself, or the name of its parameter. -/
theorem Arranger.yields_run {a : Arranger} (h : a.takesAny = true) (v : Value) (c : Chart) :
    (Value.tuple (v :: a.params)).Yields (a.run v c) := by
  cases a with
  | groupedBars param scale roles =>
      obtain ⟨group, hgroup⟩ := c.grouping_of_namesRoles (c.columnFor .x) h
      rw [run, hgroup]
      cases group with
      | none => exact (v.yields_write.bind fun _ => v.yields_ok _).tuple List.mem_cons_self
      | some name =>
          have hname : (Value.tuple [v, param, scale]).Yields param.present :=
            param.yields_present.tuple (List.mem_cons_of_mem v List.mem_cons_self)
          show (Value.tuple [v, param, scale]).Yields (layout param scale v name)
          unfold layout
          split
          · exact hname.bind fun _ => .inl ⟨_, rfl⟩
          split
          · exact hname.bind fun _ => .inl ⟨_, rfl⟩
          · exact .inl ⟨_, rfl⟩

end ChartGrammar
