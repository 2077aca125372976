import ChartGrammar.Chart.Basic

/-! Calls on a schema and on a chart made over it. A call that is refused gives nothing back, so the schema and
the chart stay as they were. What an accepted call can do is said once, by one rule for each sort of change;
whatever those changes keep holds of every schema and chart that calls lead to. -/

namespace ChartGrammar

namespace Schema

/-- The schemas that definitions lead to. -/
inductive Built : Schema → Prop where
  | empty : Built .empty
  | define {s t : Schema} {name type cardinality : Value} {c : Column} :
      Built s → s.define name type cardinality = .ok (t, c) → Built t

/-- No column of a schema that was built has a blank name. -/
theorem Built.visible {s : Schema} (h : s.Built) : ∀ c ∈ s.columns, Text.blank c.name = false := by
  induction h with
  | empty => exact fun c hc => absurd hc List.not_mem_nil
  | define _ hdefine ih =>
      obtain ⟨hcolumns, -, hvisible, -⟩ := define_eq_ok hdefine
      rw [hcolumns]
      intro c hc
      rcases List.mem_append.mp hc with hc | hc
      · exact ih c hc
      · rw [List.mem_singleton.mp hc]
        exact hvisible

/-- A column that is found is found again after others have been added. -/
theorem find?_append {s : Schema} {name : String} {c d : Column} (h : s.find? name = some c) :
    (Schema.mk (s.columns ++ [d])).find? name = some c := by
  unfold find? at h ⊢
  rw [List.find?_append, h]
  rfl

end Schema

namespace Chart

/-! ### When the parts of a call are accepted -/

theorem readRole_eq_ok_iff {c : Chart} {role : Value} {r : Role} :
    c.readRole role = .ok r ↔ role = .text r.name ∧ (c.kind.columnTypes? r).isSome = true := by
  constructor
  · intro h
    unfold readRole at h
    split at h
    · cases h
    · next q hq =>
        split at h
        · next hkind =>
            cases h
            exact ⟨Vocabulary.ofValue?_eq_some_iff.mp hq, hkind⟩
        · cases h
  · rintro ⟨rfl, hkind⟩
    have hrole : Vocabulary.ofValue? (.text r.name) = some r := Vocabulary.ofValue?_eq_some_iff.mpr rfl
    rw [readRole, hrole]
    simp only [hkind, ↓reduceIte]

theorem readStyleKey_eq_ok_iff {key : Value} {k : StyleKey} :
    readStyleKey key = .ok k ↔ key = .text k.name := by
  constructor
  · intro h
    unfold readStyleKey at h
    split at h
    · next q hq =>
        cases h
        exact Vocabulary.ofValue?_eq_some_iff.mp hq
    · cases h
  · rintro rfl
    have hkey : Vocabulary.ofValue? (.text k.name) = some k := Vocabulary.ofValue?_eq_some_iff.mpr rfl
    rw [readStyleKey, hkey]

theorem normalizeStyle_eq_ok_iff {k : StyleKey} {v u : Value} :
    normalizeStyle k v = .ok u ↔ k.shape.normalize? v = some u := by
  unfold normalizeStyle
  cases k.shape.normalize? v <;> simp

theorem readFacet_eq_ok_iff {c : Chart} {s : Schema} {reference : Value} {column : Column} :
    c.readFacet s reference = .ok column ↔
      c.facet? = none ∧ s.resolve reference = .ok column ∧ c.canReport column = true := by
  unfold readFacet
  cases c.facet? with
  | some name => simp
  | none =>
      simp only [Option.isSome_none, Bool.false_eq_true, if_false, true_and]
      rw [bind_eq_ok_iff]
      constructor
      · rintro ⟨found, hresolve, h⟩
        split at h
        · next hreport =>
            cases h
            exact ⟨hresolve, hreport⟩
        · cases h
      · rintro ⟨hresolve, hreport⟩
        exact ⟨column, hresolve, if_pos hreport⟩

theorem exists_readFacet {c next : Chart} {s : Schema} {reference : Value} (h : c.setFacet s reference = .ok next) :
    ∃ column, c.readFacet s reference = .ok column ∧ c.withFacet column = next := by
  unfold setFacet at h
  cases hread : c.readFacet s reference with
  | error fault =>
      rw [hread] at h
      cases h
  | ok column =>
      rw [hread] at h
      cases h
      exact ⟨column, rfl, rfl⟩

theorem readLiteral_eq_ok_iff {role : Role} {value : Value} {source : Source} :
    readLiteral role value = .ok source ↔ ∃ shape u, role.literalShape? = some shape ∧
      shape.normalize? value = some u ∧ source = .literal u := by
  unfold readLiteral
  cases role.literalShape? with
  | none => simp
  | some shape => cases hnormal : shape.normalize? value <;> simp [hnormal, eq_comm]

theorem readColumn_eq_ok_iff {c : Chart} {s : Schema} {role : Role} {reference : Value} {source : Source} :
    c.readColumn s role reference = .ok source ↔ ∃ column, s.resolve reference = .ok column ∧
      column.type ∈ (c.kind.columnTypes? role).getD [] ∧ source = .column column.name := by
  unfold readColumn
  rw [bind_eq_ok_iff]
  refine exists_congr fun column => and_congr_right fun _ => ?_
  dsimp only
  split
  · next htype =>
      rw [List.contains_iff_mem] at htype
      simp [htype, pure, Except.pure, eq_comm]
  · next htype =>
      rw [List.contains_iff_mem] at htype
      simp [htype, throw, throwThe, MonadExceptOf.throw]

end Chart

/-- A call on a schema, or on a chart made over it. -/
inductive Call where
  | define (name type cardinality : Value)
  | bind (role source : Value)
  | setFacet (reference : Value)
  | setStyle (key value : Value)
  | clearStyle (key : Value)

/-- A schema, and a chart that is being made over it. -/
structure Desk where
  schema : Schema
  chart : Chart

namespace Desk

/-- What an accepted call makes of the desk. -/
def call (k : Desk) : Call → Except Fault Desk
  | .define name type cardinality => do
    let (grown, _) ← k.schema.define name type cardinality
    return { k with schema := grown }
  | .bind role source => do
    let (chart, _) ← k.chart.bind k.schema role source
    return { k with chart }
  | .setFacet reference => do return { k with chart := ← k.chart.setFacet k.schema reference }
  | .setStyle key value => do return { k with chart := ← k.chart.setStyle key value }
  | .clearStyle key => do return { k with chart := ← k.chart.clearStyle key }

/-- The desk after a call, accepted or refused. -/
def after (k : Desk) (c : Call) : Desk :=
  match k.call c with
  | .ok next => next
  | .error _ => k

/-- The desk after some calls. -/
def run (k : Desk) (calls : List Call) : Desk :=
  calls.foldl after k

/-- The desks that calls lead to, from a schema that was built and a chart that was created over it. -/
inductive Reachable : Desk → Prop where
  | create {s : Schema} {env : Environment} {kind limit : Value} {c : Chart} :
      s.Built → Chart.create env kind limit = .ok c → Reachable ⟨s, c⟩
  | after {k : Desk} (c : Call) : Reachable k → Reachable (k.after c)

theorem Reachable.run {k : Desk} (h : k.Reachable) (calls : List Call) : (k.run calls).Reachable := by
  induction calls generalizing k with
  | nil => exact h
  | cons c calls ih => exact ih (h.after c)

/-- Calls on a new chart over no columns, with nothing set in the environment. -/
theorem reachable_new (kind : Kind) (calls : List Call) :
    ((Desk.mk .empty { kind, facetLimit := 12 }).run calls).Reachable := by
  have hcreate : Chart.create {} (.text kind.name) .null = .ok { kind, facetLimit := 12 } := by cases kind <;> rfl
  exact (Reachable.create .empty hcreate).run calls

/-- `Change k next`: an accepted call can turn `k` into `next`. -/
inductive Change (k : Desk) : Desk → Prop where
  /-- A column is added under a new name. -/
  | define {c : Column} (hname : Text.blank c.name = false) (hfree : k.schema.find? c.name = none) :
      Change k { k with schema := ⟨k.schema.columns ++ [c]⟩ }
  /-- A free role is bound to a column of a type that suits it. -/
  | column {r : Role} {c : Column} {types : List ColumnType} (hrole : k.chart.kind.columnTypes? r = some types)
      (hfacet : r ≠ .facet) (hfree : k.chart.source? r = none) (hfound : k.schema.find? c.name = some c)
      (htype : c.type ∈ types) : Change k { k with chart := k.chart.withSource r (.column c.name) }
  /-- A free role is bound to the normal form of a literal. -/
  | literal {r : Role} {types : List ColumnType} {shape : Shape} {v u : Value}
      (hrole : k.chart.kind.columnTypes? r = some types) (hfacet : r ≠ .facet)
      (hfree : k.chart.source? r = none) (hshape : r.literalShape? = some shape)
      (hnormal : shape.normalize? v = some u) : Change k { k with chart := k.chart.withSource r (.literal u) }
  /-- A chart without a facet gets one, of which whatever is to be said can be. -/
  | facet {c : Column} (hfree : k.chart.facet? = none) (hfound : k.schema.find? c.name = some c)
      (hreport : k.chart.canReport c = true) : Change k { k with chart := k.chart.withFacet c }
  /-- A style key is set to the normal form of a value. -/
  | style {key : StyleKey} {v u : Value} (hnormal : key.shape.normalize? v = some u) :
      Change k { k with chart := k.chart.withStyle key u }
  /-- A style key is cleared. -/
  | clear (key : StyleKey) : Change k { k with chart := k.chart.withoutStyle key }

theorem change_of_setStyle {k : Desk} {key value : Value} {c : Chart}
    (h : k.chart.setStyle key value = .ok c) : Change k { k with chart := c } := by
  unfold Chart.setStyle at h
  obtain ⟨q, -, h⟩ := bind_eq_ok_iff.mp h
  split at h
  · cases h
    exact .clear q
  · obtain ⟨u, hnormal, h⟩ := bind_eq_ok_iff.mp h
    cases h
    exact .style (Chart.normalizeStyle_eq_ok_iff.mp hnormal)

theorem change_of_readFacet {k : Desk} {reference : Value} {c : Column}
    (h : k.chart.readFacet k.schema reference = .ok c) :
    Change k { k with chart := k.chart.withFacet c } := by
  obtain ⟨hfree, hresolve, hreport⟩ := Chart.readFacet_eq_ok_iff.mp h
  exact .facet hfree (Schema.resolve_eq_ok_iff.mp hresolve).2 hreport

theorem change_of_bindFacet {k : Desk} {source : Value} {c : Chart} {b : Binding}
    (h : k.chart.bindFacet k.schema source = .ok (c, b)) : Change k { k with chart := c } := by
  unfold Chart.bindFacet at h
  split at h
  · obtain ⟨column, hread, h⟩ := bind_eq_ok_iff.mp h
    cases h
    exact change_of_readFacet hread
  · obtain ⟨column, hread, h⟩ := bind_eq_ok_iff.mp h
    cases h
    exact change_of_readFacet hread
  · cases h

theorem change_of_bindFree {k : Desk} {r : Role} {source : Value} {c : Chart} {b : Binding}
    (hkind : (k.chart.kind.columnTypes? r).isSome = true) (hfacet : r ≠ .facet)
    (h : k.chart.bindFree k.schema r source = .ok (c, b)) : Change k { k with chart := c } := by
  obtain ⟨types, hrole⟩ := Option.isSome_iff_exists.mp hkind
  unfold Chart.bindFree at h
  split at h
  · cases h
  · next hfree =>
      rw [Bool.not_eq_true, Option.isSome_eq_false_iff, Option.isNone_iff_eq_none] at hfree
      obtain ⟨bound, hread, h⟩ := bind_eq_ok_iff.mp h
      cases h
      unfold Chart.readSource at hread
      split at hread
      · obtain ⟨shape, u, hshape, hnormal, rfl⟩ := Chart.readLiteral_eq_ok_iff.mp hread
        exact .literal hrole hfacet hfree hshape hnormal
      · obtain ⟨column, hresolve, htype, rfl⟩ := Chart.readColumn_eq_ok_iff.mp hread
        rw [hrole] at htype
        exact .column hrole hfacet hfree (Schema.resolve_eq_ok_iff.mp hresolve).2 htype

/-- An accepted call makes one of the changes. -/
theorem change_of_call {k next : Desk} {c : Call} (h : k.call c = .ok next) : Change k next := by
  cases c with
  | define name type cardinality =>
      obtain ⟨⟨grown, column⟩, hdefine, h⟩ := bind_eq_ok_iff.mp h
      cases h
      obtain ⟨hcolumns, -, hname, hfree⟩ := Schema.define_eq_ok hdefine
      obtain rfl : grown = ⟨k.schema.columns ++ [column]⟩ := by rw [← hcolumns]
      exact .define hname hfree
  | bind role source =>
      obtain ⟨⟨chart, binding⟩, hbind, h⟩ := bind_eq_ok_iff.mp h
      cases h
      obtain ⟨r, hrole, hbind⟩ := bind_eq_ok_iff.mp hbind
      obtain ⟨-, hkind⟩ := Chart.readRole_eq_ok_iff.mp hrole
      split at hbind
      · exact change_of_bindFacet hbind
      · next hfacet => exact change_of_bindFree hkind hfacet hbind
  | setFacet reference =>
      obtain ⟨chart, hset, h⟩ := bind_eq_ok_iff.mp h
      cases h
      obtain ⟨column, hread, rfl⟩ := Chart.exists_readFacet hset
      exact change_of_readFacet hread
  | setStyle key value =>
      obtain ⟨chart, hset, h⟩ := bind_eq_ok_iff.mp h
      cases h
      exact change_of_setStyle hset
  | clearStyle key =>
      obtain ⟨chart, hset, h⟩ := bind_eq_ok_iff.mp h
      cases h
      exact change_of_setStyle hset

/-- What accepted calls keep, every call keeps, since a refused one changes nothing. -/
theorem keeps_after (keeps : Desk → Prop) (hchange : ∀ k next, keeps k → Change k next → keeps next) {k : Desk}
    (h : keeps k) (c : Call) : keeps (k.after c) := by
  unfold after
  split
  · next next hcall => exact hchange k next h (change_of_call hcall)
  · exact h

/-- What accepted calls keep holds at the end of a run if it holds at its start. -/
theorem keeps_run (keeps : Desk → Prop) (hchange : ∀ k next, keeps k → Change k next → keeps next) {k : Desk}
    (h : keeps k) (calls : List Call) : keeps (k.run calls) := by
  induction calls generalizing k with
  | nil => exact h
  | cons c calls ih => exact ih (keeps_after keeps hchange h c)

end Desk

end ChartGrammar
