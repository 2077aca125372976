import ChartGrammar.Proofs.Chart.Calls
import ChartGrammar.Proofs.Chart.Limit
import ChartGrammar.Proofs.Style.NormalForm

/-! Charts stay sound. Whatever calls are made on a chart and on the schema under it, in whatever order, and
however many of them are refused: what is bound suits its role and still resolves, literals and style values
are in normal form, and of two style keys that exclude each other at most one is set. -/

namespace ChartGrammar

namespace Chart

/-- What may stand in a role of a kind: a column of the schema, of a type that the kind takes there, or a
literal in the normal form of the role. -/
inductive Fits (s : Schema) (kind : Kind) (r : Role) : Source → Prop where
  | column {name : String} {column : Column} {types : List ColumnType}
      (hresolve : s.resolve (.column (.text name)) = .ok column) (htypes : kind.columnTypes? r = some types)
      (htype : column.type ∈ types) : Fits s kind r (.column name)
  | literal {v : Value} (hrole : r ∈ [Role.fill, .outline, .size, .shape])
      (hnormal : readLiteral r v = .ok (.literal v)) : Fits s kind r (.literal v)

/-- What holds of a chart over a schema after any calls. -/
structure Sound (s : Schema) (c : Chart) : Prop where
  /-- Bound roles are the kind's, the facet is not among them, and each is bound to something that fits. -/
  source : ∀ r source, c.source? r = some source → r ∈ c.kind.roles ∧ r ≠ .facet ∧ Fits s c.kind r source
  /-- The facet resolves, and the kind has that role. -/
  facet : ∀ name, c.facet? = some name → (∃ column, s.resolve (.text name) = .ok column) ∧ .facet ∈ c.kind.roles
  /-- Style values stay as they are when they are brought into normal form once more. -/
  style : ∀ k v, c.style? k = some v → normalizeStyle k v = .ok v
  /-- Widths and numbers of bins are not asked for together. -/
  exclusive : c.style? .binWidth = none ∨ c.style? .binCount = none

variable {s : Schema} {c : Chart}

theorem mem_roles_iff {kind : Kind} {r : Role} : r ∈ kind.roles ↔ (kind.columnTypes? r).isSome = true := by
  simp [Kind.roles, Vocabulary.mem_all]

theorem facet_mem_roles (kind : Kind) : Role.facet ∈ kind.roles := by
  cases kind <;> decide

/-- Only four roles take literals. -/
theorem mem_of_literalShape? {r : Role} {shape : Shape} (h : r.literalShape? = some shape) :
    r ∈ [Role.fill, .outline, .size, .shape] := by
  cases r with
  | fill | outline | size | shape => decide
  | _ => cases h

/-- A reference that gives a name resolves to the column that is found under it. -/
theorem resolve_iff {reference : Value} {name : String} {column : Column}
    (h : Schema.referredName reference = .text name) :
    s.resolve reference = .ok column ↔ column.name = name ∧ s.find? name = some column := by
  rw [Schema.resolve_eq_ok_iff, h, Value.text.injEq, eq_comm]
  refine and_congr_right fun hname => ?_
  rw [hname]

/-- A literal is in the normal form of its role. -/
theorem Sound.literal (h : Sound s c) {r : Role} {v : Value} (hsource : c.source? r = some (.literal v)) :
    ∃ shape, r.literalShape? = some shape ∧ shape.normalize? v = some v := by
  obtain ⟨-, -, hfits⟩ := h.source r _ hsource
  cases hfits with
  | literal _ hnormal =>
      obtain ⟨shape, u, hshape, hu, heq⟩ := readLiteral_eq_ok_iff.mp hnormal
      cases heq
      exact ⟨shape, hshape, hu⟩

/-- What is bound to any other role than those that take literals is a column. -/
theorem Sound.exists_column (h : Sound s c) {r : Role} {source : Source} (hr : r ∉ [Role.fill, .outline, .size, .shape])
    (hsource : c.source? r = some source) : ∃ name, source = .column name := by
  obtain ⟨-, -, hfits⟩ := h.source r source hsource
  cases hfits with
  | @column name => exact ⟨name, rfl⟩
  | literal hrole => exact absurd hrole hr

theorem Sound.source_none (h : Sound s c) {r : Role} (hr : r ∉ c.kind.roles) : c.source? r = none := by
  rw [Option.eq_none_iff_forall_ne_some]
  exact fun source hsource => hr (h.source r source hsource).1

/-! ### What fits keeps fitting -/

/-- A further column takes no other's place. -/
theorem Fits.grow {kind : Kind} {r : Role} {source : Source} (h : Fits s kind r source) (added : Column) :
    Fits ⟨s.columns ++ [added]⟩ kind r source := by
  cases h with
  | column hresolve htypes htype =>
      obtain ⟨hname, hfound⟩ := (resolve_iff rfl).mp hresolve
      exact .column ((resolve_iff rfl).mpr ⟨hname, Schema.find?_append hfound⟩) htypes htype
  | literal hrole hnormal => exact .literal hrole hnormal

theorem Sound.grow (h : Sound s c) (added : Column) : Sound ⟨s.columns ++ [added]⟩ c where
  source r source hbound := by
    obtain ⟨hrole, hfacet, hfits⟩ := h.source r source hbound
    exact ⟨hrole, hfacet, hfits.grow added⟩
  facet name hset := by
    obtain ⟨⟨column, hresolve⟩, hrole⟩ := h.facet name hset
    obtain ⟨hname, hfound⟩ := (resolve_iff rfl).mp hresolve
    exact ⟨⟨column, (resolve_iff rfl).mpr ⟨hname, Schema.find?_append hfound⟩⟩, hrole⟩
  style := h.style
  exclusive := h.exclusive

theorem Sound.withSource (h : Sound s c) {r : Role} {source : Source} (hrole : r ∈ c.kind.roles)
    (hfacet : r ≠ .facet) (hfits : Fits s c.kind r source) : Sound s (c.withSource r source) where
  source q other hbound := by
    rw [source?_withSource] at hbound
    by_cases hq : q = r
    · rw [if_pos hq, Option.some.injEq] at hbound
      rw [hq, ← hbound]
      exact ⟨hrole, hfacet, hfits⟩
    · rw [if_neg hq] at hbound
      exact h.source q other hbound
  facet := h.facet
  style := h.style
  exclusive := h.exclusive

theorem Sound.withFacet (h : Sound s c) {column : Column} (hfound : s.find? column.name = some column) :
    Sound s (c.withFacet column) where
  source := h.source
  facet name hset := by
    obtain rfl : column.name = name := by simpa [Chart.withFacet] using hset
    exact ⟨⟨column, (resolve_iff rfl).mpr ⟨rfl, hfound⟩⟩, facet_mem_roles c.kind⟩
  style := h.style
  exclusive := h.exclusive

theorem Sound.withoutStyle (h : Sound s c) (key : StyleKey) : Sound s (c.withoutStyle key) where
  source := h.source
  facet := h.facet
  style k v hset := by
    rw [style?_withoutStyle] at hset
    split at hset
    · cases hset
    · exact h.style k v hset
  exclusive := by
    rw [style?_withoutStyle, style?_withoutStyle]
    rcases h.exclusive with hwidth | hcount
    · exact .inl (by rw [hwidth, ite_self])
    · exact .inr (by rw [hcount, ite_self])

theorem Sound.withStyle (h : Sound s c) {key : StyleKey} {v : Value} (hnormal : normalizeStyle key v = .ok v) :
    Sound s (c.withStyle key v) where
  source := h.source
  facet := h.facet
  style k u hset := by
    rw [style?_withStyle] at hset
    split at hset
    · next hk =>
        cases hset
        rwa [hk]
    split at hset
    · cases hset
    · exact h.style k u hset
  exclusive := by
    rw [style?_withStyle, style?_withStyle]
    -- Setting one of the two clears the other, and any other key leaves both alone.
    by_cases hwidth : key = .binWidth
    · exact .inr (by rw [hwidth]; rfl)
    by_cases hcount : key = .binCount
    · exact .inl (by rw [hcount]; rfl)
    have hneither : key.exclusive? = none := by cases key <;> first | rfl | contradiction
    rw [if_neg (Ne.symm hwidth), if_neg (Ne.symm hcount), hneither]
    exact h.exclusive

/-- A new chart is sound over any schema, since nothing is bound and nothing set. -/
theorem sound_of_create {env : Environment} {kind limit : Value} (h : create env kind limit = .ok c) :
    Sound s c := by
  unfold create at h
  split at h
  · cases h
  · obtain ⟨facetLimit, -, h⟩ := bind_eq_ok_iff.mp h
    cases h
    exact {
      source := fun _ _ hbound => nomatch hbound
      facet := fun _ hset => nomatch hset
      style := fun _ _ hset => nomatch hset
      exclusive := .inl rfl }

end Chart

namespace Desk

open Chart

theorem sound_of_change {k next : Desk} (h : Sound k.schema k.chart) (hchange : Change k next) :
    Sound next.schema next.chart := by
  cases hchange with
  | define => exact h.grow _
  | column hrole hfacet _ hfound htype =>
      refine h.withSource (mem_roles_iff.mpr (by rw [hrole]; rfl)) hfacet ?_
      exact .column ((resolve_iff rfl).mpr ⟨rfl, hfound⟩) hrole htype
  | literal hrole hfacet _ hshape hnormal =>
      refine h.withSource (mem_roles_iff.mpr (by rw [hrole]; rfl)) hfacet ?_
      refine .literal (mem_of_literalShape? hshape) (readLiteral_eq_ok_iff.mpr ?_)
      exact ⟨_, _, hshape, Shape.normalize?_normalize? hnormal, rfl⟩
  | facet _ hfound => exact h.withFacet hfound
  | style hnormal => exact h.withStyle (normalizeStyle_eq_ok_iff.mpr (Shape.normalize?_normalize? hnormal))
  | clear key => exact h.withoutStyle key

theorem Reachable.sound {k : Desk} (h : k.Reachable) : Sound k.schema k.chart := by
  induction h with
  | create _ hcreate => exact sound_of_create hcreate
  | after c _ ih => exact keeps_after (fun k => Sound k.schema k.chart) (fun _ _ => sound_of_change) ih c

/-- A chart that was created over a schema is sound over it after any calls on either, accepted or refused. -/
theorem sound_after_calls (s : Schema) {env : Environment} {kind limit : Value} {c : Chart}
    (hcreate : Chart.create env kind limit = .ok c) (calls : List Call) :
    Sound ((Desk.mk s c).run calls).schema ((Desk.mk s c).run calls).chart :=
  keeps_run (fun k => Sound k.schema k.chart) (fun _ _ => sound_of_change) (sound_of_create hcreate) calls

/-- A histogram with two calls refused: the role is bound already when the column is offered, and the width of
bins gives way to their number. -/
theorem sound_histogram_after_calls :
    let calls := [
      Call.define (.text "sex") (.text "categorical") .null,
      .bind (.text "fill") (.literal (.text " red ")),
      .bind (.text "fill") (.text "sex"),
      .setFacet (.text "sex"),
      .setStyle (.text "binWidth") (.int 2),
      .setStyle (.text "binCount") (.int 10),
      .setStyle (.text "opacity") (.int 2)]
    let k := (Desk.mk .empty { kind := .histogram, facetLimit := 12 }).run calls
    Chart.create {} (.text "histogram") .null = .ok { kind := .histogram, facetLimit := 12 } ∧
      Sound k.schema k.chart ∧ k.chart.source? .fill = some (.literal (.text "red")) ∧
      k.chart.style? .binWidth = none ∧ k.chart.style? .binCount = some (.int 10) ∧
      k.chart.facet? = some "sex" := by
  intro calls k
  have hcreate : Chart.create {} (.text "histogram") .null = .ok { kind := .histogram, facetLimit := 12 } := rfl
  exact ⟨hcreate, sound_after_calls .empty hcreate calls, rfl, rfl, rfl, rfl⟩

/-! ### Limits, names and findings -/

/-- What else holds of a chart and its schema after any calls. -/
structure Settled (k : Desk) : Prop where
  limit : 1 ≤ k.chart.facetLimit
  /-- No column has a blank name. -/
  visible : ∀ c ∈ k.schema.columns, Text.blank c.name = false
  /-- The only finding is the one about the facet's column. -/
  findings : k.chart.diagnostics = ((k.chart.facet?.bind k.schema.find?).bind k.chart.facetFinding?).toList
  /-- That finding could be written. -/
  reported : ∀ column, k.chart.facet?.bind k.schema.find? = some column → k.chart.canReport column = true

theorem one_le_of_readFacetLimit {env : Environment} {limit : Value} {n : Int}
    (h : readFacetLimit env limit = .ok n) : 1 ≤ n := by
  cases Settings.limitCase env limit with
  | fixed m hfixes _ _ hread =>
      rw [hread] at h
      cases h
      exact hfixes.one_le
  | refused _ _ _ _ hread | illegible _ _ hread | homeless _ _ _ hread =>
      rw [hread] at h
      cases h

theorem settled_of_create {s : Schema} {env : Environment} {kind limit : Value} {c : Chart} (hs : s.Built)
    (h : Chart.create env kind limit = .ok c) : Settled ⟨s, c⟩ := by
  unfold Chart.create at h
  split at h
  · cases h
  · obtain ⟨n, hlimit, h⟩ := bind_eq_ok_iff.mp h
    cases h
    exact ⟨one_le_of_readFacetLimit hlimit, hs.visible, rfl, fun _ hcolumn => by cases hcolumn⟩

theorem settled_of_change {k next : Desk} (hsound : Sound k.schema k.chart) (h : Settled k)
    (hchange : Change k next) : Settled next := by
  cases hchange with
  | @define c hname =>
      -- The facet's column is found as before among more columns.
      have hfacet : k.chart.facet?.bind (Schema.find? ⟨k.schema.columns ++ [c]⟩) =
          k.chart.facet?.bind k.schema.find? := by
        cases hset : k.chart.facet? with
        | none => rfl
        | some name =>
            obtain ⟨⟨column, hresolve⟩, -⟩ := hsound.facet name hset
            have hfound := ((resolve_iff rfl).mp hresolve).2
            simp only [Option.bind_some, hfound, Schema.find?_append hfound]
      refine ⟨h.limit, fun c hc => ?_, ?_, ?_⟩
      · rcases List.mem_append.mp hc with hc | hc
        · exact h.visible c hc
        · rw [List.mem_singleton.mp hc]
          exact hname
      · rw [h.findings, hfacet]
      · rw [hfacet]
        exact h.reported
  | @facet c hfree hfound hreport =>
      have hfacet : (some c.name).bind k.schema.find? = some c := hfound
      refine ⟨h.limit, h.visible, ?_, fun column hcolumn => ?_⟩
      · have hnone := h.findings
        rw [hfree] at hnone
        simp only [Chart.withFacet, hnone, Option.bind_none, Option.toList_none, List.nil_append, hfacet]
        rfl
      · obtain rfl : c = column := Option.some.inj (hfacet.symm.trans hcolumn)
        exact hreport
  | column | literal | style | clear => exact ⟨h.limit, h.visible, h.findings, h.reported⟩

theorem Reachable.settled {k : Desk} (h : k.Reachable) : Settled k := by
  induction h with
  | create hs hcreate => exact settled_of_create hs hcreate
  | after c hreach ih =>
      -- The findings need the facet to resolve, so soundness is carried along.
      refine (keeps_after (fun k => Sound k.schema k.chart ∧ Settled k) ?_ ⟨hreach.sound, ih⟩ c).2
      exact fun _ _ hkept hchange => ⟨sound_of_change hkept.1 hchange, settled_of_change hkept.1 hkept.2 hchange⟩

theorem facetFinding?_code {c : Chart} {column : Column} {f : Diagnostic} (h : c.facetFinding? column = some f) :
    f.code = .facetCardinality := by
  simp only [facetFinding?, Option.ite_none_right_eq_some, Option.some.injEq] at h
  obtain ⟨-, rfl⟩ := h
  rfl

/-- What is found while a chart is built is about the number of its panels. -/
theorem Reachable.code_eq {k : Desk} (h : k.Reachable) : ∀ f ∈ k.chart.diagnostics, f.code = .facetCardinality := by
  intro f hf
  rw [h.settled.findings, Option.mem_toList] at hf
  obtain ⟨column, -, hfinding⟩ := Option.bind_eq_some_iff.mp hf
  exact facetFinding?_code hfinding

theorem Reachable.no_conflict {k : Desk} (h : k.Reachable) : ∀ f ∈ k.chart.diagnostics, f.code ≠ .conflict := by
  intro f hf
  rw [h.code_eq f hf]
  decide

end Desk

end ChartGrammar
