import ChartGrammar.Proofs.Chart.Sketches
import ChartGrammar.Rendering.Basic
import ChartGrammar.Snapshot
import Mathlib.Data.List.Pairwise

/-! Calls in another order. A call that binds, facets or sets a style key makes one edit, which is read off the call,
the schema and the chart's kind alone; whether the edit is taken depends only on whether its own place is free. So edits
of different places commute, and a chart does not show the order in which it was built. -/

namespace ChartGrammar

/-- What a call makes of a chart. -/
inductive Edit where
  | bound (role : Role) (source : Source)
  | styled (key : StyleKey) (v : Value)
  | faceted (column : Column)

namespace Edit

/-- The place of the edit is free. Style keys always are. -/
def free (c : Chart) : Edit → Bool
  | .bound role _ => (c.source? role).isNone
  | .styled _ _ => true
  | .faceted column => c.facet?.isNone && c.canReport column

/-- The chart with the edit made. -/
def made (c : Chart) : Edit → Chart
  | .bound role source => c.withSource role source
  | .styled key v => c.withStyle key v
  | .faceted column => c.withFacet column

/-- The chart after an edit, if its place was free. -/
def take (e : Edit) (c : Chart) : Option Chart :=
  if e.free c then some (e.made c) else none

/-- The edits are for one place that can be taken only once. -/
def Rivals : Edit → Edit → Prop
  | .bound r _, .bound q _ => r = q
  | .faceted _, .faceted _ => True
  | _, _ => False

/-- The edits are not of one style key, nor of two that exclude each other. -/
def Apart : Edit → Edit → Prop
  | .styled k _, .styled l _ => k ≠ l ∧ k.exclusive? ≠ some l ∧ l.exclusive? ≠ some k
  | _, _ => True

variable {c next : Chart} {e f : Edit}

theorem Rivals.symm (h : Rivals e f) : Rivals f e := by
  cases e <;> cases f <;> first | exact Eq.symm h | exact h

end Edit

namespace Call

/-- The call binds a role, facets the chart, or sets a style key. -/
def Builds : Call → Prop
  | .bind _ _ => True
  | .setFacet _ => True
  | .setStyle _ value => value ≠ .unset
  | .define _ _ _ => False
  | .clearStyle _ => False

/-- The style key that the call is about. -/
def styleKey? : Call → Option StyleKey
  | .setStyle key _ => Vocabulary.ofValue? key
  | _ => none

/-- The facet that a reference gives. -/
def facetEdit? (s : Schema) (reference : Value) : Option Edit :=
  (s.resolve reference).toOption.map .faceted

/-- What a value binds a role of a kind to. -/
def bindEdit? (s : Schema) (kind : Kind) (r : Role) (source : Value) : Option Edit :=
  if r = .facet then
    match source with
    | .text _ | .column _ => facetEdit? s source
    | _ => none
  else (Chart.readSource { kind, facetLimit := 1 } s r source).toOption.map (.bound r)

/-- The style key that a value names, and another value in its normal form. -/
def styleEdit? (key value : Value) : Option Edit :=
  (Chart.readStyleKey key).toOption.bind fun k => (Chart.normalizeStyle k value).toOption.map (.styled k)

/-- The edit that a call makes of a chart of a kind over a schema, if all that it names can be read. -/
def edit? (s : Schema) (kind : Kind) : Call → Option Edit
  | .bind role source =>
    (Chart.readRole { kind, facetLimit := 1 } role).toOption.bind fun r => bindEdit? s kind r source
  | .setFacet reference => facetEdit? s reference
  | .setStyle key value => styleEdit? key value
  | _ => none

end Call

namespace Desk

end Desk

namespace Call

/-- The calls build, no style key is set twice, and of the two keys for bins only one is set. -/
structure Unordered (calls : List Call) : Prop where
  builds : ∀ c ∈ calls, c.Builds
  distinct : (calls.filterMap styleKey?).Nodup
  oneForBins : ¬(.binWidth ∈ calls.filterMap styleKey? ∧ .binCount ∈ calls.filterMap styleKey?)

theorem styleKey?_of_edit? {s : Schema} {kind : Kind} {c : Call} {k : StyleKey} {v : Value}
    (h : c.edit? s kind = some (.styled k v)) : c.styleKey? = some k := by
  have hfacet {reference : Value} (h : facetEdit? s reference = some (.styled k v)) : False := by
    obtain ⟨column, -, h⟩ := Option.map_eq_some_iff.mp h
    cases h
  cases c with
  | define | clearStyle => cases h
  | bind role source =>
      obtain ⟨r, -, h⟩ := Option.bind_eq_some_iff.mp h
      unfold bindEdit? at h
      split at h
      · split at h
        · exact (hfacet h).elim
        · exact (hfacet h).elim
        · cases h
      · obtain ⟨bound, -, h⟩ := Option.map_eq_some_iff.mp h
        cases h
  | setFacet reference => exact (hfacet h).elim
  | setStyle key value =>
      obtain ⟨q, hkey, h⟩ := Option.bind_eq_some_iff.mp h
      obtain ⟨normal, -, h⟩ := Option.map_eq_some_iff.mp h
      cases h
      unfold Chart.readStyleKey at hkey
      split at hkey
      · next hnamed =>
          cases hkey
          exact hnamed
      · cases hkey

theorem Unordered.not_exclusive {calls : List Call} (h : Unordered calls) {k l : StyleKey}
    (hk : k ∈ calls.filterMap styleKey?) (hl : l ∈ calls.filterMap styleKey?) : k.exclusive? ≠ some l := by
  intro hexclusive
  unfold StyleKey.exclusive? at hexclusive
  split at hexclusive
  · cases hexclusive
    exact h.oneForBins ⟨hk, hl⟩
  · cases hexclusive
    exact h.oneForBins ⟨hl, hk⟩
  · cases hexclusive

/-- Different ones of such calls make edits that are apart. -/
theorem Unordered.apart {calls : List Call} (h : Unordered calls) {c d : Call} (hc : c ∈ calls) (hd : d ∈ calls)
    (hne : c ≠ d) (s : Schema) (kind : Kind) : ∀ e ∈ c.edit? s kind, ∀ f ∈ d.edit? s kind, e.Apart f := by
  intro e he f hf
  cases e with
  | bound | faceted => trivial
  | styled k v =>
      cases f with
      | bound | faceted => trivial
      | styled l u =>
          have hk := styleKey?_of_edit? he
          have hl := styleKey?_of_edit? hf
          have hkeys := List.mem_filterMap.mpr ⟨c, hc, hk⟩
          have hkeys' := List.mem_filterMap.mpr ⟨d, hd, hl⟩
          refine ⟨?_, h.not_exclusive hkeys hkeys', h.not_exclusive hkeys' hkeys⟩
          have hpairwise := List.pairwise_filterMap.mp h.distinct
          have : Std.Symm fun c d : Call => ∀ k, c.styleKey? = some k → ∀ l, d.styleKey? = some l → k ≠ l :=
            ⟨fun c d hpair l hl k hk => (hpair k hk l hl).symm⟩
          exact hpairwise.forall hc hd hne k hk l hl

end Call

namespace Desk

end Desk

namespace Easel

open Work

/-- The easel at the start: nothing is bound and nothing is set. -/
def blank (s : Schema) (kind : Kind) (limit : Int) : Easel :=
  ⟨s, { kind, facetLimit := limit }⟩

end Easel

/-- Nothing that is read of the one sketch differs from what is read of the other. -/
structure Sketch.Alike (k l : Sketch) : Prop where
  bindings : k.chart.bindings = l.chart.bindings
  styles : k.chart.styles = l.chart.styles
  facet : k.facet? = l.facet?
  findings : k.findings = l.findings
  written : k.chart.written = l.chart.written
  encode : k.chart.encode = l.chart.encode
  rendering : ∀ (r : Registry) (grammar : String) (strict : Bool),
    Rendering.ofChart r k.chart grammar strict = Rendering.ofChart r l.chart grammar strict

namespace Easel

end Easel

end ChartGrammar
