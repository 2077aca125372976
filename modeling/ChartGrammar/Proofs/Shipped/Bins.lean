import ChartGrammar.Proofs.Chart.History
import ChartGrammar.Proofs.Rendering.Owners
import ChartGrammar.Proofs.Shipped.Refusals

/-! Bins of histograms. Of the two style keys for bins at most one survives what was called, so that the layered grammar
has at most one of two parameters; the imperative grammar has one parameter for both keys, and its form tells which of
them survived. -/

namespace ChartGrammar

open Shipped

namespace Rendering

variable {c : Chart} {rows : KindRows} {k : StyleKey} {param : String} {v : Value}

/-- A name that belongs to a key alone has the key's value, where this is written as it is. -/
theorem puts_scalar_iff (hrow : rows.style? k = some (scalar param)) (howned : rows.OwnedBy param [.style k]) :
    Puts c rows param v ↔ c.style? k = some v := by
  rw [puts_iff howned]
  simp only [List.mem_singleton, exists_eq_left]
  rw [exists_style_write_iff hrow fun u => rfl]
  simp

/-- What the imperative grammar has for the keys for bins: a width in a form of its own, or a number as it is. -/
def breaks? (c : Chart) : Option Value :=
  ((c.style? .binWidth).map fun w => .dict [(.text "width", w)]).or (c.style? .binCount)

theorem puts_breaks_iff (hexclusive : c.style? .binWidth = none ∨ c.style? .binCount = none) :
    Puts c Imperative.histogram "breaks" v ↔ breaks? c = some v := by
  have howned : Imperative.histogram.OwnedBy "breaks" [.style .binWidth, .style .binCount] := by decide +kernel
  have hwidth : (∃ w ∈ writesOf c Imperative.histogram (.style .binWidth), w.name = .text "breaks" ∧ w.value = v) ↔
      ∃ u, c.style? .binWidth = some u ∧
        (.text "breaks", v) ∈ ([(.text "breaks", .dict [(.text "width", u)])] : Entries) :=
    exists_style_write_iff rfl fun u => rfl
  have hcount : (∃ w ∈ writesOf c Imperative.histogram (.style .binCount), w.name = .text "breaks" ∧ w.value = v) ↔
      ∃ u, c.style? .binCount = some u ∧ (.text "breaks", v) ∈ ([(.text "breaks", u)] : Entries) :=
    exists_style_write_iff rfl fun u => rfl
  rw [puts_iff howned]
  simp only [List.mem_cons, List.not_mem_nil, or_false, exists_eq_or_imp, exists_eq_left, hwidth, hcount, breaks?]
  rcases hexclusive with hnone | hnone
  · simp [hnone]
  · cases c.style? .binWidth <;> simp [hnone, eq_comm]

end Rendering

namespace Shipped

open Rendering Call

variable {k : Desk} {strict : Bool} {out : Rendering}

theorem hasAt_bins (hk : k.Reachable) (hkind : k.chart.kind = .histogram)
    (h : ofChart .shipped k.chart "layered" strict = .ok out) :
    out.HasAt "geom.binwidth" (k.chart.style? .binWidth) ∧ out.HasAt "geom.bins" (k.chart.style? .binCount) := by
  have hwidth : Layered.histogram.OwnedBy "geom.binwidth" [.style .binWidth] := by decide +kernel
  have hcount : Layered.histogram.OwnedBy "geom.bins" [.style .binCount] := by decide +kernel
  constructor
  · refine hasAt_of_rows (g := .layered) hk h fun v => ?_
    rw [hkind]
    exact puts_scalar_iff rfl hwidth
  · refine hasAt_of_rows (g := .layered) hk h fun v => ?_
    rw [hkind]
    exact puts_scalar_iff rfl hcount

theorem hasAt_breaks (hk : k.Reachable) (hkind : k.chart.kind = .histogram)
    (h : ofChart .shipped k.chart "imperative" strict = .ok out) : out.HasAt "breaks" (breaks? k.chart) := by
  refine hasAt_of_rows (g := .imperative) hk h fun v => ?_
  rw [hkind]
  exact puts_breaks_iff hk.sound.exclusive

theorem exists_int_of_binCount {s : Schema} {c : Chart} {v : Value} (hc : c.Sound s) (h : c.style? .binCount = some v) :
    ∃ n : Int, v = .int n := by
  have hnormal : Shape.positiveWhole.normalize? v = some v := Chart.normalizeStyle_eq_ok_iff.mp (hc.style .binCount v h)
  cases Shape.normalize?_eq_some_iff.mp hnormal with
  | positiveWhole => exact ⟨_, rfl⟩

/-- The form of the breaks tells which of the two keys is set. -/
theorem breaks?_eq_some_iff {s : Schema} {c : Chart} (hc : c.Sound s) :
    (∀ w, breaks? c = some (.dict [(.text "width", w)]) ↔ c.style? .binWidth = some w) ∧
    (∀ n : Int, breaks? c = some (.int n) ↔ c.style? .binCount = some (.int n)) ∧
    ∀ v, breaks? c = some v → (∃ w, v = .dict [(.text "width", w)]) ∨ ∃ n : Int, v = .int n := by
  unfold breaks?
  cases hwidth : c.style? .binWidth with
  | some w =>
      have hcount : c.style? .binCount = none := hc.exclusive.resolve_left (by rw [hwidth]; exact Option.some_ne_none w)
      simp [hcount]
  | none =>
      cases hcount : c.style? .binCount with
      | none => simp
      | some v =>
          obtain ⟨n, rfl⟩ := exists_int_of_binCount hc hcount
          simp

/-- The style keys of a chart by what was called on it. A call on a style key is accepted exactly if it sets a key or
clears one. Whatever was called since a chart was created, accepted or refused, a style key has the value that survives
the calls, if any does. So a histogram has at most one of the two parameters for bins in the layered grammar; and in the
imperative one its breaks are given by a width exactly if a bin width survives, and by a number exactly if a number of
bins does. -/
theorem bins_by_history {s : Schema} (hs : s.Built) {env : Environment} {kind limit : Value} {sketch : Sketch}
    (hcreate : Sketch.create env kind limit = .ok sketch) (calls : List Call) :
    let chart := (Easel.run ⟨s, sketch⟩ calls).sketch.chart
    (∀ (e : Easel) key v, (∃ next, (Easel.perform (.setStyle key v)).run e = .ok () next) ↔
      ∃ k, (∃ u, Sets k u (.setStyle key v)) ∨ Clears k (.setStyle key v)) ∧
    (∀ k : StyleKey, (∀ u, Survives calls k u → chart.styleValue (.text k.name) = .ok u) ∧
      ((∀ u, ¬Survives calls k u) → chart.styleValue (.text k.name) = .ok .unset)) ∧
    (chart.kind = .histogram → ∀ strict out,
      (ofChart .shipped chart "layered" strict = .ok out →
        (∀ v, (.text "geom.binwidth", v) ∈ out.parameters ↔ Survives calls .binWidth v) ∧
        (∀ v, (.text "geom.bins", v) ∈ out.parameters ↔ Survives calls .binCount v) ∧
        ¬((∃ v, (.text "geom.binwidth", v) ∈ out.parameters) ∧ ∃ v, (.text "geom.bins", v) ∈ out.parameters)) ∧
      (ofChart .shipped chart "imperative" strict = .ok out →
        (∀ w, (.text "breaks", .dict [(.text "width", w)]) ∈ out.parameters ↔ Survives calls .binWidth w) ∧
        (∀ n : Int, (.text "breaks", .int n) ∈ out.parameters ↔ Survives calls .binCount (.int n)) ∧
        ∀ v, (.text "breaks", v) ∈ out.parameters → (∃ w, v = .dict [(.text "width", w)]) ∨ ∃ n : Int, v = .int n)) := by
  intro chart
  refine ⟨fun _ _ _ => Easel.accepted_setStyle_iff, Easel.styleValue_run s hcreate calls, fun hkind strict out => ?_⟩
  have hstyle : ∀ k u, chart.style? k = some u ↔ Survives calls k u := Easel.style?_run_iff s hcreate calls
  have hreach : (Easel.run ⟨s, sketch⟩ calls).desk.Reachable := by
    rw [Easel.desk_run]
    exact (Desk.Reachable.create hs (Sketch.chart_of_create hcreate).1).run calls
  constructor
  · intro h
    obtain ⟨hwidth, hcount⟩ := hasAt_bins hreach hkind h
    refine ⟨fun v => (hwidth v).trans (hstyle .binWidth v), fun v => (hcount v).trans (hstyle .binCount v), ?_⟩
    rintro ⟨⟨v, hv⟩, u, hu⟩
    rcases hreach.sound.exclusive with hnone | hnone
    · exact Option.some_ne_none v (((hwidth v).mp hv).symm.trans hnone)
    · exact Option.some_ne_none u (((hcount u).mp hu).symm.trans hnone)
  · intro h
    have hbreaks := hasAt_breaks hreach hkind h
    obtain ⟨hwidth, hcount, hform⟩ := breaks?_eq_some_iff hreach.sound
    exact ⟨fun w => ((hbreaks _).trans (hwidth w)).trans (hstyle .binWidth w),
      fun n => ((hbreaks _).trans (hcount n)).trans (hstyle .binCount _), fun v hv => hform v ((hbreaks v).mp hv)⟩

end Shipped

/-- The bins of a histogram set over and over: the width gives way to the number, a width that is refused does not
bring it back or take the number away, and nor does clearing the width. -/
def Call.rebinned : List Call := [
  .define (.text "income") (.text "numeric") .null,
  .bind (.text "x") (.text "income"),
  .setStyle (.text "binWidth") (.int 5),
  .setStyle (.text "binCount") (.int 20),
  .setStyle (.text "binWidth") (.int (-1)),
  .clearStyle (.text "binWidth")]

theorem Call.survives_rebinned : Survives rebinned .binCount (.int 20) := by
  refine ⟨rebinned.take 3, _, _, rfl, ⟨.int 20, rfl, rfl⟩, ?_⟩
  simp only [List.forall_mem_cons, List.not_mem_nil, false_implies, implies_true, and_true]
  constructor
  · exact not_decides_of_refused (q := .binWidth) (by simp) rfl
  · exact fun hdecides => absurd (decides_clearStyle_iff.mp hdecides) (by simp [StyleKey.name])

namespace Shipped

open Rendering Call

theorem bins_by_history_rebinned : Schema.Built .empty ∧ ∃ sketch out,
    Sketch.create {} (.text "histogram") .null = .ok sketch ∧
    (Easel.run ⟨.empty, sketch⟩ rebinned).sketch.chart.styleValue (.text "binCount") = .ok (.int 20) ∧
    ofChart .shipped (Easel.run ⟨.empty, sketch⟩ rebinned).sketch.chart "imperative" true = .ok out ∧
    (.text "breaks", .int 20) ∈ out.parameters := by
  have hcreate : Sketch.create {} (.text "histogram") .null = .ok { kind := .histogram, facetLimit := 12 } := rfl
  obtain ⟨-, hvalue, hbins⟩ := bins_by_history .empty hcreate rebinned
  obtain ⟨out, hout⟩ : ∃ out, ofChart .shipped
      (Easel.run ⟨.empty, { kind := .histogram, facetLimit := 12 }⟩ rebinned).sketch.chart "imperative" true = .ok out :=
    ⟨_, rfl⟩
  obtain ⟨-, hcount, -⟩ := (hbins rfl true out).2 hout
  exact ⟨.empty, _, out, hcreate, (hvalue .binCount).1 _ survives_rebinned, hout, (hcount 20).mpr survives_rebinned⟩

end Shipped

end ChartGrammar
