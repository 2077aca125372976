import ChartGrammar.Proofs.Rendering.Ledger
import ChartGrammar.Shipped.Registry

/-! What becomes of the writes of a rendering in which conflicts are let pass. The document keeps in step with
the ledger of its writes: it has the names in the order of their first occurrence, at each name the value and the
origin that stand there, and a warning for every override, in order. -/

namespace ChartGrammar

/-- The name of what set a parameter is quoted as it is. -/
theorem Origin.quoted_name (o : Origin) : Text.quoted o.name = "'" ++ o.name ++ "'" := by
  cases o with
  | kind | facet => decide +kernel
  | role r => cases r <;> decide +kernel
  | style k => cases k <;> decide +kernel

/-- The finding is the warning that the first of two writes is overridden by the second. It stands under the name that
was written to, and it gives the values of both and the names of what set them. -/
structure Diagnostic.TellsOf (f : Diagnostic) (e : Parameter × Parameter) : Prop where
  severity : f.severity = .warning
  code : f.code = .conflict
  key : f.key = e.2.name
  message : f.message = .text ("Parameter " ++ e.2.name.written ++ " set to " ++ e.1.value.written ++ " by '" ++
    e.1.origin.name ++ "' is overridden with " ++ e.2.value.written ++ " by '" ++ e.2.origin.name ++ "'.")

namespace Document

open Ledger

/-- The warning that a write was overridden by another. -/
def overrideWarning (e : Parameter × Parameter) : Diagnostic :=
  conflictWarning e.2.name e.2.value e.2.origin e.1

theorem tellsOf_overrideWarning (e : Parameter × Parameter) : (overrideWarning e).TellsOf e := by
  refine ⟨rfl, rfl, rfl, ?_⟩
  rw [overrideWarning, conflictWarning, Origin.quoted_name, Origin.quoted_name]
  simp only [String.append_assoc]
  rfl

/-- The conflicts among some findings. -/
def conflicts (findings : List Diagnostic) : List Diagnostic :=
  findings.filter fun f => f.code == .conflict

/-- The value of a parameter and what set it. -/
def mark (p : Parameter) : Value × Origin :=
  (p.value, p.origin)

theorem value_of_mark {p q : Parameter} (h : mark q = mark p) : q.value = p.value :=
  congrArg Prod.fst h

/-- The document is in step with the writes that were made to it. -/
structure Records (ws : List Parameter) (d : Document) : Prop where
  names : d.parameters.map Parameter.name = Ledger.names ws
  standing : ∀ param, (d.find? param).map mark = (standing? param ws).map mark
  conflicts : conflicts d.findings = (overrides ws).map overrideWarning
  /-- The names are regular, so that they can be compared from either side. -/
  regular : ∀ p ∈ d.parameters, p.name.regular = true

variable {d e : Document} {ws : List Parameter} {param value : Value} {origin : Origin}

theorem records_empty : Records [] empty :=
  ⟨rfl, fun _ => rfl, rfl, fun _ hp => absurd hp List.not_mem_nil⟩

theorem find?_append (d : Document) (param value : Value) (origin : Origin) (other : Value) :
    (d.append param value origin).find? other =
      (d.find? other).or (if param.same other then some ⟨param, value, origin⟩ else none) := by
  unfold find? append
  rw [List.find?_append, List.find?_singleton]

theorem find?_override (d : Document) (param value : Value) (origin : Origin) (other : Value) :
    (d.override param value origin).find? other =
      (d.find? other).map fun p => if p.name.same param then { p with value, origin } else p := by
  unfold find? override
  rw [List.find?_map]
  congr 2
  funext p
  simp only [Function.comp_apply]
  split <;> rfl

theorem find?_congr {other : Value} (hparam : param.regular = true) (hsame : param.same other = true) :
    d.find? param = d.find? other := by
  unfold find?
  congr 1
  funext p
  exact Value.same_congr_right hparam hsame p.name

theorem any_names (h : Records ws d) (param : Value) :
    ((Ledger.names ws).any fun name => name.same param) = (d.find? param).isSome := by
  rw [← h.names, List.any_map, find?, List.isSome_find?]
  rfl

theorem conflicts_append (first second : List Diagnostic) :
    conflicts (first ++ second) = conflicts first ++ conflicts second :=
  List.filter_append ..

theorem conflicts_of_ne {finding : Diagnostic} (h : finding.code ≠ .conflict) : conflicts [finding] = [] := by
  simpa [conflicts] using h

/-- A name that is not there has not been written to. -/
theorem Records.standing?_eq_none (h : Records ws d) (hfind : d.find? param = none) :
    standing? param ws = none := by
  have hmark := h.standing param
  rw [hfind, Option.map_none, eq_comm, Option.map_eq_none_iff] at hmark
  exact hmark

/-- What stands at a name that is there has the value and the origin that the name has. -/
theorem Records.standing?_eq_some (h : Records ws d) {previous : Parameter}
    (hfind : d.find? param = some previous) : ∃ q, standing? param ws = some q ∧ mark q = mark previous := by
  have hmark := h.standing param
  rw [hfind, Option.map_some, eq_comm, Option.map_eq_some_iff] at hmark
  exact hmark

/-- A name that has been written to is there, with the value and the origin of what stands at it. -/
theorem Records.exists_standing (h : Records ws d) {w : Parameter} (hw : w ∈ ws) (hname : w.name.same param = true) :
    ∃ p q, d.find? param = some p ∧ standing? param ws = some q ∧ mark q = mark p := by
  cases hfind : d.find? param with
  | none =>
      rw [not_same_of_standing? (h.standing?_eq_none hfind) w hw] at hname
      cases hname
  | some p =>
      obtain ⟨q, hstanding, hmark⟩ := h.standing?_eq_some hfind
      exact ⟨p, q, rfl, hstanding, hmark⟩

/-! ### A step keeps the document in step with its writes -/

theorem Records.report (h : Records ws d) {finding : Diagnostic} (hquiet : finding.code ≠ .conflict) :
    Records ws (d.report finding) where
  names := h.names
  standing := h.standing
  conflicts := by
    show Document.conflicts (d.findings ++ [finding]) = _
    rw [conflicts_append, conflicts_of_ne hquiet, List.append_nil, h.conflicts]
  regular := h.regular

/-- The first write to a name. -/
theorem Records.append (h : Records ws d) (hparam : param.regular = true) (hfind : d.find? param = none) :
    Records (ws ++ [⟨param, value, origin⟩]) (d.append param value origin) := by
  have hfree := h.standing?_eq_none hfind
  constructor
  · rw [names_append, any_names h, hfind]
    show (d.parameters ++ [_]).map Parameter.name = Ledger.names ws ++ [param]
    rw [List.map_append, h.names]
    rfl
  · intro other
    rw [find?_append, standing?_append]
    cases hsame : param.same other with
    | false =>
        rw [settle_other hsame, ← h.standing other, if_neg Bool.false_ne_true, Option.or_none]
    | true =>
        rw [← find?_congr hparam hsame, hfind, ← standing?_congr hparam hsame, hfree, settle_none hsame]
        rfl
  · have hnone : override? ws ⟨param, value, origin⟩ = none := by rw [override?, hfree, Option.bind_none]
    rw [overrides_append, hnone]
    show Document.conflicts d.findings = _
    rw [h.conflicts, Option.toList_none, List.append_nil]
  · intro p hp
    rcases List.mem_append.mp hp with hp | hp
    · exact h.regular p hp
    · rw [List.mem_singleton.mp hp]
      exact hparam

/-- A write of the value that stands. -/
theorem Records.repeated (h : Records ws d) (hparam : param.regular = true) {previous : Parameter}
    (hfind : d.find? param = some previous) (hvalue : previous.value.same value = true) :
    Records (ws ++ [⟨param, value, origin⟩]) d := by
  obtain ⟨q, hstanding, hmark⟩ := h.standing?_eq_some hfind
  have hq : q.value.same value = true := by
    rw [value_of_mark hmark]
    exact hvalue
  constructor
  · rw [names_append, any_names h, hfind]
    exact h.names
  · intro other
    rw [standing?_append]
    cases hsame : param.same other with
    | false => rw [settle_other hsame, h.standing other]
    | true =>
        rw [h.standing other, ← standing?_congr hparam hsame, hstanding, settle_same hsame hq]
  · have hnone : override? ws ⟨param, value, origin⟩ = none := by
      rw [override?, hstanding, Option.bind_some, if_pos hq]
    rw [overrides_append, hnone, Option.toList_none, List.append_nil, h.conflicts]
  · exact h.regular

/-- A write of another value than the one that stands. -/
theorem Records.override (h : Records ws d) (hparam : param.regular = true) {previous : Parameter}
    (hfind : d.find? param = some previous) (hvalue : previous.value.same value = false) :
    Records (ws ++ [⟨param, value, origin⟩])
      ((d.report (conflictWarning param value origin previous)).override param value origin) := by
  obtain ⟨q, hstanding, hmark⟩ := h.standing?_eq_some hfind
  have hq : q.value.same value = false := by
    rw [value_of_mark hmark]
    exact hvalue
  constructor
  · rw [names_override, names_append, any_names h, hfind]
    exact h.names
  · intro other
    rw [find?_override, standing?_append]
    show ((d.find? other).map _).map mark = _
    cases hsame : param.same other with
    | false =>
        rw [settle_other hsame, ← h.standing other]
        cases hother : d.find? other with
        | none => rfl
        | some p =>
            -- The parameter found has another name than the one that is overridden.
            have hp := List.mem_of_find?_eq_some hother
            have hname : p.name.same other = true := by simpa using List.find?_some hother
            have hdiffer : ¬p.name.same param = true := by
              intro hback
              rw [Value.same_trans (Value.same_symm (h.regular p hp) hback) hname] at hsame
              cases hsame
            rw [Option.map_some, if_neg hdiffer]
    | true =>
        have hname : previous.name.same param = true := by simpa using List.find?_some hfind
        rw [← find?_congr hparam hsame, hfind, ← standing?_congr hparam hsame, hstanding,
          settle_override hsame hq, Option.map_some, if_pos hname]
        rfl
  · have hoverride : override? ws ⟨param, value, origin⟩ = some (q, ⟨param, value, origin⟩) :=
      override?_eq_some_iff.mpr ⟨hstanding, hq, rfl⟩
    have hwarning : overrideWarning (q, ⟨param, value, origin⟩) = conflictWarning param value origin previous := by
      obtain ⟨hv, ho⟩ := Prod.mk.inj hmark
      simp only [overrideWarning, conflictWarning, hv, ho]
    rw [overrides_append, hoverride, List.map_append, ← h.conflicts]
    show Document.conflicts (d.findings ++ [_]) = _
    rw [conflicts_append, Option.toList_some, List.map_singleton, hwarning]
    rfl
  · intro p hp
    obtain ⟨p', hp', rfl⟩ := List.mem_map.mp hp
    have hregular := h.regular p' hp'
    split
    · exact hregular
    · exact hregular

theorem Records.write (h : Records ws d) (hparam : param.regular = true)
    (htaken : d.write false param value origin = .ok e) : Records (ws ++ [⟨param, value, origin⟩]) e := by
  cases writeCase htaken with
  | new _ hfind => exact h.append hparam hfind
  | repeated _ hfind hvalue => exact h.repeated hparam hfind hvalue
  | override _ hfind hvalue => exact h.override hparam hfind hvalue

theorem records_step {grammar : String} {s : Step} (h : Records ws d) (hquiet : s.Quiet)
    (hregular : ∀ w ∈ s.write?, w.Regular) (htaken : d.step grammar false s = .ok e) :
    Records (ws ++ s.write?.toList) e := by
  cases s with
  | write param value origin => exact h.write (hregular ⟨param, value, origin⟩ rfl).1 htaken
  | report finding =>
      cases htaken
      show Records (ws ++ []) (d.report finding)
      rw [List.append_nil]
      exact h.report hquiet
  | carried role column into =>
      show Records (ws ++ []) e
      rw [List.append_nil]
      cases carriedCase htaken with
      | found => exact h
      | dropped => exact h.report (by simp [droppedWarning])
  | fail fault => cases htaken

/-- Steps that are taken one after another keep the document in step with all their writes. -/
theorem records_run {grammar : String} {steps : List Step} (h : Records ws d) (hquiet : ∀ s ∈ steps, s.Quiet)
    (hregular : ∀ w ∈ steps.filterMap Step.write?, w.Regular) (htaken : d.run grammar false steps = .ok e) :
    Records (ws ++ steps.filterMap Step.write?) e := by
  induction steps generalizing ws d with
  | nil =>
      cases htaken
      rw [List.filterMap_nil, List.append_nil]
      exact h
  | cons s steps ih =>
      rw [List.forall_mem_cons] at hquiet
      rw [run_cons] at htaken
      obtain ⟨next, hstep, hrest⟩ := bind_eq_ok_iff.mp htaken
      -- The writes of the first step go into the ledger before the rest is looked at.
      have hsplit : (s :: steps).filterMap Step.write? = s.write?.toList ++ steps.filterMap Step.write? := by
        rw [List.filterMap_cons]
        cases s.write? <;> rfl
      rw [hsplit, List.forall_mem_append] at hregular
      have hnext := records_step h hquiet.1 (fun w hw => hregular.1 w (Option.mem_toList.mpr hw)) hstep
      rw [hsplit, ← List.append_assoc]
      exact ih hnext hquiet.2 hregular.2 hrest

/-- Each parameter is the one that its name leads to. -/
theorem Records.find?_name (h : Records ws d) {p : Parameter} (hp : p ∈ d.parameters) :
    d.find? p.name = some p := by
  have hpairs := Ledger.names_pairwise ws
  rw [← h.names, List.pairwise_map] at hpairs
  obtain ⟨before, after, hsplit⟩ := List.append_of_mem hp
  rw [hsplit, List.pairwise_append] at hpairs
  refine List.find?_eq_some_iff_append.mpr ⟨Value.same_self (h.regular p hp), before, after, hsplit, ?_⟩
  intro q hq
  rw [hpairs.2.2 q hq p List.mem_cons_self]
  rfl

/-! ### What a document in step with its writes tells of them -/

/-- Each value counts as the same as the last one written to its name. -/
theorem Records.last (h : Records ws d) (hregular : ∀ w ∈ ws, w.Regular) :
    ∀ e ∈ d.entries, ∃ l, last? e.1 ws = some l ∧ e.2.same l.value = true := by
  intro e he
  obtain ⟨p, hp, rfl⟩ := List.mem_map.mp he
  obtain ⟨q, hq, hmark⟩ := h.standing?_eq_some (h.find?_name hp)
  have hrel : Option.Rel (fun q l => q.value.same l.value = true) (standing? p.name ws) (last? p.name ws) :=
    standing?_rel_last? hregular
  rw [hq] at hrel
  cases hlast : last? p.name ws with
  | none =>
      rw [hlast] at hrel
      cases hrel
  | some l =>
      rw [hlast] at hrel
      cases hrel with
      | some hvalue =>
          rw [value_of_mark hmark] at hvalue
          exact ⟨l, rfl, hvalue⟩

theorem Records.regular_value (h : Records ws d) (hregular : ∀ w ∈ ws, w.Regular) {e : Value × Value}
    (he : e ∈ d.entries) : e.2.regular = true := by
  obtain ⟨p, hp, rfl⟩ := List.mem_map.mp he
  obtain ⟨q, hq, hmark⟩ := h.standing?_eq_some (h.find?_name hp)
  rw [← value_of_mark hmark]
  exact (hregular q (mem_of_standing? hq).1).2

/-- A name has a conflict exactly if something is overridden there. -/
theorem Records.conflict_iff (h : Records ws d) (param : Value) :
    (∃ f ∈ Document.conflicts d.findings, f.key.same param = true) ↔
      ∃ e ∈ overrides ws, e.2.name.same param = true := by
  rw [h.conflicts]
  constructor
  · rintro ⟨f, hf, hkey⟩
    obtain ⟨e, he, rfl⟩ := List.mem_map.mp hf
    exact ⟨e, he, hkey⟩
  · rintro ⟨e, he, hname⟩
    exact ⟨overrideWarning e, List.mem_map.mpr ⟨e, he, rfl⟩, hname⟩

/-- A value that was written is there in the end, or its name has a conflict. -/
theorem Records.kept_or_conflict (h : Records ws d) (hregular : ∀ w ∈ ws, w.Regular) :
    ∀ w ∈ ws, ∃ e ∈ d.entries, e.1.same w.name = true ∧
      (e.2.same w.value = true ∨ ∃ f ∈ Document.conflicts d.findings, f.key.same w.name = true) := by
  intro w hw
  have hself := Value.same_self (hregular w hw).1
  obtain ⟨p, q, hfind, hstanding, hmark⟩ := h.exists_standing hw hself
  have hname : p.name.same w.name = true := by simpa using List.find?_some hfind
  have hp : (p.name, p.value) ∈ d.entries := List.mem_map.mpr ⟨p, List.mem_of_find?_eq_some hfind, rfl⟩
  refine ⟨(p.name, p.value), hp, hname, ?_⟩
  by_cases hever : ∃ e ∈ overrides ws, e.2.name.same w.name = true
  · exact .inr ((h.conflict_iff w.name).mpr hever)
  · left
    obtain ⟨q', hstanding', hvalue⟩ := same_of_no_override hregular hever w hw hself
    rw [hstanding, Option.some.injEq] at hstanding'
    rwa [← hstanding', value_of_mark hmark] at hvalue

/-- Where all writes to a name write one value, this is the value there. -/
theorem Records.carries_of_sole (h : Records ws d) {w : Parameter} (hw : w ∈ ws) {name : String}
    (hname : w.name = .text name) (hsole : ∀ u ∈ ws, u.name = .text name → u.value = w.value) (column : String) :
    d.carries (.text name) column = w.value.mentions column := by
  have hwritten : w.name.same (.text name) = true := by rw [hname, Value.same_text_iff]
  obtain ⟨p, q, hfind, hstanding, hmark⟩ := h.exists_standing hw hwritten
  obtain ⟨hmem, hsame⟩ := mem_of_standing? hstanding
  rw [carries, hfind, ← hsole q hmem (Value.same_text_right_iff.mp hsame), value_of_mark hmark]

end Document

/-- A bar chart that is filled red by a literal and blue by its style. -/
def Desk.filledTwice : Desk :=
  (Desk.mk .empty { kind := .bar, facetLimit := 12 }).run [
    .define (.text "sex") (.text "categorical") .null,
    .bind (.text "x") (.text "sex"),
    .bind (.text "fill") (.literal (.text "red")),
    .setStyle (.text "fillColor") (.text "blue")]

theorem Desk.reachable_filledTwice : Desk.filledTwice.Reachable :=
  Desk.reachable_new .bar _

namespace Rendering

open Document Ledger

/-- A rendering is made from the document that its steps build. -/
theorem ofChart_eq_ok_iff {r : Registry} {c : Chart} {grammar : String} {strict : Bool} {out : Rendering} :
    ofChart r c grammar strict = .ok out ↔ ∃ rows d, rowsFor r c grammar = .ok rows ∧
      Document.empty.run grammar strict (steps r c grammar rows) = .ok d ∧
      out = ⟨grammar, c.kind, d.entries, d.findings⟩ := by
  unfold ofChart
  rw [bind_eq_ok_iff]
  refine exists_congr fun rows => ?_
  rw [bind_eq_ok_iff]
  constructor
  · rintro ⟨hrows, d, hrun, hout⟩
    cases hout
    exact ⟨d, hrows, hrun, rfl⟩
  · rintro ⟨d, hrows, hrun, rfl⟩
    exact ⟨hrows, d, hrun, rfl⟩

/-- The tables that the library holds are free of NaN. -/
theorem regular_shipped : Registry.shipped.Regular := by
  unfold Registry.Regular
  decide +kernel

/-- The rows for a chart are those of the grammar's table. -/
theorem exists_table_of_rowsFor {r : Registry} {c : Chart} {grammar : String} {rows : KindRows}
    (h : rowsFor r c grammar = .ok rows) : ∃ t ∈ r.tables, t.grammar = grammar ∧ t.kind? c.kind = some rows := by
  unfold rowsFor at h
  obtain ⟨table, htable, h⟩ := bind_eq_ok_iff.mp h
  unfold Registry.table at htable
  split at htable
  · next t hfound =>
      cases htable
      refine ⟨table, List.mem_of_find?_eq_some hfound, by simpa using List.find?_some hfound, ?_⟩
      split at h
      · cases h
      · next rows' hkind =>
          split at h
          · cases h
          · cases h
            exact hkind
  · cases htable

theorem regular_rowsFor {r : Registry} (hr : r.Regular) {c : Chart} {grammar : String} {rows : KindRows}
    (h : rowsFor r c grammar = .ok rows) : ∀ v ∈ rows.values, v.regular = true := by
  obtain ⟨t, ht, -, hkind⟩ := exists_table_of_rowsFor h
  exact hr t ht rows (List.mem_of_find?_eq_some hkind)

/-- A rendering that lets conflicts pass is made from a document in step with the writes of its rows. -/
theorem records_of_ofChart {r : Registry} (hr : r.Regular) {k : Desk} (hk : k.Reachable) {grammar : String}
    {out : Rendering} (h : ofChart r k.chart grammar false = .ok out) :
    ∃ rows d, rowsFor r k.chart grammar = .ok rows ∧ out = ⟨grammar, k.chart.kind, d.entries, d.findings⟩ ∧
      (∀ w ∈ writes k.chart rows, w.Regular) ∧ Records (writes k.chart rows) d := by
  obtain ⟨rows, d, hrows, hrun, hout⟩ := ofChart_eq_ok_iff.mp h
  have hregular := regular_writes hk.sound (regular_rowsFor hr hrows)
  have hholds : Holds (steps r k.chart grammar rows) (writes k.chart rows) := holds_steps hk.no_conflict
  have hsteps := hregular
  rw [← hholds.writes] at hsteps
  have hrecords := records_run records_empty hholds.quiet hsteps hrun
  rw [List.nil_append, hholds.writes] at hrecords
  exact ⟨rows, d, hrows, hout, hregular, hrecords⟩

/-- What a rendering in which conflicts are let pass makes of its writes. The parameters are the names written to,
in the order of their first occurrence, each with a value that counts as the same as the last one written. The
conflicts tell of the overrides, one of each and in order; and of each override the first write set the value that
stood until the second. So a name has a conflict exactly if two unequal values are written to it, and a value that does
not last has one. -/
theorem parameters_and_conflicts {r : Registry} (hr : r.Regular) {k : Desk} (hk : k.Reachable) {grammar : String}
    {out : Rendering} (h : ofChart r k.chart grammar false = .ok out) :
    ∃ rows, rowsFor r k.chart grammar = .ok rows ∧
      let ws := writes k.chart rows
      out.parameters.map Prod.fst = Ledger.names ws ∧
      (∀ e ∈ out.parameters, ∃ l, last? e.1 ws = some l ∧ e.2.same l.value = true) ∧
      List.Forall₂ Diagnostic.TellsOf (conflicts out.diagnostics) (overrides ws) ∧
      (∀ e ∈ overrides ws, StoodUntil ws e) ∧
      (∀ param, (∃ f ∈ conflicts out.diagnostics, f.key.same param = true) ↔ ∃ first ∈ ws, ∃ second ∈ ws,
        first.name.same param = true ∧ second.name.same param = true ∧ first.value.same second.value = false) ∧
      ∀ w ∈ ws, ∃ e ∈ out.parameters, e.1.same w.name = true ∧
        (e.2.same w.value = true ∨ ∃ f ∈ conflicts out.diagnostics, f.key.same w.name = true) := by
  obtain ⟨rows, d, hrows, rfl, hregular, hrecords⟩ := records_of_ofChart hr hk h
  have hnames : d.entries.map Prod.fst = Ledger.names (writes k.chart rows) := by
    rw [← hrecords.names]
    exact List.map_map
  have htell : List.Forall₂ Diagnostic.TellsOf (conflicts d.findings) (overrides (writes k.chart rows)) := by
    rw [hrecords.conflicts, List.forall₂_map_left_iff, List.forall₂_same]
    exact fun e _ => tellsOf_overrideWarning e
  refine ⟨rows, hrows, hnames, hrecords.last hregular, htell, fun e he => stoodUntil_of_mem_overrides he,
    fun param => ?_, hrecords.kept_or_conflict hregular⟩
  exact (hrecords.conflict_iff param).trans (exists_override_iff hregular)

/-- In the layered grammar the style overrides the literal. -/
theorem parameters_and_conflicts_filledTwice :
    Registry.shipped.Regular ∧ Desk.filledTwice.Reachable ∧ ∃ out,
      ofChart .shipped Desk.filledTwice.chart "layered" false = .ok out ∧
      ∃ f, conflicts out.diagnostics = [f] ∧ f.message =
        .text "Parameter 'geom.fill' set to 'red' by 'fill' is overridden with 'blue' by 'fillColor'." := by
  have hreach := Desk.reachable_filledTwice
  obtain ⟨out, hout⟩ : ∃ out, ofChart .shipped Desk.filledTwice.chart "layered" false = .ok out := ⟨_, rfl⟩
  obtain ⟨rows, hrows, -, -, htell, -⟩ := parameters_and_conflicts regular_shipped hreach hout
  have hoverrides : overrides (writes Desk.filledTwice.chart rows) =
      [(⟨.text "geom.fill", .text "red", .role .fill⟩, ⟨.text "geom.fill", .text "blue", .style .fillColor⟩)] := by
    cases hrows
    rfl
  rw [hoverrides] at htell
  cases hfindings : conflicts out.diagnostics with
  | nil =>
      rw [hfindings] at htell
      cases htell
  | cons f rest =>
      rw [hfindings] at htell
      cases htell with
      | cons htells hrest =>
          cases hrest
          exact ⟨regular_shipped, hreach, out, hout, f, hfindings, htells.message.trans (congrArg Value.text (by decide))⟩

end Rendering

end ChartGrammar
