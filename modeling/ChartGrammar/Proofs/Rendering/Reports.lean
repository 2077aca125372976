import ChartGrammar.Proofs.Rendering.Findings

/-! What the steps of a rendering report, and what they merge. Of a sort that neither conflicts nor checks on columns
add to, a run finds just what its steps report, in order. What such steps report can be left out of a run without
changing anything else. A parameter that a step writes is there in the end, with its value unless it is in
conflict. -/

namespace ChartGrammar

namespace Step

/-- The finding that a step reports, if that is what it does. -/
def report? : Step → Option Diagnostic
  | .report finding => some finding
  | _ => none

theorem mem_filterMap_report? {f : Diagnostic} {steps : List Step} :
    f ∈ steps.filterMap report? ↔ .report f ∈ steps := by
  rw [List.mem_filterMap]
  constructor
  · rintro ⟨s, hs, hreport⟩
    cases s with
    | report g =>
        cases hreport
        exact hs
    | write | carried | fail => cases hreport
  · exact fun hs => ⟨_, hs, rfl⟩

/-- The step reports a finding of the sort. -/
def reports (p : Diagnostic → Bool) (s : Step) : Bool :=
  s.report?.any p

end Step

namespace Document

variable {p : Diagnostic → Bool} {grammar : String} {strict : Bool} {d e : Document} {s : Step} {steps : List Step}

/-! ### What is reported -/

/-- No step that is taken fails. -/
theorem not_fail_of_run (htaken : d.run grammar strict steps = .ok e) (fault : Fault) : .fail fault ∉ steps := by
  induction steps generalizing d with
  | nil => exact List.not_mem_nil
  | cons s steps ih =>
      rw [run_cons] at htaken
      obtain ⟨next, hstep, hrest⟩ := bind_eq_ok_iff.mp htaken
      rw [List.mem_cons, not_or]
      refine ⟨?_, ih hrest⟩
      rintro rfl
      cases hstep

/-- The steps that report nothing add no finding of the sort. -/
def ReportedOnly (p : Diagnostic → Bool) (steps : List Step) : Prop :=
  ∀ s ∈ steps, s.report? = none → s.Silent p

theorem filter_step_report (hsilent : s.report? = none → s.Silent p) (htaken : d.step grammar strict s = .ok e) :
    e.findings.filter p = d.findings.filter p ++ s.report?.toList.filter p := by
  cases s with
  | report finding =>
      cases htaken
      exact List.filter_append ..
  | write | carried | fail =>
      rw [filter_step (hsilent rfl) htaken]
      exact (List.append_nil _).symm

/-- Of such a sort, just what the steps report is found. -/
theorem filter_run_reports (h : ReportedOnly p steps) (htaken : d.run grammar strict steps = .ok e) :
    e.findings.filter p = d.findings.filter p ++ (steps.filterMap Step.report?).filter p := by
  induction steps generalizing d with
  | nil =>
      cases htaken
      exact (List.append_nil _).symm
  | cons s steps ih =>
      rw [ReportedOnly, List.forall_mem_cons] at h
      rw [run_cons] at htaken
      obtain ⟨next, hstep, hrest⟩ := bind_eq_ok_iff.mp htaken
      have hsplit : (s :: steps).filterMap Step.report? = s.report?.toList ++ steps.filterMap Step.report? := by
        rw [List.filterMap_cons]
        cases s.report? <;> rfl
      rw [ih h.2 hrest, filter_step_report h.1 hstep, hsplit, List.filter_append, List.append_assoc]

/-! ### What is left out -/

/-- The document without its findings of a sort. -/
def without (p : Diagnostic → Bool) (d : Document) : Document :=
  { d with findings := d.findings.filter fun f => !p f }

theorem without_report {f : Diagnostic} (h : p f = false) : (d.report f).without p = (d.without p).report f := by
  show Document.mk d.parameters ((d.findings ++ [f]).filter _) = _
  rw [List.filter_append, List.filter_singleton, h]
  rfl

/-- A step that is silent on a sort does the same whether or not findings of the sort are there. -/
theorem step_without (hsilent : s.Silent p) :
    without p <$> d.step grammar strict s = (d.without p).step grammar strict s := by
  cases s with
  | write param value origin =>
      have hfind : (d.without p).find? param = d.find? param := rfl
      simp only [step, write, hfind]
      cases param.isKey with
      | false => rfl
      | true =>
          cases d.find? param with
          | none => rfl
          | some previous =>
              simp only [Bool.not_true, Bool.false_eq_true, ↓reduceIte]
              split
              · rfl
              split
              · rfl
              split
              · rfl
              · exact congrArg (fun r => Except.ok (r.override param value origin)) (without_report (hsilent previous))
  | report f => exact congrArg Except.ok (without_report hsilent)
  | carried role column into =>
      simp only [step]
      cases into.isKey with
      | false => rfl
      | true =>
          have hcarries : (d.without p).carries into column = d.carries into column := rfl
          rw [hcarries]
          cases d.carries into column with
          | true => rfl
          | false =>
              cases into.legible with
              | true => exact congrArg Except.ok (without_report (hsilent grammar))
              | false => rfl
  | fail fault => rfl

theorem without_report_self {f : Diagnostic} (h : p f = true) : (d.report f).without p = d.without p := by
  show Document.mk d.parameters ((d.findings ++ [f]).filter _) = _
  rw [List.filter_append, List.filter_singleton, h]
  exact congrArg (Document.mk d.parameters) (List.append_nil _)

/-- Reports of a sort can be left out of a run; nothing else changes, not even the fault that ends it. -/
theorem run_without (h : ReportedOnly p steps) : without p <$> d.run grammar strict steps =
    (d.without p).run grammar strict (steps.filter fun s => !s.reports p) := by
  induction steps generalizing d with
  | nil => rfl
  | cons s steps ih =>
      rw [ReportedOnly, List.forall_mem_cons] at h
      rw [run_cons, List.filter_cons]
      cases hreports : s.reports p with
      | true =>
          cases s with
          | report f =>
              -- The step only adds a finding that is left out.
              show without p <$> (d.report f).run grammar strict steps = _
              rw [ih h.2, without_report_self hreports]
              rfl
          | write | carried | fail => cases hreports
      | false =>
          have hsilent : s.Silent p := by
            cases s with
            | report f => exact hreports
            | write | carried | fail => exact h.1 rfl
          have hstep : without p <$> d.step grammar strict s = (d.without p).step grammar strict s :=
            step_without hsilent
          simp only [Bool.not_false, ↓reduceIte, run_cons]
          rw [← hstep]
          cases d.step grammar strict s with
          | error fault => rfl
          | ok next => exact ih h.2

/-! ### What is merged -/

/-- A parameter of the name is there, with the value unless the name is in conflict. -/
def Keeps (d : Document) (param value : Value) : Prop :=
  ∃ q ∈ d.parameters, (q.name = param ∨ q.name.same param = true) ∧ (q.value = value ∨ q.value.same value = true ∨
    ∃ f ∈ conflicts d.findings, q.name.same f.key = true)

variable {param value other otherValue : Value} {origin : Origin}

/-- More findings make more conflicts, if anything. -/
theorem Keeps.report (h : d.Keeps param value) (f : Diagnostic) : (d.report f).Keeps param value := by
  obtain ⟨q, hq, hname, hvalue⟩ := h
  refine ⟨q, hq, hname, hvalue.imp_right (Or.imp_right ?_)⟩
  rintro ⟨g, hg, hkey⟩
  refine ⟨g, ?_, hkey⟩
  show g ∈ conflicts (d.findings ++ [f])
  rw [conflicts_append]
  exact List.mem_append_left _ hg

theorem Keeps.append (h : d.Keeps param value) : (d.append other otherValue origin).Keeps param value := by
  obtain ⟨q, hq, hname, hvalue⟩ := h
  exact ⟨q, List.mem_append_left _ hq, hname, hvalue⟩

/-- An override leaves a warning about the name. -/
theorem Keeps.override (h : d.Keeps param value) (previous : Parameter) :
    ((d.report (conflictWarning other otherValue origin previous)).override other otherValue origin).Keeps
      param value := by
  obtain ⟨q, hq, hname, hvalue⟩ := h.report (conflictWarning other otherValue origin previous)
  have hmem := List.mem_map_of_mem hq (f := fun q : Parameter =>
    if q.name.same other then { q with value := otherValue, origin } else q)
  cases hother : q.name.same other with
  | false =>
      rw [hother] at hmem
      exact ⟨q, hmem, hname, hvalue⟩
  | true =>
      rw [hother] at hmem
      refine ⟨_, hmem, hname, .inr (.inr ⟨conflictWarning other otherValue origin previous, ?_, hother⟩)⟩
      show _ ∈ conflicts (d.findings ++ [conflictWarning other otherValue origin previous])
      rw [conflicts_append]
      exact List.mem_append_right _ List.mem_cons_self

/-- What is there stays there, or gets into conflict. -/
theorem Keeps.step (h : d.Keeps param value) (htaken : d.step grammar strict s = .ok e) : e.Keeps param value := by
  cases s with
  | write other otherValue origin =>
      cases writeCase htaken with
      | new => exact h.append
      | repeated => exact h
      | override => exact h.override _
  | report f =>
      cases htaken
      exact h.report f
  | carried role column into =>
      cases carriedCase htaken with
      | found => exact h
      | dropped => exact h.report _
  | fail fault => cases htaken

/-- What is written is there. -/
theorem keeps_write (htaken : d.write strict param value origin = .ok e) : e.Keeps param value := by
  cases writeCase htaken with
  | new => exact ⟨⟨param, value, origin⟩, List.mem_append_right _ List.mem_cons_self, .inl rfl, .inl rfl⟩
  | @repeated previous _ hfind hvalue =>
      have hname : previous.name.same param = true := by simpa using List.find?_some hfind
      exact ⟨previous, List.mem_of_find?_eq_some hfind, .inr hname, .inr (.inl hvalue)⟩
  | @override previous _ hfind =>
      have hname : previous.name.same param = true := by simpa using List.find?_some hfind
      have hmem := List.mem_of_find?_eq_some hfind
      refine ⟨{ previous with value, origin }, List.mem_map.mpr ⟨previous, hmem, ?_⟩, .inr hname, .inl rfl⟩
      exact if_pos hname

/-- What any step of a run writes is there in the end. -/
theorem keeps_of_mem (hwrite : .write param value origin ∈ steps) (htaken : d.run grammar strict steps = .ok e) :
    e.Keeps param value := by
  obtain ⟨done, rest, rfl⟩ := List.append_of_mem hwrite
  rw [run_append] at htaken
  obtain ⟨before, -, htaken⟩ := bind_eq_ok_iff.mp htaken
  rw [run_cons] at htaken
  obtain ⟨after, hstep, hrest⟩ := bind_eq_ok_iff.mp htaken
  exact foldlM_keeps (Keeps · param value) (fun _ _ _ kept one => kept.step one) (keeps_write hstep) hrest

end Document

end ChartGrammar
