import ChartGrammar.Proofs.Rendering.Conflicts

/-! Renderings that refuse conflicts against those that let them pass. Step by step the two do the same until a
write overrides another value: there the one fails, and the other goes on with a warning. So they agree up to the
first conflict, whatever becomes of the rendering after it. -/

namespace ChartGrammar

namespace Document

/-- The parameter that a step overrides in a document, and the write that overrides it. A write that would override
something too long to be told of fails and overrides nothing. -/
def clash? (d : Document) : Step → Option (Parameter × Parameter)
  | .write param value origin =>
    if param.isKey then
      (d.find? param).bind fun previous =>
        if previous.value.same value || !isTellable param value previous then none
        else some (previous, ⟨param, value, origin⟩)
    else none
  | _ => none

/-- The fault of a write that may not override another. -/
def conflictFault (e : Parameter × Parameter) : Fault :=
  .rendering (.conflict e.2.name e.1.origin e.2.origin e.1.value e.2.value)

/-- The first step that overrides anything, among those that are reached. -/
def firstClash? (grammar : String) (d : Document) : List Step → Option (Parameter × Parameter)
  | [] => none
  | s :: rest =>
    match d.clash? s with
    | some e => some e
    | none =>
      match d.step grammar false s with
      | .ok next => firstClash? grammar next rest
      | .error _ => none

variable {grammar : String} {d next last : Document} {s : Step} {steps : List Step} {e : Parameter × Parameter}
  {fault : Fault}

/-! ### One step -/

theorem clash?_write {param value : Value} {origin : Origin} :
    d.clash? (.write param value origin) = some e ↔ param.isKey = true ∧ ∃ previous, d.find? param = some previous ∧
      previous.value.same value = false ∧ isTellable param value previous = true ∧
        e = (previous, ⟨param, value, origin⟩) := by
  rw [clash?]
  constructor
  · intro h
    split at h
    · next hkey =>
        obtain ⟨previous, hfind, h⟩ := Option.bind_eq_some_iff.mp h
        split at h
        · cases h
        · next hclash =>
            cases h
            rw [Bool.or_eq_true, not_or, Bool.not_eq_true, Bool.not_eq_true', Bool.not_eq_false] at hclash
            exact ⟨hkey, previous, hfind, hclash.1, hclash.2, rfl⟩
    · cases h
  · rintro ⟨hkey, previous, hfind, hvalue, hshort, rfl⟩
    rw [if_pos hkey, hfind, Option.bind_some, hvalue, hshort]
    rfl

/-- A write to a name at which another value stands is an override, if it can be told of. -/
theorem not_no_clash {param value : Value} {origin : Origin} {previous : Parameter} (hkey : param.isKey = true)
    (hfind : d.find? param = some previous) (hvalue : previous.value.same value = false)
    (hshort : isTellable param value previous = true) : d.clash? (.write param value origin) ≠ none := by
  rw [clash?_write.mpr ⟨hkey, previous, hfind, hvalue, hshort, rfl⟩]
  exact Option.some_ne_none _

/-- Where a step overrides something, a strict document fails. -/
theorem step_of_clash (h : d.clash? s = some e) : d.step grammar true s = .error (conflictFault e) := by
  cases s with
  | write param value origin =>
      obtain ⟨hkey, previous, hfind, hvalue, hshort, rfl⟩ := clash?_write.mp h
      simp only [step, write, hkey, hfind, hvalue, hshort, Bool.not_true, Bool.false_eq_true, ↓reduceIte]
      rfl
  | _ => cases h

/-- Where a step overrides something, a lenient document goes on with a warning. -/
theorem conflicts_of_clash (h : d.clash? s = some e) : ∃ next, d.step grammar false s = .ok next ∧
    conflicts next.findings = conflicts d.findings ++ [overrideWarning e] := by
  cases s with
  | write param value origin =>
      obtain ⟨hkey, previous, hfind, hvalue, hshort, rfl⟩ := clash?_write.mp h
      refine ⟨(d.report (conflictWarning param value origin previous)).override param value origin, ?_, ?_⟩
      · simp only [step, write, hkey, hfind, hvalue, hshort, Bool.not_true, Bool.false_eq_true, ↓reduceIte]
      · show conflicts (d.findings ++ [_]) = _
        rw [conflicts_append]
        rfl
  | _ => cases h

/-- Where a step overrides nothing, strictness makes no difference. -/
theorem step_of_no_clash (h : d.clash? s = none) : d.step grammar true s = d.step grammar false s := by
  cases s with
  | write param value origin =>
      show d.write true param value origin = d.write false param value origin
      generalize hstrict : d.write true param value origin = outcome
      cases writeCase hstrict with
      | unhashable hkeyless => simp only [write, hkeyless, Bool.not_false, ↓reduceIte]
      | new hkey hfind => simp only [write, hkey, hfind, Bool.not_true, Bool.false_eq_true, ↓reduceIte]
      | repeated hkey hfind hvalue =>
          simp only [write, hkey, hfind, hvalue, Bool.not_true, Bool.false_eq_true, ↓reduceIte]
      | untold hkey hfind hvalue hlong =>
          simp only [write, hkey, hfind, hvalue, hlong, Bool.not_true, Bool.not_false, Bool.false_eq_true, ↓reduceIte]
      | refused hkey hfind hvalue hshort => exact absurd h (not_no_clash hkey hfind hvalue hshort)
      | override _ _ _ _ hlenient => cases hlenient
  | _ => rfl

/-- Where a step overrides nothing, no conflict is found. -/
theorem conflicts_of_no_clash (h : d.clash? s = none) (hquiet : s.Quiet) (htaken : d.step grammar false s = .ok next) :
    conflicts next.findings = conflicts d.findings := by
  cases s with
  | write param value origin =>
      cases writeCase htaken with
      | new | repeated => rfl
      | override hkey hfind hvalue hshort => exact absurd h (not_no_clash hkey hfind hvalue hshort)
  | report finding =>
      cases htaken
      show conflicts (d.findings ++ [finding]) = _
      rw [conflicts_append, conflicts_of_ne hquiet, List.append_nil]
  | carried role column into =>
      cases carriedCase htaken with
      | found => rfl
      | dropped =>
          show conflicts (d.findings ++ [_]) = _
          rw [conflicts_append, conflicts_of_ne (by simp [droppedWarning]), List.append_nil]
  | fail fault => cases htaken

/-- A lenient document fails for other reasons than conflicts. -/
theorem step_error (hquiet : s.Quiet) (h : d.step grammar false s = .error fault) : ¬fault.IsConflict := by
  cases s with
  | write param value origin =>
      cases writeCase h with
      | unhashable | untold => exact id
      | refused _ _ _ _ hstrict => cases hstrict
  | report finding => cases h
  | carried role column into =>
      cases carriedCase h with
      | unhashable | untold => exact id
  | fail reason =>
      cases h
      exact hquiet

/-! ### All steps -/

/-- A strict run is the lenient one, unless a step that is reached overrides something. -/
theorem run_true (grammar : String) (d : Document) (steps : List Step) : d.run grammar true steps =
    match firstClash? grammar d steps with
    | some e => .error (conflictFault e)
    | none => d.run grammar false steps := by
  induction steps generalizing d with
  | nil => rfl
  | cons s steps ih =>
      rw [run_cons, run_cons, firstClash?]
      cases hclash : d.clash? s with
      | some e =>
          rw [step_of_clash hclash]
          rfl
      | none =>
          rw [step_of_no_clash hclash]
          cases d.step grammar false s with
          | error fault => rfl
          | ok next => exact ih next

/-- The first conflict that a lenient run reports is about the first step that overrides anything. -/
theorem head?_conflicts_run (hquiet : ∀ s ∈ steps, s.Quiet) (hnone : conflicts d.findings = [])
    (htaken : d.run grammar false steps = .ok last) :
    (conflicts last.findings).head? = (firstClash? grammar d steps).map overrideWarning := by
  induction steps generalizing d with
  | nil =>
      cases htaken
      rw [hnone]
      rfl
  | cons s steps ih =>
      rw [List.forall_mem_cons] at hquiet
      rw [run_cons] at htaken
      obtain ⟨next, hstep, hrest⟩ := bind_eq_ok_iff.mp htaken
      rw [firstClash?]
      cases hclash : d.clash? s with
      | none =>
          rw [hstep]
          exact ih hquiet.2 ((conflicts_of_no_clash hclash hquiet.1 hstep).trans hnone) hrest
      | some e =>
          obtain ⟨next', hstep', hnext⟩ := conflicts_of_clash hclash
          rw [hstep, Except.ok.injEq] at hstep'
          rw [← hstep', hnone, List.nil_append] at hnext
          obtain ⟨later, hlater⟩ := (findings_run hrest).filter fun f => f.code == .conflict
          show (conflicts last.findings).head? = some (overrideWarning e)
          rw [show conflicts last.findings = conflicts next.findings ++ later from hlater.symm, hnext]
          rfl

/-- What is overridden first is overridden by a step that is reached. -/
theorem reached_of_firstClash? (h : firstClash? grammar d steps = some e) : ∃ done s rest next,
    steps = done ++ s :: rest ∧ d.run grammar false done = .ok next ∧ next.clash? s = some e := by
  induction steps generalizing d with
  | nil => cases h
  | cons s steps ih =>
      rw [firstClash?] at h
      cases hclash : d.clash? s with
      | some e' =>
          rw [hclash] at h
          cases h
          exact ⟨[], s, steps, d, rfl, rfl, hclash⟩
      | none =>
          rw [hclash] at h
          cases hstep : d.step grammar false s with
          | error fault =>
              rw [hstep] at h
              cases h
          | ok next =>
              rw [hstep] at h
              obtain ⟨done, s', rest, next', rfl, hdone, hclash'⟩ := ih h
              refine ⟨s :: done, s', rest, next', rfl, ?_, hclash'⟩
              rw [run_cons]
              exact bind_eq_ok_iff.mpr ⟨next, hstep, hdone⟩

/-- If nothing is overridden first, no step that is reached overrides anything. -/
theorem no_clash_of_firstClash? (h : firstClash? grammar d steps = none) {done rest : List Step}
    (hsplit : steps = done ++ s :: rest) (hdone : d.run grammar false done = .ok next) : next.clash? s = none := by
  induction done generalizing steps d with
  | nil =>
      cases hdone
      rw [hsplit, List.nil_append, firstClash?] at h
      cases hclash : next.clash? s with
      | none => rfl
      | some e =>
          rw [hclash] at h
          cases h
  | cons s' done ih =>
      rw [run_cons] at hdone
      obtain ⟨next', hstep, hdone⟩ := bind_eq_ok_iff.mp hdone
      rw [hsplit, List.cons_append, firstClash?, hstep] at h
      -- The first step overrides nothing either, or it would have been the first override.
      split at h
      · cases h
      · exact ih h rfl hdone

theorem run_error (hquiet : ∀ s ∈ steps, s.Quiet) (h : d.run grammar false steps = .error fault) :
    ¬fault.IsConflict := by
  induction steps generalizing d with
  | nil => cases h
  | cons s steps ih =>
      rw [List.forall_mem_cons] at hquiet
      rw [run_cons] at h
      cases hstep : d.step grammar false s with
      | error fault' =>
          rw [hstep] at h
          cases h
          exact step_error hquiet.1 hstep
      | ok next =>
          rw [hstep] at h
          exact ih hquiet.2 h

end Document

namespace Rendering

open Document

/-- A write of a rendering that overrides another one, reached before anything fails. -/
def Clash (r : Registry) (c : Chart) (grammar : String) (e : Parameter × Parameter) : Prop :=
  ∃ rows done s rest d, rowsFor r c grammar = .ok rows ∧ steps r c grammar rows = done ++ s :: rest ∧
    Document.empty.run grammar false done = .ok d ∧ d.clash? s = some e

variable {r : Registry} {c : Chart} {grammar : String} {rows : KindRows} {fault : Fault}

theorem ofChart_of_rowsFor {strict : Bool} (h : rowsFor r c grammar = .ok rows) : ofChart r c grammar strict =
    (fun d => ⟨grammar, c.kind, d.entries, d.findings⟩) <$>
      Document.empty.run grammar strict (steps r c grammar rows) := by
  rw [ofChart, h]
  rfl

theorem ofChart_of_error {strict : Bool} (h : rowsFor r c grammar = .error fault) :
    ofChart r c grammar strict = .error fault := by
  rw [ofChart, h]
  rfl

/-- Before the first step nothing fails for a conflict. -/
theorem rowsFor_error (h : rowsFor r c grammar = .error fault) : ¬fault.IsConflict := by
  unfold rowsFor Registry.table at h
  split at h
  · dsimp only [Bind.bind, Except.bind] at h
    split at h
    · cases h
      exact id
    · split at h
      · cases h
        exact id
      · cases h
  · cases h
    exact id

theorem error_of_ofChart (hquiet : ∀ s ∈ steps r c grammar rows, s.Quiet) (hrows : rowsFor r c grammar = .ok rows)
    (h : ofChart r c grammar false = .error fault) : ¬fault.IsConflict := by
  rw [ofChart_of_rowsFor hrows] at h
  cases hrun : Document.empty.run grammar false (steps r c grammar rows) with
  | ok d =>
      rw [hrun] at h
      cases h
  | error fault' =>
      rw [hrun] at h
      cases h
      exact run_error hquiet hrun

/-- Without a first override strictness makes no difference, and no write that is reached overrides another. -/
theorem ofChart_of_no_clash (hrows : rowsFor r c grammar = .ok rows)
    (h : firstClash? grammar .empty (steps r c grammar rows) = none) :
    ofChart r c grammar true = ofChart r c grammar false ∧ ∀ e, ¬Clash r c grammar e := by
  constructor
  · rw [ofChart_of_rowsFor hrows, ofChart_of_rowsFor hrows, run_true, h]
  · rintro e ⟨rows', done, s, rest, d, hrows', hsplit, hdone, hclash⟩
    rw [hrows, Except.ok.injEq] at hrows'
    subst hrows'
    rw [no_clash_of_firstClash? h hsplit hdone] at hclash
    cases hclash

/-- The first override makes the strict rendering fail. -/
theorem ofChart_of_clash (hrows : rowsFor r c grammar = .ok rows) {e : Parameter × Parameter}
    (h : firstClash? grammar .empty (steps r c grammar rows) = some e) :
    ofChart r c grammar true = .error (conflictFault e) ∧ Clash r c grammar e := by
  constructor
  · rw [ofChart_of_rowsFor hrows, run_true, h]
    rfl
  · obtain ⟨done, s, rest, d, hsplit, hdone, hclash⟩ := reached_of_firstClash? h
    exact ⟨rows, done, s, rest, d, hrows, hsplit, hdone, hclash⟩

/-- The first conflict of a rendering is about its first override. -/
theorem head?_conflicts_of_ofChart (hquiet : ∀ s ∈ steps r c grammar rows, s.Quiet)
    (hrows : rowsFor r c grammar = .ok rows) {out : Rendering} (h : ofChart r c grammar false = .ok out) :
    (conflicts out.diagnostics).head? =
      (firstClash? grammar .empty (steps r c grammar rows)).map overrideWarning := by
  obtain ⟨rows', d, hrows', hrun, rfl⟩ := ofChart_eq_ok_iff.mp h
  rw [hrows, Except.ok.injEq] at hrows'
  subst hrows'
  exact head?_conflicts_run hquiet rfl hrun

/-- The rendering that refuses conflicts, and the one that lets them pass, agree up to the first conflict. -/
structure AgreeUpToConflict (r : Registry) (c : Chart) (grammar : String) : Prop where
  /-- What the strict one gives, the lenient one gives too, and there is no conflict in it. -/
  strict_ok : ∀ out, ofChart r c grammar true = .ok out →
    ofChart r c grammar false = .ok out ∧ conflicts out.diagnostics = []
  /-- What the lenient one gives without a conflict, the strict one gives too. -/
  lenient_ok : ∀ out, ofChart r c grammar false = .ok out → conflicts out.diagnostics = [] →
    ofChart r c grammar true = .ok out
  /-- Where the lenient one finds conflicts, the strict one fails with the data of the first. -/
  lenient_conflict : ∀ out, ofChart r c grammar false = .ok out → conflicts out.diagnostics ≠ [] →
    ∃ e, ofChart r c grammar true = .error (conflictFault e) ∧
      (conflicts out.diagnostics).head? = some (overrideWarning e)
  /-- Where the lenient one fails, it is not for a conflict. The strict one fails for the same reason, or for a
  conflict if a write that is reached before the failure overrides another, and only then. -/
  lenient_error : ∀ fault, ofChart r c grammar false = .error fault → ¬fault.IsConflict ∧
    (ofChart r c grammar true = .error fault ∧ (∀ e, ¬Clash r c grammar e) ∨
      ∃ e, ofChart r c grammar true = .error (conflictFault e) ∧ Clash r c grammar e)

/-- They agree where nothing is rendered at all. -/
theorem agree_of_error (hrows : rowsFor r c grammar = .error fault) : AgreeUpToConflict r c grammar := by
  have hlenient : ofChart r c grammar false = .error fault := ofChart_of_error hrows
  have hstrict : ofChart r c grammar true = .error fault := ofChart_of_error hrows
  have hnever : ∀ e, ¬Clash r c grammar e := by
    rintro e ⟨rows, done, s, rest, d, hrows', -⟩
    rw [hrows] at hrows'
    cases hrows'
  constructor
  · intro out h
    rw [hstrict] at h
    cases h
  · intro out h
    rw [hlenient] at h
    cases h
  · intro out h
    rw [hlenient] at h
    cases h
  · intro fault' h
    rw [hlenient] at h
    cases h
    exact ⟨rowsFor_error hrows, .inl ⟨hstrict, hnever⟩⟩

/-- They agree where no write that is reached overrides another. -/
theorem agree_of_no_clash (hquiet : ∀ s ∈ steps r c grammar rows, s.Quiet) (hrows : rowsFor r c grammar = .ok rows)
    (h : firstClash? grammar .empty (steps r c grammar rows) = none) : AgreeUpToConflict r c grammar := by
  obtain ⟨hsame, hnever⟩ := ofChart_of_no_clash hrows h
  have hnone : ∀ out, ofChart r c grammar false = .ok out → conflicts out.diagnostics = [] := by
    intro out hout
    have hhead := head?_conflicts_of_ofChart hquiet hrows hout
    rw [h, Option.map_none] at hhead
    exact List.head?_eq_none_iff.mp hhead
  constructor
  · intro out hout
    rw [hsame] at hout
    exact ⟨hout, hnone out hout⟩
  · intro out hout _
    rw [hsame]
    exact hout
  · intro out hout hsome
    exact absurd (hnone out hout) hsome
  · intro fault hfault
    exact ⟨error_of_ofChart hquiet hrows hfault, .inl ⟨hsame.trans hfault, hnever⟩⟩

/-- They agree up to the first write that is reached and overrides another. -/
theorem agree_of_clash (hquiet : ∀ s ∈ steps r c grammar rows, s.Quiet) (hrows : rowsFor r c grammar = .ok rows)
    {e : Parameter × Parameter} (h : firstClash? grammar .empty (steps r c grammar rows) = some e) :
    AgreeUpToConflict r c grammar := by
  obtain ⟨hstrict, hclash⟩ := ofChart_of_clash hrows h
  have hhead : ∀ out, ofChart r c grammar false = .ok out →
      (conflicts out.diagnostics).head? = some (overrideWarning e) := by
    intro out hout
    rw [head?_conflicts_of_ofChart hquiet hrows hout, h, Option.map_some]
  constructor
  · intro out hout
    rw [hstrict] at hout
    cases hout
  · intro out hout hnone
    have hsome := hhead out hout
    rw [hnone] at hsome
    cases hsome
  · intro out hout _
    exact ⟨e, hstrict, hhead out hout⟩
  · intro fault hfault
    exact ⟨error_of_ofChart hquiet hrows hfault, .inr ⟨e, hstrict, hclash⟩⟩

/-- For every registry, every chart that calls lead to and every grammar, strict and lenient rendering agree up to
the first conflict. -/
theorem strict_up_to_first_conflict (r : Registry) {k : Desk} (hk : k.Reachable) (grammar : String) :
    AgreeUpToConflict r k.chart grammar := by
  cases hrows : rowsFor r k.chart grammar with
  | error fault => exact agree_of_error hrows
  | ok rows =>
      have hholds : Holds (steps r k.chart grammar rows) (writes k.chart rows) := holds_steps hk.no_conflict
      cases hfirst : firstClash? grammar .empty (steps r k.chart grammar rows) with
      | none => exact agree_of_no_clash hholds.quiet hrows hfirst
      | some e => exact agree_of_clash hholds.quiet hrows hfirst

/-- The lenient rendering warns of what makes the strict one fail. -/
theorem strict_up_to_first_conflict_filledTwice :
    Desk.filledTwice.Reachable ∧ ∃ out e, ofChart .shipped Desk.filledTwice.chart "layered" false = .ok out ∧
      conflicts out.diagnostics ≠ [] ∧
      ofChart .shipped Desk.filledTwice.chart "layered" true = .error (conflictFault e) ∧
      (conflicts out.diagnostics).head? = some (overrideWarning e) ∧
      conflictFault e = .rendering (.conflict (.text "geom.fill") (.role .fill) (.style .fillColor) (.text "red")
        (.text "blue")) := by
  have hreach := Desk.reachable_filledTwice
  obtain ⟨out, hout, hsome⟩ : ∃ out, ofChart .shipped Desk.filledTwice.chart "layered" false = .ok out ∧
      conflicts out.diagnostics ≠ [] := ⟨_, rfl, List.cons_ne_nil _ _⟩
  have hagree := strict_up_to_first_conflict .shipped hreach "layered"
  obtain ⟨e, hstrict, hhead⟩ := hagree.lenient_conflict out hout hsome
  exact ⟨hreach, out, e, hout, hsome, hstrict, hhead, Except.error.inj (hstrict.symm.trans rfl)⟩

end Rendering

end ChartGrammar
