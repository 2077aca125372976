import ChartGrammar.Proofs.Rendering.Findings

/-! Documents that differ by what was put into one of them. Two runs of the same steps, one of them from a document into
which parameters and findings were put, stay side by side as long as no step writes to a name that was put in: each step
fails in both with one fault, or does the same to both. What is put in comes from writes to names that are new, and these
fail for nothing but a name that is no key. -/

namespace ChartGrammar

/-- Both fail, with one fault, or neither does and the results are related. -/
inductive SideBySide {α : Type} (rel : α → α → Prop) : Except Fault α → Except Fault α → Prop where
  | ok {a b : α} (h : rel a b) : SideBySide rel (.ok a) (.ok b)
  | error (fault : Fault) : SideBySide rel (.error fault) (.error fault)

/-- What goes on side by side after related results was side by side from the start. -/
theorem SideBySide.bind {α β : Type} {rel : α → α → Prop} {rel' : β → β → Prop} {first other : Except Fault α}
    {next further : α → Except Fault β} (h : SideBySide rel first other)
    (hnext : ∀ a b, first = .ok a → rel a b → SideBySide rel' (next a) (further b)) :
    SideBySide rel' (first >>= next) (other >>= further) := by
  cases h with
  | ok h => exact hnext _ _ rfl h
  | error fault => exact .error fault

theorem SideBySide.map {α β : Type} {rel : α → α → Prop} {rel' : β → β → Prop} {first other : Except Fault α}
    {f g : α → β} (h : SideBySide rel first other) (hrel : ∀ a b, first = .ok a → rel a b → rel' (f a) (g b)) :
    SideBySide rel' (f <$> first) (g <$> other) := by
  cases h with
  | ok h => exact .ok (hrel _ _ rfl h)
  | error fault => exact .error fault

namespace Document

variable {grammar : String} {strict : Bool} {d e : Document} {steps : List Step} {s : Step} {w : Parameter}
  {param value : Value} {origin : Origin} {params : List Parameter} {findings : List Diagnostic}

/-! ### Writes that are reached -/

/-- The write is one of the steps, and the steps before it can be taken from the document. -/
def Reaches (grammar : String) (strict : Bool) (d : Document) (steps : List Step) (w : Parameter) : Prop :=
  ∃ done rest next, steps = done ++ .write w.name w.value w.origin :: rest ∧ d.run grammar strict done = .ok next

theorem reaches_head : d.Reaches grammar strict (.write param value origin :: steps) ⟨param, value, origin⟩ :=
  ⟨[], steps, d, rfl, rfl⟩

theorem Reaches.append_left {first : List Step} (h : e.Reaches grammar strict steps w)
    (hfirst : d.run grammar strict first = .ok e) : d.Reaches grammar strict (first ++ steps) w := by
  obtain ⟨done, rest, next, rfl, hdone⟩ := h
  refine ⟨first ++ done, rest, next, (List.append_assoc ..).symm, ?_⟩
  rw [run_append]
  exact bind_eq_ok_iff.mpr ⟨e, hfirst, hdone⟩

theorem Reaches.append_right {later : List Step} (h : d.Reaches grammar strict steps w) :
    d.Reaches grammar strict (steps ++ later) w := by
  obtain ⟨done, rest, next, rfl, hdone⟩ := h
  exact ⟨done, rest ++ later, next, List.append_assoc .., hdone⟩

theorem Reaches.cons (h : e.Reaches grammar strict steps w) (hstep : d.step grammar strict s = .ok e) :
    d.Reaches grammar strict (s :: steps) w := by
  have hfirst : d.run grammar strict [s] = .ok e := by
    rw [run_cons, hstep]
    rfl
  exact h.append_left hfirst

/-- A parameter that a step leaves was there, or was written by the step. -/
theorem name_of_step (htaken : d.step grammar strict s = .ok e) {p : Parameter} (hp : p ∈ e.parameters) :
    (∃ q ∈ d.parameters, q.name = p.name) ∨ ∃ value origin, s = .write p.name value origin := by
  cases s with
  | write param value origin =>
      cases writeCase htaken with
      | new =>
          rcases List.mem_append.mp hp with hp | hp
          · exact .inl ⟨p, hp, rfl⟩
          · cases List.mem_singleton.mp hp
            exact .inr ⟨value, origin, rfl⟩
      | repeated => exact .inl ⟨p, hp, rfl⟩
      | override =>
          obtain ⟨q, hq, rfl⟩ := List.mem_map.mp hp
          refine .inl ⟨q, hq, ?_⟩
          split <;> rfl
  | report finding =>
      cases htaken
      exact .inl ⟨p, hp, rfl⟩
  | carried role column into =>
      cases carriedCase htaken with
      | found | dropped => exact .inl ⟨p, hp, rfl⟩
  | fail fault => cases htaken

/-- A parameter that steps leave was there, or its name was written to by a step that was reached. -/
theorem name_of_run (htaken : d.run grammar strict steps = .ok e) {p : Parameter} (hp : p ∈ e.parameters) :
    (∃ q ∈ d.parameters, q.name = p.name) ∨ ∃ w, d.Reaches grammar strict steps w ∧ w.name = p.name := by
  induction steps generalizing d with
  | nil =>
      cases htaken
      exact .inl ⟨p, hp, rfl⟩
  | cons s steps ih =>
      rw [run_cons] at htaken
      obtain ⟨next, hstep, hrest⟩ := bind_eq_ok_iff.mp htaken
      obtain ⟨q, hq, hname⟩ | ⟨w, hw, hname⟩ := ih hrest
      · rw [← hname]
        obtain hthere | ⟨value, origin, rfl⟩ := name_of_step hstep hq
        · exact .inl hthere
        · exact .inr ⟨_, reaches_head, rfl⟩
      · exact .inr ⟨w, hw.cons hstep, hname⟩

/-- Each parameter that steps leave in an empty document stands under a name that was written to. -/
theorem exists_reaches_of_run (htaken : empty.run grammar strict steps = .ok e) {p : Parameter}
    (hp : p ∈ e.parameters) : ∃ w, empty.Reaches grammar strict steps w ∧ w.name = p.name := by
  obtain ⟨q, hq, -⟩ | hreached := name_of_run htaken hp
  · exact absurd hq List.not_mem_nil
  · exact hreached

/-! ### Runs side by side -/

/-- The second document is the first with some parameters put in at one place, and some findings at another. -/
structure Inserts (params : List Parameter) (findings : List Diagnostic) (d e : Document) : Prop where
  parameters : ∃ before after, d.parameters = before ++ after ∧ e.parameters = before ++ params ++ after
  findings : ∃ first later, d.findings = first ++ later ∧ e.findings = first ++ findings ++ later

theorem Inserts.report (h : Inserts params findings d e) (f : Diagnostic) :
    Inserts params findings (d.report f) (e.report f) := by
  obtain ⟨first, later, hd, he⟩ := h.findings
  refine ⟨h.parameters, first, later ++ [f], ?_, ?_⟩
  · show d.findings ++ [f] = _
    rw [hd, List.append_assoc]
  · show e.findings ++ [f] = _
    rw [he, List.append_assoc]

theorem Inserts.append (h : Inserts params findings d e) (param value : Value) (origin : Origin) :
    Inserts params findings (d.append param value origin) (e.append param value origin) := by
  obtain ⟨before, after, hd, he⟩ := h.parameters
  refine ⟨⟨before, after ++ [⟨param, value, origin⟩], ?_, ?_⟩, h.findings⟩
  · show d.parameters ++ [_] = _
    rw [hd, List.append_assoc]
  · show e.parameters ++ [_] = _
    rw [he, List.append_assoc]

/-- The parameter is not one of those that were put in, so it is found as before. -/
theorem Inserts.find? (h : Inserts params findings d e) (hapart : ∀ p ∈ params, p.name.same param = false) :
    e.find? param = d.find? param := by
  obtain ⟨before, after, hd, he⟩ := h.parameters
  have hnone : params.find? (fun p => p.name.same param) = none :=
    List.find?_eq_none.mpr fun p hp => Bool.eq_false_iff.mp (hapart p hp)
  rw [Document.find?, Document.find?, hd, he, List.find?_append, List.find?_append, List.find?_append, hnone,
    Option.or_none]

theorem Inserts.override (h : Inserts params findings d e) (hapart : ∀ p ∈ params, p.name.same param = false)
    (value : Value) (origin : Origin) :
    Inserts params findings (d.override param value origin) (e.override param value origin) := by
  obtain ⟨before, after, hd, he⟩ := h.parameters
  have hkept : (params.map fun p => if p.name.same param then { p with value, origin } else p) = params := by
    refine (List.map_congr_left fun p hp => ?_).trans (List.map_id params)
    rw [hapart p hp]
    rfl
  let overridden (p : Parameter) : Parameter := if p.name.same param then { p with value, origin } else p
  refine ⟨⟨before.map overridden, after.map overridden, ?_, ?_⟩, h.findings⟩
  · show d.parameters.map overridden = _
    rw [hd, List.map_append]
  · show e.parameters.map overridden = _
    rw [he, List.map_append, List.map_append, hkept]

/-- A write to another name than those that were put in does the same to both documents. -/
theorem Inserts.write (h : Inserts params findings d e) (hapart : ∀ p ∈ params, p.name.same param = false) :
    SideBySide (Inserts params findings) (d.write strict param value origin) (e.write strict param value origin) := by
  unfold Document.write
  rw [h.find? hapart]
  split
  · exact .error _
  split
  · exact .ok (h.append param value origin)
  split
  · exact .ok h
  split
  · exact .error _
  split
  · exact .error _
  · exact .ok ((h.report _).override hapart value origin)

/-- Steps that do not check on columns, and of which none that is reached writes to a name that was put in, do the same to
both documents. -/
theorem Inserts.run (h : Inserts params findings d e) (hchecks : ∀ s ∈ steps, ¬s.Checks)
    (hapart : ∀ w, d.Reaches grammar strict steps w → ∀ p ∈ params, p.name.same w.name = false) :
    SideBySide (Inserts params findings) (d.run grammar strict steps) (e.run grammar strict steps) := by
  induction steps generalizing d e with
  | nil => exact .ok h
  | cons s steps ih =>
      rw [List.forall_mem_cons] at hchecks
      have hstep : SideBySide (Inserts params findings) (d.step grammar strict s) (e.step grammar strict s) := by
        cases s with
        | write param value origin => exact h.write (hapart _ reaches_head)
        | report f => exact .ok (h.report f)
        | carried role column into => exact absurd trivial hchecks.1
        | fail fault => exact .error fault
      rw [run_cons, run_cons]
      exact hstep.bind fun next other hnext hinserts => ih hinserts hchecks.2 fun w hw => hapart w (hw.cons hnext)

/-! ### Putting in -/

theorem run_reports (fs : List Diagnostic) :
    d.run grammar strict (fs.map .report) = .ok ⟨d.parameters, d.findings ++ fs⟩ := by
  induction fs generalizing d with
  | nil =>
      rw [List.append_nil]
      rfl
  | cons f fs ih =>
      rw [List.map_cons, run_cons]
      show (d.report f).run grammar strict (fs.map .report) = _
      rw [ih]
      show Except.ok (Document.mk d.parameters (d.findings ++ [f] ++ fs)) = _
      rw [List.append_assoc]
      rfl

/-- A write under a new name that can be one comes after the others. -/
theorem step_write_of_new (hkey : param.isKey = true) (hnew : ∀ p ∈ d.parameters, p.name.same param = false) :
    d.step grammar strict (.write param value origin) = .ok (d.append param value origin) := by
  have hnone : d.find? param = none := List.find?_eq_none.mpr fun p hp => Bool.eq_false_iff.mp (hnew p hp)
  rw [step, write, hkey, hnone]
  rfl

/-- What is new beside a document and different names stays new when the first of them is written. -/
theorem new_append {a : Value × Value} {own : Entries} (hdistinct : Entries.Distinct (a :: own))
    (hnew : ∀ p ∈ d.parameters, ∀ b ∈ a :: own, p.name.same b.1 = false) :
    ∀ p ∈ (d.append a.1 a.2 origin).parameters, ∀ b ∈ own, p.name.same b.1 = false := by
  refine List.forall_mem_append.mpr ⟨fun p hp b hb => hnew p hp b (List.mem_cons_of_mem a hb), ?_⟩
  exact List.forall_mem_singleton.mpr hdistinct.head

/-- Parameters of different names, none of them in the document, are written one after another as they are. -/
theorem run_writes {own : Entries} (hdistinct : own.Distinct)
    (hnew : ∀ p ∈ d.parameters, ∀ a ∈ own, p.name.same a.1 = false) (hkeys : ∀ a ∈ own, a.1.isKey = true) :
    d.run grammar strict (Step.writes own origin) = .ok ⟨d.parameters ++ own.writes origin, d.findings⟩ := by
  induction own generalizing d with
  | nil =>
      show Except.ok d = .ok ⟨d.parameters ++ [], d.findings⟩
      rw [List.append_nil]
  | cons a own ih =>
      have hfirst : d.step grammar strict (.write a.1 a.2 origin) = .ok (d.append a.1 a.2 origin) :=
        step_write_of_new (hkeys a List.mem_cons_self) fun p hp => hnew p hp a List.mem_cons_self
      show d.run grammar strict (.write a.1 a.2 origin :: Step.writes own origin) = _
      rw [run_cons, hfirst]
      refine (ih hdistinct.of_cons (new_append hdistinct hnew)
        fun b hb => hkeys b (List.mem_cons_of_mem a hb)).trans ?_
      show Except.ok (Document.mk (d.parameters ++ [_] ++ Entries.writes own origin) d.findings) = _
      rw [List.append_assoc]
      rfl

/-- If one of their names is no key, the writing fails for it. -/
theorem run_writes_error {own : Entries} (hdistinct : own.Distinct)
    (hnew : ∀ p ∈ d.parameters, ∀ a ∈ own, p.name.same a.1 = false) (hkeys : ∃ a ∈ own, a.1.isKey = false) :
    d.run grammar strict (Step.writes own origin) = .error (.misuse .unhashable) := by
  induction own generalizing d with
  | nil =>
      obtain ⟨a, ha, -⟩ := hkeys
      exact absurd ha List.not_mem_nil
  | cons a own ih =>
      show d.run grammar strict (.write a.1 a.2 origin :: Step.writes own origin) = _
      rw [run_cons]
      cases hkey : a.1.isKey with
      | false =>
          rw [step, write, hkey]
          rfl
      | true =>
          rw [step_write_of_new hkey fun p hp => hnew p hp a List.mem_cons_self]
          refine ih hdistinct.of_cons (new_append hdistinct hnew) ?_
          obtain ⟨b, hb, hbkey⟩ := hkeys
          obtain rfl | hb := List.mem_cons.mp hb
          · rw [hkey] at hbkey
            cases hbkey
          · exact ⟨b, hb, hbkey⟩

/-- Steps that write new parameters and report, put in among others, add just that: the others fail as before, or they do
what they did, unless a parameter cannot be written at all. -/
theorem run_inserted {own : Entries} {first later : List Step} (origin : Origin) (fs : List Diagnostic)
    (hdistinct : own.Distinct)
    (hapart : ∀ w, empty.Reaches grammar strict (first ++ later) w → ∀ a ∈ own, w.name.same a.1 = false)
    (hchecks : ∀ s ∈ later, ¬s.Checks) :
    let plain := empty.run grammar strict (first ++ later)
    let inserted := empty.run grammar strict (first ++ (Step.writes own origin ++ fs.map .report) ++ later)
    ((∀ a ∈ own, a.1.isKey = true) → SideBySide (Inserts (own.writes origin) fs) plain inserted) ∧
    ((∃ a ∈ own, a.1.isKey = false) →
      (∃ fault, plain = .error fault ∧ inserted = .error fault) ∨ inserted = .error (.misuse .unhashable)) := by
  dsimp only
  rw [run_append, run_append, run_append]
  cases hfirst : empty.run grammar strict first with
  | error fault => exact ⟨fun _ => .error fault, fun _ => .inl ⟨fault, rfl, rfl⟩⟩
  | ok d =>
      have hnew : ∀ p ∈ d.parameters, ∀ a ∈ own, p.name.same a.1 = false := by
        intro p hp
        obtain ⟨w, hw, hname⟩ := exists_reaches_of_run hfirst hp
        rw [← hname]
        exact hapart w hw.append_right
      constructor
      · intro hkeys
        show SideBySide _ (d.run grammar strict later)
          (d.run grammar strict (Step.writes own origin ++ fs.map .report) >>= fun e => e.run grammar strict later)
        rw [run_append, run_writes hdistinct hnew hkeys]
        show SideBySide _ _ (run _ _ _ (fs.map .report) >>= fun e => e.run grammar strict later)
        rw [run_reports]
        have hinserts : Inserts (own.writes origin) fs d ⟨d.parameters ++ own.writes origin, d.findings ++ fs⟩ :=
          ⟨⟨d.parameters, [], (List.append_nil _).symm, (List.append_nil _).symm⟩,
            d.findings, [], (List.append_nil _).symm, (List.append_nil _).symm⟩
        refine hinserts.run hchecks fun w hw p hp => ?_
        obtain ⟨a, ha, rfl⟩ := List.mem_map.mp hp
        -- The other way round the names are known to be apart; a name that is a key can be compared either way.
        rw [← Bool.not_eq_true]
        intro hsame
        have hsymm := Value.orderly_isKey.same_symm (hkeys a ha) hsame
        rw [hapart w (hw.append_left hfirst) a ha] at hsymm
        cases hsymm
      · intro hkeys
        refine .inr ?_
        show (d.run grammar strict (Step.writes own origin ++ fs.map .report) >>= _) = _
        rw [run_append, run_writes_error hdistinct hnew hkeys]
        rfl

end Document

end ChartGrammar
