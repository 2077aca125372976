import ChartGrammar.Proofs.Chart.Sketches
import ChartGrammar.Proofs.Schema.RoundTrip
import Mathlib.Data.List.Induction

/-! Definitions on a schema that is changed in place, with values of any sort for the parts of a column. A definition adds
one column after the others or leaves the schema as it was. What it adds has a name of its own that is not blank, a type
of the four, and the very number of distinct values that it was given, which is not below zero. That this number be an
integer is not asked for: a datum of double precision is taken, even one that is no number, and of a value that has no
place in the order of numbers it is not said that it is wrong. Nor is it said of a part that cannot be written. -/

namespace ChartGrammar

theorem Number.lt_whole_iff {m n : Int} : (Number.whole m).lt (.whole n) = true ↔ m < n := by
  simp only [Number.lt, Number.place?, Number.Place.lt, decide_eq_true_eq]
  exact Rat.intCast_lt_intCast

/-- The number of distinct values is not known, or an integer from zero on. -/
def Column.Counted (c : Column) : Prop :=
  ∀ n, c.cardinality = some n → ∃ m : Int, n = .whole m ∧ 0 ≤ m

/-- A definition as it is asked for. -/
structure Definition where
  name : Value
  type : Value
  cardinality : Value

namespace Definition

/-- The column has the name and the type of the definition, and no column of the schema has the name. -/
structure Names (d : Definition) (s : Schema) (c : Column) : Prop where
  name : d.name = .text c.name
  visible : Text.blank c.name = false
  free : c.name ∉ s.names
  type : d.type = .text c.type.name

/-- The number of distinct values is a datum of double precision that is not below zero. -/
def Estimates (d : Definition) (x : Binary64) : Prop :=
  d.cardinality = .float x ∧ (Number.real x).lt (.whole 0) = false

/-- Name and type are those of a column, but its distinct values are not counted: their number is a datum that is not
below zero, or neither null nor a truth value nor any number. -/
def Miscounts (d : Definition) (s : Schema) : Prop :=
  (∃ c, d.Names s c) ∧ ((∃ x, d.Estimates x) ∨ d.cardinality ≠ .null ∧ d.cardinality.quantity? = none)

/-- The part that the definition would be refused for cannot be written: the name, or the type under a name that is
free, or a number of distinct values below zero. -/
inductive Unwritable (d : Definition) (s : Schema) : Prop
  | name (hname : ∀ column, d.name ≠ .text column) (hillegible : d.name.legible = false)
  | type {column : String} (hname : d.name = .text column) (hvisible : Text.blank column = false)
      (hfree : column ∉ s.names) (htype : ∀ t : ColumnType, d.type ≠ .text t.name)
      (hillegible : d.type.legible = false)
  | cardinality {c : Column} {m : Int} (hnames : d.Names s c) (hvalue : d.cardinality = .int m) (hneg : m < 0)
      (hillegible : d.cardinality.legible = false)

/-- Carries out the definition on a schema, in place. -/
def perform (d : Definition) : Work Schema Column :=
  Schema.addColumn d.name d.type d.cardinality

/-- The definition adds one column of its name and its type, of which the distinct values are counted if they are known;
or it is refused for a fault of construction and leaves the schema as it was. -/
def AddsOrRefuses (d : Definition) (s : Schema) : Prop :=
  (∃ c, d.perform.run s = .ok c ⟨s.columns ++ [c]⟩ ∧ d.Names s c ∧ c.Counted) ∨
    ∃ fault, d.perform.run s = .error (.construction fault) s

end Definition

namespace Schema

variable {s : Schema} {d : Definition}

/-- The schema after a definition. What a definition did before its fault is not undone. -/
def after (s : Schema) (d : Definition) : Schema :=
  match d.perform.run s with
  | .ok _ t => t
  | .error _ t => t

/-- The schema after some definitions. -/
def run (s : Schema) (definitions : List Definition) : Schema :=
  definitions.foldl after s

/-! ### One definition -/

/-- What a value comes to that is given as the number of distinct values. -/
inductive HintCase (column : String) (v : Value) : Prop
  | unknown (hvalue : v = .null) (hread : readCardinality column v = .ok none)
  | counted (m : Int) (hvalue : v = .int m) (hcounted : 0 ≤ m) (hread : readCardinality column v = .ok (some (.whole m)))
  | estimated (x : Binary64) (hvalue : v = .float x) (hcounted : (Number.real x).lt (.whole 0) = false)
      (hread : readCardinality column v = .ok (some (.real x)))
  | refused (fault : ConstructionFault) (hquantity : v.quantity? ≠ none)
      (hvalue : ∀ x, v = .float x → (Number.real x).lt (.whole 0) = true)
      (hread : readCardinality column v = .error (.construction fault))
  | unwritten (m : Int) (hvalue : v = .int m) (hneg : m < 0) (hillegible : v.legible = false)
      (hread : readCardinality column v = .error (.misuse .tooLong))
  | misused (hnull : v ≠ .null) (hnone : v.quantity? = none)
      (hread : readCardinality column v = .error (.misuse .incomparable))

theorem hintCase (column : String) (v : Value) : HintCase column v := by
  cases v with
  | null => exact .unknown rfl rfl
  | bool b => exact .refused _ (Option.some_ne_none _) (fun _ h => Value.noConfusion h) rfl
  | int m =>
      have hread : readCardinality column (.int m) = if (Number.whole m).lt (.whole 0) then
        .error (.about (.int m) (.construction (.cardinalityNegative column (.int m)))) else .ok (some (.whole m)) := rfl
      by_cases hneg : m < 0
      · rw [Number.lt_whole_iff.mpr hneg, Fault.about] at hread
        cases hlegible : (Value.int m).legible with
        | true =>
            rw [hlegible] at hread
            exact .refused _ (Option.some_ne_none _) (fun _ h => Value.noConfusion h) hread
        | false =>
            rw [hlegible] at hread
            exact .unwritten m rfl hneg hlegible hread
      · rw [Bool.eq_false_iff.mpr fun hlt => hneg (Number.lt_whole_iff.mp hlt)] at hread
        exact .counted m rfl (Int.not_lt.mp hneg) hread
  | float x =>
      have hread : readCardinality column (.float x) = if (Number.real x).lt (.whole 0) then
        .error (.construction (.cardinalityNegative column (.float x))) else .ok (some (.real x)) := rfl
      cases hlt : (Number.real x).lt (.whole 0) with
      | true =>
          rw [hlt] at hread
          exact .refused _ (Option.some_ne_none _) (fun y hy => by cases hy; exact hlt) hread
      | false =>
          rw [hlt] at hread
          exact .estimated x rfl hlt hread
  | text | list | tuple | dict | unset | column | literal => exact .misused (fun h => Value.noConfusion h) rfl rfl

/-- Where name and type are those of a column, the number of distinct values decides. -/
theorem define_of_names {c : Column} (h : d.Names s c) : s.define d.name d.type d.cardinality =
    (readCardinality c.name d.cardinality).map fun hint =>
      (⟨s.columns ++ [⟨c.name, c.type, hint⟩]⟩, ⟨c.name, c.type, hint⟩) := by
  have htype : Vocabulary.ofValue? d.type = some c.type := Vocabulary.ofValue?_eq_some_iff.mpr h.type
  have hfree : s.find? c.name = none := find?_eq_none_iff.mpr h.free
  rw [h.name, define, h.visible, hfree]
  simp only [Bool.false_eq_true, ↓reduceIte, Option.isSome_none, htype]
  cases readCardinality c.name d.cardinality <;> rfl

/-- A definition that is refused for a part which cannot be written is a misuse. -/
theorem define_of_unwritable (h : d.Unwritable s) :
    s.define d.name d.type d.cardinality = .error (.misuse .tooLong) := by
  cases h with
  | name hname hillegible =>
      unfold define
      split
      · next column hcolumn => exact absurd hcolumn (hname column)
      · rw [Fault.about, hillegible]
        rfl
  | type hname hvisible hfree htype hillegible =>
      have hnone : (Vocabulary.ofValue? d.type : Option ColumnType) = none := by
        rw [Option.eq_none_iff_forall_ne_some]
        exact fun t ht => htype t (Vocabulary.ofValue?_eq_some_iff.mp ht)
      rw [hname, define, hvisible, find?_eq_none_iff.mpr hfree, hnone]
      simp only [Fault.about, hillegible]
      rfl
  | @cardinality c m hnames hvalue hneg hillegible =>
      have hread : readCardinality c.name d.cardinality = .error (.misuse .tooLong) := by
        cases hintCase c.name d.cardinality with
        | unwritten _ _ _ _ hread => exact hread
        | counted n hint hcounted =>
            cases hvalue.symm.trans hint
            omega
        | refused fault _ _ hread =>
            rw [hvalue] at hread hillegible
            have hbelow : readCardinality c.name (.int m) =
                if (Number.whole m).lt (.whole 0) then _ else _ := rfl
            rw [hbelow, Number.lt_whole_iff.mpr hneg, Fault.about, hillegible] at hread
            cases hread
        | unknown hint | estimated _ hint => cases hvalue.symm.trans hint
        | misused _ hnone =>
            rw [hvalue] at hnone
            cases hnone
      rw [define_of_names hnames, hread]
      rfl

/-- A definition without the name or the type of a column is refused if what is wrong can be written. -/
theorem refused_of_not_names (h : ∀ c, ¬d.Names s c) :
    (∃ fault, s.define d.name d.type d.cardinality = .error (.construction fault)) ∨ d.Unwritable s := by
  have hwritten {v : Value} {fault : ConstructionFault} (hlegible : v.legible = true) :
      ∃ f, (.error (.about v (.construction fault)) : Except Fault (Schema × Column)) = .error (.construction f) :=
    ⟨fault, by rw [Fault.about, if_pos hlegible]⟩
  unfold define
  split
  · next column hname =>
      split
      · exact .inl ⟨_, rfl⟩
      · next hvisible =>
          split
          · exact .inl ⟨_, rfl⟩
          · next hfree =>
              replace hfree : column ∉ s.names := find?_eq_none_iff.mp (by simpa using hfree)
              split
              · next hnone =>
                  cases hlegible : d.type.legible with
                  | true => exact .inl (hwritten hlegible)
                  | false =>
                      refine .inr (.type hname (by simpa using hvisible) hfree (fun t ht => ?_) hlegible)
                      rw [Vocabulary.ofValue?_eq_some_iff.mpr ht] at hnone
                      cases hnone
              · next type htype =>
                  exact absurd ⟨hname, by simpa using hvisible, hfree, Vocabulary.ofValue?_eq_some_iff.mp htype⟩
                    (h ⟨column, type, none⟩)
  · next hname =>
      cases hlegible : d.name.legible with
      | true => exact .inl (hwritten hlegible)
      | false => exact .inr (.name hname hlegible)

/-- What a definition comes to. -/
inductive DefinitionCase (s : Schema) (d : Definition) : Prop
  | counted (c : Column) (hnames : d.Names s c) (hcounted : c.Counted) (hcounts : ¬d.Miscounts s)
      (hresult : s.define d.name d.type d.cardinality = .ok (⟨s.columns ++ [c]⟩, c))
  | estimated (c : Column) (x : Binary64) (hnames : d.Names s c) (hestimates : d.Estimates x)
      (hhint : c.cardinality = some (.real x))
      (hresult : s.define d.name d.type d.cardinality = .ok (⟨s.columns ++ [c]⟩, c))
  | refused (fault : ConstructionFault) (hcounts : ¬d.Miscounts s)
      (hresult : s.define d.name d.type d.cardinality = .error (.construction fault))
  | unwritten (hunwritable : d.Unwritable s) (hcounts : ¬d.Miscounts s)
      (hresult : s.define d.name d.type d.cardinality = .error (.misuse .tooLong))
  | misused (hmiscounts : d.Miscounts s) (hestimates : ∀ x, ¬d.Estimates x)
      (hresult : s.define d.name d.type d.cardinality = .error (.misuse .incomparable))

theorem definitionCase (s : Schema) (d : Definition) : DefinitionCase s d := by
  by_cases hnames : ∃ c, d.Names s c
  swap
  · have hcounts : ¬d.Miscounts s := fun hmiscounts => hnames hmiscounts.1
    obtain ⟨fault, hresult⟩ | hunwritable := refused_of_not_names (not_exists.mp hnames)
    · exact .refused fault hcounts hresult
    · exact .unwritten hunwritable hcounts (define_of_unwritable hunwritable)
  obtain ⟨c, hnames⟩ := hnames
  have hresult := define_of_names hnames
  have hadded (hint : Option Number) : d.Names s ⟨c.name, c.type, hint⟩ :=
    ⟨hnames.name, hnames.visible, hnames.free, hnames.type⟩
  cases hintCase c.name d.cardinality with
  | unknown hvalue hread =>
      rw [hread] at hresult
      refine .counted ⟨c.name, c.type, none⟩ (hadded none) nofun ?_ hresult
      rintro ⟨-, ⟨x, hx, -⟩ | ⟨hnull, -⟩⟩
      · rw [hvalue] at hx
        cases hx
      · exact hnull hvalue
  | counted m hvalue hcounted hread =>
      rw [hread] at hresult
      refine .counted ⟨c.name, c.type, some (.whole m)⟩ (hadded _) (fun n hn => ?_) ?_ hresult
      · cases hn
        exact ⟨m, rfl, hcounted⟩
      · rintro ⟨-, ⟨x, hx, -⟩ | ⟨-, hnone⟩⟩
        · rw [hvalue] at hx
          cases hx
        · rw [hvalue] at hnone
          cases hnone
  | estimated x hvalue hcounted hread =>
      rw [hread] at hresult
      exact .estimated ⟨c.name, c.type, some (.real x)⟩ x (hadded _) ⟨hvalue, hcounted⟩ rfl hresult
  | refused fault hquantity hvalue hread =>
      rw [hread] at hresult
      refine .refused fault ?_ hresult
      rintro ⟨-, ⟨x, hx, hcounted⟩ | ⟨-, hnone⟩⟩
      · rw [hvalue x hx] at hcounted
        cases hcounted
      · exact hquantity hnone
  | unwritten m hvalue hneg hillegible hread =>
      rw [hread] at hresult
      refine .unwritten (.cardinality hnames hvalue hneg hillegible) ?_ hresult
      rintro ⟨-, ⟨x, hx, -⟩ | ⟨-, hnone⟩⟩
      · cases hvalue.symm.trans hx
      · rw [hvalue] at hnone
        cases hnone
  | misused hnull hnone hread =>
      rw [hread] at hresult
      refine .misused ⟨⟨c, hnames⟩, .inr ⟨hnull, hnone⟩⟩ (fun x hestimates => ?_) hresult
      rw [hestimates.1] at hnone
      cases hnone

/-- A definition does to the schema in place what it comes to. -/
theorem run_perform_of_ok {c : Column} {t : Schema} (h : s.define d.name d.type d.cardinality = .ok (t, c)) :
    d.perform.run s = .ok c t := by
  have hmirrors := addColumn_mirrors s d.name d.type d.cardinality
  rw [h] at hmirrors
  show (addColumn d.name d.type d.cardinality).run s = _
  generalize (addColumn d.name d.type d.cardinality).run s = result at hmirrors ⊢
  cases hmirrors with
  | ok hadded =>
      cases hadded
      rfl

theorem run_perform_of_error {fault : Fault} (h : s.define d.name d.type d.cardinality = .error fault) :
    d.perform.run s = .error fault s := by
  have hmirrors := addColumn_mirrors s d.name d.type d.cardinality
  rw [h] at hmirrors
  show (addColumn d.name d.type d.cardinality).run s = _
  generalize (addColumn d.name d.type d.cardinality).run s = result at hmirrors ⊢
  cases hmirrors
  rfl

/-- A definition adds a column or is refused, unless it miscounts or what is wrong with it cannot be written. -/
theorem addsOrRefuses_iff : d.AddsOrRefuses s ↔ ¬d.Miscounts s ∧ ¬d.Unwritable s := by
  have hwritable {outcome : Except Fault (Schema × Column)}
      (hresult : s.define d.name d.type d.cardinality = outcome) (h : outcome ≠ .error (.misuse .tooLong)) :
      ¬d.Unwritable s := fun hunwritable => h (hresult.symm.trans (define_of_unwritable hunwritable))
  cases definitionCase s d with
  | counted c hnames hcounted hcounts hresult =>
      exact iff_of_true (.inl ⟨c, run_perform_of_ok hresult, hnames, hcounted⟩) ⟨hcounts, hwritable hresult nofun⟩
  | refused fault hcounts hresult =>
      exact iff_of_true (.inr ⟨fault, run_perform_of_error hresult⟩) ⟨hcounts, hwritable hresult nofun⟩
  | unwritten hunwritable _ hresult =>
      refine iff_of_false ?_ fun h => h.2 hunwritable
      rintro (⟨c, hrun, -⟩ | ⟨fault, hrun⟩)
      · rw [run_perform_of_error hresult] at hrun
        cases hrun
      · rw [run_perform_of_error hresult] at hrun
        cases hrun
  | estimated c x hnames hestimates hhint hresult =>
      refine iff_of_false ?_ fun h => h.1 ⟨⟨c, hnames⟩, .inl ⟨x, hestimates⟩⟩
      rintro (⟨other, hrun, -, hcounted⟩ | ⟨fault, hrun⟩)
      · rw [run_perform_of_ok hresult] at hrun
        cases hrun
        obtain ⟨m, hm, -⟩ := hcounted _ hhint
        cases hm
      · rw [run_perform_of_ok hresult] at hrun
        cases hrun
  | misused hmiscounts _ hresult =>
      refine iff_of_false ?_ fun h => h.1 hmiscounts
      rintro (⟨c, hrun, -⟩ | ⟨fault, hrun⟩)
      · rw [run_perform_of_error hresult] at hrun
        cases hrun
      · rw [run_perform_of_error hresult] at hrun
        cases hrun

/-- A definition that miscounts adds a column whose distinct values are estimated, or it is a misuse; nothing is said
against it, but the schema is as it was. -/
theorem estimated_or_misused (h : d.Miscounts s) :
    (∃ c x, d.perform.run s = .ok c ⟨s.columns ++ [c]⟩ ∧ d.Names s c ∧ d.Estimates x ∧
      c.cardinality = some (.real x)) ∨
    (∀ x, ¬d.Estimates x) ∧ d.perform.run s = .error (.misuse .incomparable) s := by
  cases definitionCase s d with
  | counted _ _ _ hcounts | refused _ hcounts | unwritten _ hcounts => exact absurd h hcounts
  | estimated c x hnames hestimates hhint hresult =>
      exact .inl ⟨c, x, run_perform_of_ok hresult, hnames, hestimates, hhint⟩
  | misused _ hestimates hresult => exact .inr ⟨hestimates, run_perform_of_error hresult⟩

/-! ### Definitions one after another -/

/-- The distinct values of the column are counted if they are known, unless one of the definitions estimated them. -/
def Accounted (definitions : List Definition) (c : Column) : Prop :=
  c.Counted ∨ ∃ d ∈ definitions, d.name = .text c.name ∧ ∃ x, d.Estimates x ∧ c.cardinality = some (.real x)

theorem Accounted.mono {definitions more : List Definition} {c : Column} (h : Accounted definitions c) :
    Accounted (definitions ++ more) c :=
  h.imp_right fun ⟨d, hd, hestimated⟩ => ⟨d, List.mem_append_left more hd, hestimated⟩

theorem after_of_ok {c : Column} {t : Schema} (h : s.define d.name d.type d.cardinality = .ok (t, c)) :
    s.after d = t := by
  rw [after, run_perform_of_ok h]

theorem after_of_error {fault : Fault} (h : s.define d.name d.type d.cardinality = .error fault) : s.after d = s := by
  rw [after, run_perform_of_error h]

/-- One more definition keeps a schema sound and its columns accounted for. -/
theorem sound_and_accounted_after {definitions : List Definition}
    (h : s.Sound ∧ ∀ c ∈ s.columns, Accounted definitions c) :
    (s.after d).Sound ∧ ∀ c ∈ (s.after d).columns, Accounted (definitions ++ [d]) c := by
  have hkept : ∀ c ∈ s.columns, Accounted (definitions ++ [d]) c := fun c hc => (h.2 c hc).mono
  have hgrown {c : Column} (hresult : s.define d.name d.type d.cardinality = .ok (⟨s.columns ++ [c]⟩, c))
      (hadded : Accounted (definitions ++ [d]) c) :
      (s.after d).Sound ∧ ∀ c ∈ (s.after d).columns, Accounted (definitions ++ [d]) c := by
    rw [after_of_ok hresult]
    refine ⟨h.1.define hresult, ?_⟩
    rw [List.forall_mem_append, List.forall_mem_singleton]
    exact ⟨hkept, hadded⟩
  cases definitionCase s d with
  | counted c _ hcounted _ hresult => exact hgrown hresult (.inl hcounted)
  | estimated c x hnames hestimates hhint hresult =>
      refine hgrown hresult (.inr ⟨d, List.mem_append_right _ List.mem_cons_self, hnames.name, x, hestimates, hhint⟩)
  | refused _ _ hresult | unwritten _ _ hresult | misused _ _ hresult =>
      rw [after_of_error hresult]
      exact ⟨h.1, hkept⟩

/-- Definitions make a sound schema of no columns, whose columns are accounted for. -/
theorem sound_and_accounted_run (definitions : List Definition) :
    (empty.run definitions).Sound ∧ ∀ c ∈ (empty.run definitions).columns, Accounted definitions c := by
  induction definitions using List.reverseRecOn with
  | nil => exact ⟨Built.empty.sound, List.forall_mem_nil _⟩
  | append_singleton definitions d ih =>
      have hrun : empty.run (definitions ++ [d]) = (empty.run definitions).after d := List.foldl_append
      rw [hrun]
      exact sound_and_accounted_after ih

/-- After any definitions, carried out or not, a further one adds a column or is refused, unless it miscounts or what is
wrong with it cannot be written. One that miscounts either adds a column with an estimate or ends in a misuse and adds
nothing, and so does one that would be refused for what cannot be written. So the columns have names of their own that
are not blank, and their distinct values are counted if they are known, except where a definition estimated them. -/
theorem added_or_refused_unless_miscounted (definitions : List Definition) (d : Definition) :
    let s := empty.run definitions
    (d.AddsOrRefuses s ↔ ¬d.Miscounts s ∧ ¬d.Unwritable s) ∧
    (d.Miscounts s →
      (∃ c x, d.perform.run s = .ok c ⟨s.columns ++ [c]⟩ ∧ d.Names s c ∧ d.Estimates x ∧
        c.cardinality = some (.real x)) ∨
      (∀ x, ¬d.Estimates x) ∧ d.perform.run s = .error (.misuse .incomparable) s) ∧
    (d.Unwritable s → d.perform.run s = .error (.misuse .tooLong) s) ∧
    s.names.Nodup ∧ ∀ c ∈ s.columns, Text.blank c.name = false ∧ Accounted definitions c := by
  intro s
  obtain ⟨hsound, haccounted⟩ := sound_and_accounted_run definitions
  exact ⟨addsOrRefuses_iff, estimated_or_misused,
    fun hunwritable => run_perform_of_error (define_of_unwritable hunwritable), hsound.distinct,
    fun c hc => ⟨hsound.visible c hc, haccounted c hc⟩⟩

/-- Two and a half. -/
def twoAndHalf : Binary64 := ⟨0x4004000000000000⟩

/-- A number of distinct values that is a text is a misuse, and so is one below zero of too many digits; the columns that
were defined before are as they were. -/
theorem added_or_refused_unless_miscounted_text :
    let definitions := [Definition.mk (.text "Age") (.text "numeric") (.float twoAndHalf),
      ⟨.text "Age", .text "temporal", .null⟩, ⟨.text "Region", .text "categorical", .int 4⟩]
    let s : Schema := ⟨[⟨"Age", .numeric, some (.real twoAndHalf)⟩, ⟨"Region", .categorical, some (.whole 4)⟩]⟩
    let d := Definition.mk (.text "Sex") (.text "logical") (.text "2")
    let e := Definition.mk (.text "Sex") (.text "logical") (.int (-Text.leastTooLong))
    empty.run definitions = s ∧ d.Miscounts s ∧ d.perform.run s = .error (.misuse .incomparable) s ∧
      e.Unwritable s ∧ e.perform.run s = .error (.misuse .tooLong) s := by
  intro definitions s d e
  have hrun : empty.run definitions = s := by rfl
  have hmiscounts : d.Miscounts s := by
    refine ⟨⟨⟨"Sex", .logical, none⟩, rfl, by decide, by decide, rfl⟩, .inr ⟨nofun, rfl⟩⟩
  have hnames : e.Names s ⟨"Sex", .logical, none⟩ := ⟨rfl, by decide, by decide, rfl⟩
  have hpow : (0 : Int) < Text.leastTooLong := Int.natCast_pos.mpr Text.leastTooLong_pos
  have hunwritable : e.Unwritable s := by
    refine .cardinality hnames rfl (Int.neg_neg_of_pos hpow) ?_
    rw [Value.legible_neg, Value.legible_leastTooLong]
  obtain ⟨-, hends, -⟩ := added_or_refused_unless_miscounted definitions d
  obtain ⟨-, -, hunwritten, -⟩ := added_or_refused_unless_miscounted definitions e
  rw [hrun] at hends hunwritten
  obtain ⟨c, x, -, -, hestimates, -⟩ | ⟨-, hmisused⟩ := hends hmiscounts
  · cases hestimates.1
  · exact ⟨hrun, hmiscounts, hmisused, hunwritable, hunwritten hunwritable⟩

/-- A definition may add a column whose distinct values are known and not counted. -/
theorem not_added_or_refused_estimate : ¬ ∀ (definitions : List Definition) (d : Definition),
    d.AddsOrRefuses (empty.run definitions) := by
  intro h
  obtain ⟨c, hrun, -, hcounted⟩ | ⟨fault, hrun⟩ :=
    h [] ⟨.text "Age", .text "numeric", .float twoAndHalf⟩
  · cases hrun
    obtain ⟨m, hm, -⟩ := hcounted (.real twoAndHalf) rfl
    cases hm
  · cases hrun

end Schema

end ChartGrammar
