import ChartGrammar.Outcome
import ChartGrammar.Value.Template

/-! Patterns that every value fills. A pattern whose fields hold nothing but the name of the value, in one of the
forms in which a value can be shown, has nothing that could be missing from the value. Only a value that is too long
to be written does not fill it. -/

namespace ChartGrammar

namespace Value

variable {α β : Type} {v : Value}

/-- The outcome is given, unless the value cannot be written. -/
def Yields (v : Value) (outcome : Except Misuse α) : Prop :=
  (∃ a, outcome = .ok a) ∨ v.legible = false ∧ outcome = .error .tooLong

theorem yields_ok (v : Value) (a : α) : v.Yields (.ok a) :=
  .inl ⟨a, rfl⟩

theorem Yields.bind {first : Except Misuse α} {second : α → Except Misuse β} (hfirst : v.Yields first)
    (hsecond : ∀ a, v.Yields (second a)) : v.Yields (first >>= second) := by
  obtain ⟨a, rfl⟩ | ⟨hlong, rfl⟩ := hfirst
  · exact hsecond a
  · exact .inr ⟨hlong, rfl⟩

theorem Yields.exists_ok {outcome : Except Misuse α} (h : v.Yields outcome) (hv : v.legible = true) :
    ∃ a, outcome = .ok a := by
  refine h.resolve_right ?_
  rintro ⟨hlong, -⟩
  rw [hv] at hlong
  cases hlong

theorem Yields.eq_tooLong {outcome : Except Misuse α} (h : v.Yields outcome) {m : Misuse}
    (herror : outcome = .error m) : m = .tooLong := by
  obtain ⟨a, hok⟩ | ⟨-, hlong⟩ := h
  · cases hok.symm.trans herror
  · exact Except.error.inj (herror.symm.trans hlong)

/-- What one of some values yields, all of them together yield. -/
theorem Yields.tuple {outcome : Except Misuse α} (h : v.Yields outcome) {items : List Value} (hv : v ∈ items) :
    (Value.tuple items).Yields outcome := by
  refine h.imp_right fun ⟨hlong, herror⟩ => ⟨?_, herror⟩
  rw [legible, Bool.eq_false_iff, ne_eq, areLegible_iff]
  intro hall
  rw [hall v hv] at hlong
  cases hlong

theorem yields_write (v : Value) : v.Yields v.write := by
  unfold write
  cases hv : v.legible with
  | true => exact .inl ⟨_, rfl⟩
  | false => exact .inr ⟨hv, rfl⟩

theorem yields_present (v : Value) : v.Yields v.present := by
  unfold present
  cases hv : v.legible with
  | true => exact .inl ⟨_, rfl⟩
  | false => exact .inr ⟨hv, rfl⟩

end Value

namespace Template

/-- A piece that every value fills: a character, or the value as a whole, in some form and without a layout. -/
def Piece.takesAny (field : List Char) : Piece → Bool
  | .char _ => true
  | .field f => f.name == field && f.form.all ['s', 'r', 'a'].contains && f.layout.isEmpty
  | .broken => false

/-- Whether every value fills a pattern. -/
def takesAny (pattern : Value) (field : String) : Bool :=
  match pattern with
  | .text s => (pieces s.toList).all (Piece.takesAny field.toList)
  | _ => false

/-- A field that stands for the value itself, whatever the value is. -/
def Names (field : List Char) : Prop :=
  ∀ value, lookUp field value field = .ok value

theorem names_value : Names "value".toList :=
  fun _ => rfl

theorem names_column : Names "column".toList :=
  fun _ => rfl

/-- A value in one of the forms in which it can be shown, without a layout. -/
theorem yields_showAs {v : Value} {form : Option Char} (h : form.all ['s', 'r', 'a'].contains = true) :
    v.Yields (showAs v form >>= fun shown => shown.layOut []) := by
  have htext {outcome : Except Misuse String} (form : String → Value) (hform : ∀ s, ∃ t, form s = .text t)
      (houtcome : v.Yields outcome) : v.Yields ((form <$> outcome) >>= fun shown => shown.layOut []) := by
    obtain ⟨s, rfl⟩ | ⟨hlong, rfl⟩ := houtcome
    · obtain ⟨t, ht⟩ := hform s
      refine .inl ⟨t, ?_⟩
      show (form s).layOut [] = .ok t
      rw [ht]
      rfl
    · exact .inr ⟨hlong, rfl⟩
  cases form with
  | none => exact v.yields_present
  | some c =>
      rw [Option.all_some, List.contains_iff_mem] at h
      simp only [List.mem_cons, List.not_mem_nil, or_false] at h
      rcases h with rfl | rfl | rfl
      · exact htext _ (fun s => ⟨s, rfl⟩) v.yields_present
      · exact htext _ (fun s => ⟨s, rfl⟩) v.yields_write
      · exact htext _ (fun s => ⟨Text.ascii s, rfl⟩) v.yields_write

variable {field : List Char}

theorem yields_fill (hfield : Names field) {f : Field} (h : Piece.takesAny field (.field f) = true)
    (value : Value) (expand : List Char → Except Misuse String) : value.Yields (fill field value expand f) := by
  simp only [Piece.takesAny, Bool.and_eq_true, beq_iff_eq, List.isEmpty_iff] at h
  obtain ⟨⟨hname, hform⟩, hlayout⟩ := h
  rw [fill, hname, hfield value, hlayout]
  exact yields_showAs hform

theorem yields_render (hfield : Names field) (value : Value) (expand : List Char → Except Misuse String)
    {ps : List Piece} (h : ps.all (Piece.takesAny field) = true) :
    value.Yields (render (fill field value expand) ps) := by
  induction ps with
  | nil => exact value.yields_ok ""
  | cons p ps ih =>
      rw [List.all_cons, Bool.and_eq_true] at h
      cases p with
      | char c => exact (ih h.2).bind fun _ => value.yields_ok _
      | field f => exact (yields_fill hfield h.1 value expand).bind fun _ => (ih h.2).bind fun _ => value.yields_ok _
      | broken => exact absurd h.1 Bool.false_ne_true

/-- A pattern that every value fills is filled in without fail by a value that can be written. -/
theorem yields_apply {pattern : Value} {name : String} (hname : Names name.toList)
    (h : takesAny pattern name = true) (value : Value) : value.Yields (apply pattern name value) := by
  cases pattern with
  | text s =>
      have hrender : value.Yields (render (fill name.toList value (expand name.toList value 1)) (pieces s.toList)) :=
        yields_render hname value _ h
      exact hrender.bind fun _ => value.yields_ok _
  | _ => exact absurd h Bool.false_ne_true

end Template

end ChartGrammar
