import ChartGrammar.Proofs.Value.Sameness
import ChartGrammar.Style.Shape
import ChartGrammar.Value.Json

/-! Normal forms of style values and literals. Which values a shape takes, and in which form, is laid out as a
relation with one rule per sort of value; bringing into normal form computes it. A normal form is brought
into itself, also after its tuple has been made a list, and it is regular. -/

namespace ChartGrammar.Shape

/-- `Admits shape v u`: values of this shape include `v`, and `u` is its normal form. -/
inductive Admits : Shape → Value → Value → Prop where
  | text (s : String) : Admits .text (.text s) (.text s)
  | colour {s : String} (h : isColour (Text.strip s).toList = true) :
      Admits .colour (.text s) (.text (Text.strip s))
  | zero : Admits .unitInterval (.int 0) (.float .zero)
  | one : Admits .unitInterval (.int 1) (.float .one)
  | between {x : Binary64} (hlo : (Number.whole 0).le (.real x) = true) (hhi : (Number.real x).le (.whole 1) = true) :
      Admits .unitInterval (.float x) (.float x)
  | positive {v : Value} {n : Number} (hfinite : finite? v = some n) (hpos : (Number.whole 0).lt n = true) :
      Admits .positive v v
  | positiveWhole {n : Int} (hpos : 0 < n) : Admits .positiveWhole (.int n) (.int n)
  | flag (b : Bool) : Admits .flag (.bool b) (.bool b)
  | rangeOfList {lower upper : Value} {l u : Number} (hl : finite? lower = some l) (hu : finite? upper = some u)
      (hle : u.lt l = false) : Admits .range (.list [lower, upper]) (.tuple [lower, upper])
  | rangeOfTuple {lower upper : Value} {l u : Number} (hl : finite? lower = some l) (hu : finite? upper = some u)
      (hle : u.lt l = false) : Admits .range (.tuple [lower, upper]) (.tuple [lower, upper])
  | word {choices : List String} {s : String} (h : choices.contains s = true) :
      Admits (.word choices) (.text s) (.text s)

theorem orderedPair?_eq_some_iff {items : List Value} {w : Value} : orderedPair? items = some w ↔
    ∃ lower upper l u, items = [lower, upper] ∧ finite? lower = some l ∧ finite? upper = some u ∧
      u.lt l = false ∧ w = .tuple [lower, upper] := by
  constructor
  · intro h
    unfold orderedPair? at h
    split at h
    · next lower upper =>
        simp only [Option.bind_eq_bind, Option.bind_eq_some_iff] at h
        obtain ⟨l, hl, u, hu, h⟩ := h
        split at h
        · cases h
        · next hle =>
            cases h
            exact ⟨lower, upper, l, u, rfl, hl, hu, by simpa using hle, rfl⟩
    · cases h
  · rintro ⟨lower, upper, l, u, rfl, hl, hu, hle, rfl⟩
    simp [orderedPair?, hl, hu, hle]

theorem admits_of_normalize? {shape : Shape} {v u : Value} (h : shape.normalize? v = some u) :
    Admits shape v u := by
  unfold normalize? at h
  split at h
  · cases h
    exact .text _
  · dsimp only at h
    split at h
    · next hcolour =>
        cases h
        exact .colour hcolour
    · cases h
  · split at h
    · next hzero =>
        cases h
        exact hzero ▸ .zero
    split at h
    · next hone =>
        cases h
        exact hone ▸ .one
    · cases h
  · split at h
    · next hbounds =>
        cases h
        rw [Bool.and_eq_true] at hbounds
        exact .between hbounds.1 hbounds.2
    · cases h
  · obtain ⟨n, hfinite, h⟩ := Option.bind_eq_some_iff.mp h
    split at h
    · next hpos =>
        cases h
        exact .positive hfinite hpos
    · cases h
  · split at h
    · next hpos =>
        cases h
        exact .positiveWhole hpos
    · cases h
  · cases h
    exact .flag _
  · obtain ⟨lower, upper, l, u, rfl, hl, hu, hle, rfl⟩ := orderedPair?_eq_some_iff.mp h
    exact .rangeOfList hl hu hle
  · obtain ⟨lower, upper, l, u, rfl, hl, hu, hle, rfl⟩ := orderedPair?_eq_some_iff.mp h
    exact .rangeOfTuple hl hu hle
  · split at h
    · next hword =>
        cases h
        exact .word hword
    · cases h
  · cases h

/-- Bringing into normal form succeeds on the values that the shape admits, with the form that it admits them
in, and on no others. -/
theorem normalize?_eq_some_iff {shape : Shape} {v u : Value} :
    shape.normalize? v = some u ↔ Admits shape v u := by
  refine ⟨admits_of_normalize?, ?_⟩
  intro h
  cases h with
  | text | zero | one | flag => rfl
  | colour hcolour => simp [normalize?, hcolour]
  | between hlo hhi => simp [normalize?, hlo, hhi]
  | positive hfinite hpos => simp [normalize?, hfinite, hpos]
  | positiveWhole hpos => simp [normalize?, hpos]
  | rangeOfList hl hu hle => exact orderedPair?_eq_some_iff.mpr ⟨_, _, _, _, rfl, hl, hu, hle, rfl⟩
  | rangeOfTuple hl hu hle => exact orderedPair?_eq_some_iff.mpr ⟨_, _, _, _, rfl, hl, hu, hle, rfl⟩
  | word hword => simpa [normalize?] using hword

/-- No shape includes the unset mark. -/
theorem normalize?_unset (shape : Shape) : shape.normalize? .unset = none := by
  cases shape <;> rfl

/-! ### Normal forms -/

/-- A normal form is admitted as it is. -/
theorem Admits.self {shape : Shape} {v u : Value} (h : Admits shape v u) : Admits shape u u := by
  cases h with
  | text s => exact .text s
  | colour hcolour =>
      have hstrip := Admits.colour (s := Text.strip _) (by rwa [Text.strip_strip])
      rwa [Text.strip_strip] at hstrip
  | zero | one => exact .between (by decide +kernel) (by decide +kernel)
  | between hlo hhi => exact .between hlo hhi
  | positive hfinite hpos => exact .positive hfinite hpos
  | positiveWhole hpos => exact .positiveWhole hpos
  | flag b => exact .flag b
  | rangeOfList hl hu hle => exact .rangeOfTuple hl hu hle
  | rangeOfTuple hl hu hle => exact .rangeOfTuple hl hu hle
  | word hword => exact .word hword

/-- What has been brought into normal form once stays as it is. -/
theorem normalize?_normalize? {shape : Shape} {v u : Value} (h : shape.normalize? v = some u) :
    shape.normalize? u = some u :=
  normalize?_eq_some_iff.mpr (normalize?_eq_some_iff.mp h).self

theorem finite?_eq_some_iff {v : Value} {n : Number} :
    finite? v = some n ↔ v.number? = some n ∧ n.isFinite = true := by
  simp [finite?, Option.filter_eq_some_iff]

theorem plain_of_finite? {v : Value} {n : Number} (h : finite? v = some n) : v.plain = v := by
  have hnumber := (finite?_eq_some_iff.mp h).1
  cases v <;> first | rfl | cases hnumber

/-- A finite number is no NaN. -/
theorem regular_of_finite? {v : Value} {n : Number} (h : finite? v = some n) : v.regular = true := by
  obtain ⟨hnumber, hfinite⟩ := finite?_eq_some_iff.mp h
  cases v with
  | float x =>
      cases hnumber
      simp only [Number.isFinite, Binary64.isFinite, bne_iff_ne, ne_eq] at hfinite
      simp [Value.regular, Binary64.isNaN, hfinite]
  | int => rfl
  | _ => cases hnumber

/-- The plain form of a normal form has that normal form: the list that stands for a pair becomes a tuple
again, and nothing else changes. -/
theorem Admits.plain {shape : Shape} {v u : Value} (h : Admits shape v u) : Admits shape u.plain u := by
  cases h with
  | text s => exact .text s
  | colour hcolour => exact (Admits.colour hcolour).self
  | zero => exact Admits.zero.self
  | one => exact Admits.one.self
  | between hlo hhi => exact .between hlo hhi
  | positive hfinite hpos =>
      rw [plain_of_finite? hfinite]
      exact .positive hfinite hpos
  | positiveWhole hpos => exact .positiveWhole hpos
  | flag b => exact .flag b
  | rangeOfList hl hu hle | rangeOfTuple hl hu hle =>
      rw [Value.plain, Value.plainItems, Value.plainItems, Value.plainItems, plain_of_finite? hl,
        plain_of_finite? hu]
      exact .rangeOfList hl hu hle
  | word hword => exact .word hword

theorem normalize?_plain {shape : Shape} {u : Value} (h : shape.normalize? u = some u) :
    shape.normalize? u.plain = some u :=
  normalize?_eq_some_iff.mpr (normalize?_eq_some_iff.mp h).plain

/-- A NaN lies above nothing. -/
theorem isNaN_of_le {n : Number} {x : Binary64} (h : n.le (.real x) = true) : x.isNaN = false := by
  cases hx : x.isNaN with
  | false => rfl
  | true =>
      have hplace : (Number.real x).place? = none := by simp [Number.place?, hx]
      cases hn : n.place? <;> simp [Number.le, Number.lt, Number.same, hn, hplace] at h

/-- No NaN gets into a chart through a style value or a literal. -/
theorem regular_of_normalize? {shape : Shape} {v u : Value} (h : shape.normalize? v = some u) :
    u.regular = true := by
  cases normalize?_eq_some_iff.mp h with
  | text | colour | positiveWhole | flag | word => rfl
  | zero | one => decide
  | between hlo hhi => simp [Value.regular, isNaN_of_le hlo]
  | positive hfinite hpos => exact regular_of_finite? hfinite
  | rangeOfList hl hu hle | rangeOfTuple hl hu hle =>
      simp [Value.regular, Value.regularItems, regular_of_finite? hl, regular_of_finite? hu]

end ChartGrammar.Shape
