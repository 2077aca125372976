import ChartGrammar.Proofs.Chart.Calls
import ChartGrammar.Proofs.Style.NormalForm
import Mathlib.Algebra.Order.Ring.Rat

/-! The values of each style key, and of each role that takes literals, in terms of exact numbers and of characters. An
integer and a finite datum are compared as rationals, so that no rounding comes between them; a truth value is no number,
and neither an infinity nor a NaN has an exact value. A colour is looked for in the text without its blanks, and so ends
in no line break. -/

namespace ChartGrammar

/-! ### Exact numbers -/

namespace Number

/-- The exact value of an integer or of a finite datum. -/
def rational? : Number → Option Rat
  | whole n => some n
  | real x => if x.isFinite then some x.toRat else none

variable {a b : Number} {p q : Rat}

theorem rational?_eq_some_iff : a.rational? = some q ↔ a.place? = some (.finite q) := by
  cases a with
  | whole n => simp [rational?, place?]
  | real x =>
      -- A datum with the greatest exponent is an infinity or no number; any other is finite.
      by_cases hfield : x.exponentField = 2047
      · have hfinite : x.isFinite = false := by simp [Binary64.isFinite, hfield]
        by_cases hfraction : x.fraction = 0
        · have hinfinite : x.isNaN = false ∧ x.isInfinite = true := by
            simp [Binary64.isNaN, Binary64.isInfinite, hfield, hfraction]
          cases hsign : x.negative <;> simp [rational?, place?, hfinite, hinfinite, hsign]
        · have hnan : x.isNaN = true := by simp [Binary64.isNaN, hfield, hfraction]
          simp [rational?, place?, hfinite, hnan]
      · have hfinite : x.isFinite = true ∧ x.isNaN = false ∧ x.isInfinite = false := by
          simp [Binary64.isFinite, Binary64.isNaN, Binary64.isInfinite, hfield]
        simp [rational?, place?, hfinite]

theorem isFinite_iff_rational? : a.isFinite = true ↔ ∃ q, a.rational? = some q := by
  cases a with
  | whole n => simp [isFinite, rational?]
  | real x => simp [isFinite, rational?]

/-- Numbers that have exact values are in the order of these. -/
theorem lt_iff_of_rational? (ha : a.rational? = some p) (hb : b.rational? = some q) : a.lt b = true ↔ p < q := by
  rw [rational?_eq_some_iff] at ha hb
  simp [lt, ha, hb, Place.lt]

theorem le_iff_of_rational? (ha : a.rational? = some p) (hb : b.rational? = some q) : a.le b = true ↔ p ≤ q := by
  rw [le, Bool.or_eq_true, lt_iff_of_rational? ha hb, le_iff_lt_or_eq]
  rw [rational?_eq_some_iff] at ha hb
  simp [same, ha, hb]

/-- What lies between two numbers that have exact values has one. -/
theorem exists_rational?_of_between {c : Number} (ha : a.rational? = some p) (hc : c.rational? = some q)
    (hab : a.le b = true) (hbc : b.le c = true) : ∃ r, b.rational? = some r := by
  rw [rational?_eq_some_iff] at ha hc
  cases hplace : b.place? with
  | none => simp [le, lt, same, ha, hplace] at hab
  | some place =>
      cases place with
      | finite r => exact ⟨r, rational?_eq_some_iff.mpr hplace⟩
      | bottom => simp [le, lt, same, ha, hplace, Place.lt] at hab
      | top => simp [le, lt, same, hc, hplace, Place.lt] at hbc

end Number

namespace Value

/-- The exact value of an integer or of a finite datum; no other value is a number. -/
def rational? (v : Value) : Option Rat :=
  v.number?.bind Number.rational?

/-- The datum that an integer is converted to, or the datum itself. -/
def datum? : Value → Option Binary64
  | int n => some (Binary64.ofInt n)
  | float x => some x
  | _ => none

end Value

/-! ### Colours -/

namespace Text

/-- The texts that are colours: `#` with three, six or eight hexadecimal digits, or a letter of ASCII followed by letters,
digits and spaces. -/
inductive Colour : List Char → Prop where
  | code {digits : List Char} (hlength : digits.length = 3 ∨ digits.length = 6 ∨ digits.length = 8)
      (hdigits : ∀ c ∈ digits, c.isHexDigit = true) : Colour ('#' :: digits)
  | named {first : Char} {rest : List Char} (hfirst : first.isAlpha = true)
      (hrest : ∀ c ∈ rest, c.isAlphanum = true ∨ c = ' ') : Colour (first :: rest)

/-- Once its ends are dropped, a text does not end in a character that is to be dropped. -/
theorem getLast?_dropEnds {p : Char → Bool} {s : List Char} : ∀ c ∈ (dropEnds p s).getLast?, p c = false := by
  intro c hc
  rw [dropEnds, List.getLast?_reverse] at hc
  exact head?_dropWhile c hc

end Text

namespace Shape

theorem isColourWord_iff {s : List Char} : isColourWord s = true ↔ Text.Colour s := by
  have hhex (c : Char) : isHexDigit c = c.isHexDigit := by
    simp [isHexDigit, Char.isHexDigit, Char.le_def]
  cases s with
  | nil => constructor <;> (intro h; cases h)
  | cons c rest =>
      by_cases hcode : c = '#'
      · subst hcode
        rw [isColourWord]
        simp only [Bool.and_eq_true, Bool.or_eq_true, beq_iff_eq, List.all_eq_true, hhex]
        constructor
        · rintro ⟨hlength, hdigits⟩
          exact .code (by omega) hdigits
        · intro h
          cases h with
          | code hlength hdigits => exact ⟨by omega, hdigits⟩
          | named hfirst _ => exact absurd hfirst (by decide)
      · rw [isColourWord]
        · simp only [Bool.and_eq_true, Bool.or_eq_true, beq_iff_eq, List.all_eq_true]
          constructor
          · rintro ⟨hfirst, hrest⟩
            exact .named hfirst hrest
          · intro h
            cases h with
            | code => exact absurd rfl hcode
            | named hfirst hrest => exact ⟨hfirst, hrest⟩
        · exact hcode

/-- No line break is left at the end of a text that has lost its blanks. -/
theorem isColour_strip_iff {s : String} :
    isColour (Text.strip s).toList = true ↔ Text.Colour (Text.strip s).toList := by
  have hlast : (Text.strip s).toList.getLast? ≠ some '\n' := by
    intro hbreak
    rw [Text.strip, String.toList_ofList] at hbreak
    exact absurd (Text.getLast?_dropEnds '\n' hbreak) (by decide)
  rw [isColour, ← isColourWord_iff]
  simp [hlast]

/-- The finite numbers are those that have exact values. -/
theorem exists_rational?_of_finite? {v : Value} {n : Number} (h : finite? v = some n) :
    ∃ q, v.rational? = some q ∧ n.rational? = some q := by
  obtain ⟨hnumber, hfinite⟩ := finite?_eq_some_iff.mp h
  obtain ⟨q, hq⟩ := Number.isFinite_iff_rational?.mp hfinite
  exact ⟨q, Option.bind_eq_some_iff.mpr ⟨n, hnumber, hq⟩, hq⟩

theorem exists_finite?_of_rational? {v : Value} {q : Rat} (h : v.rational? = some q) :
    ∃ n, finite? v = some n ∧ n.rational? = some q := by
  obtain ⟨n, hnumber, hq⟩ := Option.bind_eq_some_iff.mp h
  exact ⟨n, finite?_eq_some_iff.mpr ⟨hnumber, Number.isFinite_iff_rational?.mpr ⟨q, hq⟩⟩, hq⟩

end Shape

/-! ### What each key and each role makes of a value -/

namespace Value

/-- A text, as it is. -/
def GivesText (v u : Value) : Prop :=
  ∃ s, v = text s ∧ u = v

/-- A text that is a colour once it has lost its blanks, without them. -/
def GivesColour (v u : Value) : Prop :=
  ∃ s, v = text s ∧ Text.Colour (Text.strip s).toList ∧ u = text (Text.strip s)

/-- A number between zero and one, as a datum of the same exact value. -/
def GivesShare (v u : Value) : Prop :=
  ∃ q x, v.rational? = some q ∧ 0 ≤ q ∧ q ≤ 1 ∧ v.datum? = some x ∧ x.toRat = q ∧ u = float x

/-- A number above zero, as it is. -/
def GivesSize (v u : Value) : Prop :=
  ∃ q, v.rational? = some q ∧ 0 < q ∧ u = v

/-- An integer above zero, as it is. -/
def GivesCount (v u : Value) : Prop :=
  ∃ n, v = int n ∧ 0 < n ∧ u = v

/-- A truth value, as it is. -/
def GivesFlag (v u : Value) : Prop :=
  ∃ b, v = bool b ∧ u = v

/-- Two numbers in a list or a tuple, the first not above the second, in a tuple. -/
def GivesLimits (v u : Value) : Prop :=
  ∃ lower upper p q, (v = list [lower, upper] ∨ v = tuple [lower, upper]) ∧
    lower.rational? = some p ∧ upper.rational? = some q ∧ p ≤ q ∧ u = tuple [lower, upper]

/-- One of some words, as it is. -/
def GivesWord (choices : List String) (v u : Value) : Prop :=
  ∃ s ∈ choices, v = text s ∧ u = v

end Value

/-- What a style key makes of a value. -/
def StyleKey.Gives : StyleKey → Value → Value → Prop
  | .title | .xLabel | .yLabel => Value.GivesText
  | .fillColor | .outlineColor => Value.GivesColour
  | .opacity => Value.GivesShare
  | .lineWidth | .binWidth => Value.GivesSize
  | .binCount => Value.GivesCount
  | .axisLimitX | .axisLimitY => Value.GivesLimits
  | .legendVisible | .flipAxes => Value.GivesFlag
  | .pointShape => Value.GivesWord ["circle", "square", "triangle", "diamond", "cross", "plus", "filled_circle",
      "filled_square"]
  | .lineStyle => Value.GivesWord ["solid", "dashed", "dotted", "dotdash", "longdash", "twodash"]
  | .groupLayout => Value.GivesWord ["dodge", "stack", "fill"]
  | .themeTone => Value.GivesWord ["grey", "minimal", "classic", "bw", "light", "dark", "void"]

/-- What a role makes of a literal. -/
def Role.Gives : Role → Value → Value → Prop
  | .fill | .outline => Value.GivesColour
  | .size => Value.GivesSize
  | .shape => StyleKey.pointShape.Gives
  | _ => fun _ _ => False

namespace Shape

open Value

variable {v u : Value}

theorem text_iff : normalize? .text v = some u ↔ GivesText v u := by
  rw [normalize?_eq_some_iff]
  constructor
  · rintro ⟨s⟩
    exact ⟨s, rfl, rfl⟩
  · rintro ⟨s, rfl, rfl⟩
    exact .text s

theorem colour_iff : normalize? .colour v = some u ↔ GivesColour v u := by
  rw [normalize?_eq_some_iff]
  constructor
  · rintro (_ | ⟨hcolour⟩)
    exact ⟨_, rfl, isColour_strip_iff.mp hcolour, rfl⟩
  · rintro ⟨s, rfl, hcolour, rfl⟩
    exact .colour (isColour_strip_iff.mpr hcolour)

/-- The only integers between zero and one are these two, and each has a datum of its exact value. -/
theorem share_iff : normalize? .unitInterval v = some u ↔ GivesShare v u := by
  rw [normalize?_eq_some_iff]
  constructor
  · intro h
    cases h with
    | zero => exact ⟨0, .zero, rfl, by decide, by decide, rfl, by decide +kernel, rfl⟩
    | one => exact ⟨1, .one, rfl, by decide, by decide, by decide +kernel, by decide +kernel, rfl⟩
    | @between x hlo hhi =>
        obtain ⟨q, hq⟩ := Number.exists_rational?_of_between (p := 0) (q := 1) rfl rfl hlo hhi
        have hvalue : x.isFinite = true ∧ x.toRat = q := by simpa [Number.rational?] using hq
        refine ⟨q, x, hq, ?_, ?_, rfl, hvalue.2, rfl⟩
        · exact (Number.le_iff_of_rational? rfl hq).mp hlo
        · exact (Number.le_iff_of_rational? hq rfl).mp hhi
  · rintro ⟨q, x, hq, hlo, hhi, hx, -, rfl⟩
    cases v with
    | int n =>
        cases hq
        cases hx
        have hlo : 0 ≤ n := Rat.intCast_nonneg.mp hlo
        have hhi : n ≤ 1 := Rat.intCast_le_intCast.mp hhi
        have hzero : Binary64.ofInt 0 = .zero := by decide
        have hone : Binary64.ofInt 1 = .one := by decide +kernel
        obtain rfl | rfl : n = 0 ∨ n = 1 := by omega
        · rw [hzero]
          exact .zero
        · rw [hone]
          exact .one
    | float y =>
        cases hx
        have hq : (Number.real x).rational? = some q := hq
        exact .between ((Number.le_iff_of_rational? rfl hq).mpr hlo) ((Number.le_iff_of_rational? hq rfl).mpr hhi)
    | _ => cases hx

theorem size_iff : normalize? .positive v = some u ↔ GivesSize v u := by
  rw [normalize?_eq_some_iff]
  constructor
  · intro h
    cases h with
    | positive hfinite hpos =>
        obtain ⟨q, hv, hn⟩ := exists_rational?_of_finite? hfinite
        exact ⟨q, hv, (Number.lt_iff_of_rational? rfl hn).mp hpos, rfl⟩
  · rintro ⟨q, hq, hpos, rfl⟩
    obtain ⟨n, hfinite, hn⟩ := exists_finite?_of_rational? hq
    exact .positive hfinite ((Number.lt_iff_of_rational? rfl hn).mpr hpos)

theorem count_iff : normalize? .positiveWhole v = some u ↔ GivesCount v u := by
  rw [normalize?_eq_some_iff]
  constructor
  · intro h
    cases h with
    | positiveWhole hpos => exact ⟨_, rfl, hpos, rfl⟩
  · rintro ⟨n, rfl, hpos, rfl⟩
    exact .positiveWhole hpos

theorem flag_iff : normalize? .flag v = some u ↔ GivesFlag v u := by
  rw [normalize?_eq_some_iff]
  constructor
  · intro h
    cases h with
    | flag b => exact ⟨b, rfl, rfl⟩
  · rintro ⟨b, rfl, rfl⟩
    exact .flag b

theorem limits_iff : normalize? .range v = some u ↔ GivesLimits v u := by
  have hpairs {items : List Value} : orderedPair? items = some u ↔ ∃ lower upper p q, items = [lower, upper] ∧
      lower.rational? = some p ∧ upper.rational? = some q ∧ p ≤ q ∧ u = .tuple [lower, upper] := by
    rw [orderedPair?_eq_some_iff]
    constructor
    · rintro ⟨lower, upper, l, h, rfl, hl, hh, hle, rfl⟩
      obtain ⟨p, hp, hlp⟩ := exists_rational?_of_finite? hl
      obtain ⟨q, hq, hhq⟩ := exists_rational?_of_finite? hh
      refine ⟨lower, upper, p, q, rfl, hp, hq, not_lt.mp ?_, rfl⟩
      rw [← Number.lt_iff_of_rational? hhq hlp, hle]
      exact Bool.false_ne_true
    · rintro ⟨lower, upper, p, q, rfl, hp, hq, hle, rfl⟩
      obtain ⟨l, hl, hlp⟩ := exists_finite?_of_rational? hp
      obtain ⟨h, hh, hhq⟩ := exists_finite?_of_rational? hq
      refine ⟨lower, upper, l, h, rfl, hl, hh, Bool.eq_false_iff.mpr ?_, rfl⟩
      rw [ne_eq, Number.lt_iff_of_rational? hhq hlp]
      exact not_lt.mpr hle
  cases v with
  | list items | tuple items =>
      refine hpairs.trans ?_
      simp [GivesLimits]
  | _ => simp [normalize?, GivesLimits]

theorem word_iff {choices : List String} : normalize? (.word choices) v = some u ↔ GivesWord choices v u := by
  rw [normalize?_eq_some_iff]
  constructor
  · intro h
    cases h with
    | word hword => exact ⟨_, List.contains_iff_mem.mp hword, rfl, rfl⟩
  · rintro ⟨s, hs, rfl, rfl⟩
    exact .word (List.contains_iff_mem.mpr hs)

end Shape

/-- The order in which words are listed does not matter. -/
theorem Value.givesWord_of_perm {choices words : List String} {v u : Value} (h : choices.Perm words) :
    GivesWord choices v u ↔ GivesWord words v u := by
  simp only [GivesWord, h.mem_iff]

theorem StyleKey.normalize?_shape_iff {k : StyleKey} {v u : Value} :
    k.shape.normalize? v = some u ↔ k.Gives v u := by
  cases k with
  | title | xLabel | yLabel => exact Shape.text_iff
  | fillColor | outlineColor => exact Shape.colour_iff
  | opacity => exact Shape.share_iff
  | lineWidth | binWidth => exact Shape.size_iff
  | binCount => exact Shape.count_iff
  | axisLimitX | axisLimitY => exact Shape.limits_iff
  | legendVisible | flipAxes => exact Shape.flag_iff
  | pointShape | lineStyle | groupLayout | themeTone =>
      exact Shape.word_iff.trans (Value.givesWord_of_perm (by decide))

theorem Role.exists_literalShape?_iff {r : Role} {v u : Value} :
    (∃ shape, r.literalShape? = some shape ∧ shape.normalize? v = some u) ↔ r.Gives v u := by
  have hshape {shape : Shape} (h : r.literalShape? = some shape) :
      (∃ shape, r.literalShape? = some shape ∧ shape.normalize? v = some u) ↔ shape.normalize? v = some u := by
    simp [h]
  cases r with
  | fill | outline => exact (hshape rfl).trans Shape.colour_iff
  | size => exact (hshape rfl).trans Shape.size_iff
  | shape => exact (hshape rfl).trans (StyleKey.normalize?_shape_iff (k := .pointShape))
  | _ => simp [literalShape?, Gives]

namespace Chart

/-- Each style key takes exactly the values that it gives something for, and each role exactly its literals. Any other
value is refused with the fault of an unfit value, which shows the value; if the value cannot be written, asking for
that is the misuse that is left. What is given is given again for itself. -/
theorem normalizes_exactly (k : StyleKey) (role : Role) (v : Value) :
    ((∀ u, normalizeStyle k v = .ok u ↔ k.Gives v u) ∧
      ((∃ u, k.Gives v u) ∨ normalizeStyle k v =
        .error (if v.legible then .construction (.invalidStyleValue k v) else .misuse .tooLong)) ∧
      ∀ u, normalizeStyle k v = .ok u → normalizeStyle k u = .ok u) ∧
    (∀ u, readLiteral role v = .ok (.literal u) ↔ role.Gives v u) ∧
      (role.literalShape? = none → readLiteral role v = .error (.construction (.typeMismatch role .literalOffered))) ∧
      (∀ shape, role.literalShape? = some shape → (∃ u, role.Gives v u) ∨ readLiteral role v =
        .error (if v.legible then .construction (.typeMismatch role (.literalShape v shape)) else .misuse .tooLong)) ∧
      ∀ u, readLiteral role v = .ok (.literal u) → readLiteral role u = .ok (.literal u) := by
  have hstyle (w u : Value) : normalizeStyle k w = .ok u ↔ k.Gives w u :=
    normalizeStyle_eq_ok_iff.trans StyleKey.normalize?_shape_iff
  have hliteral (w u : Value) : readLiteral role w = .ok (.literal u) ↔ role.Gives w u := by
    rw [readLiteral_eq_ok_iff, ← Role.exists_literalShape?_iff]
    simp
  refine ⟨⟨hstyle v, ?_, fun u hu => ?_⟩, hliteral v, fun hnone => ?_, fun shape hshape => ?_, fun u hu => ?_⟩
  · cases hnormal : k.shape.normalize? v with
    | some u => exact .inl ⟨u, StyleKey.normalize?_shape_iff.mp hnormal⟩
    | none => exact .inr (by rw [normalizeStyle, hnormal, Fault.about])
  · exact normalizeStyle_eq_ok_iff.mpr (Shape.normalize?_normalize? (normalizeStyle_eq_ok_iff.mp hu))
  · rw [readLiteral, hnone]
  · cases hnormal : shape.normalize? v with
    | some u => exact .inl ⟨u, Role.exists_literalShape?_iff.mp ⟨shape, hshape, hnormal⟩⟩
    | none => exact .inr (by simp only [readLiteral, hshape, hnormal, Fault.about])
  · obtain ⟨shape, w, hshape, hnormal, heq⟩ := readLiteral_eq_ok_iff.mp hu
    cases heq
    exact readLiteral_eq_ok_iff.mpr ⟨shape, u, hshape, Shape.normalize?_normalize? hnormal, rfl⟩

/-- The opacity one becomes a datum, and a colour loses its blanks and its line break. An integer is no title, and a
list of one is no colour. -/
theorem normalizes_exactly_whole :
    normalizeStyle .opacity (.int 1) = .ok (.float .one) ∧
      normalizeStyle .opacity (.float .one) = .ok (.float .one) ∧
      readLiteral .fill (.text " #Fa0\n") = .ok (.literal (.text "#Fa0")) ∧
      normalizeStyle .title (.int 7) = .error (.construction (.invalidStyleValue .title (.int 7))) ∧
      readLiteral .fill (.list [.text "red"]) =
        .error (.construction (.typeMismatch .fill (.literalShape (.list [.text "red"]) .colour))) := by
  have hshare : StyleKey.Gives .opacity (.int 1) (.float .one) :=
    ⟨1, .one, rfl, by decide, by decide, by decide +kernel, by decide +kernel, rfl⟩
  have hstrip : Text.strip " #Fa0\n" = "#Fa0" := by decide
  have hcolour : Role.Gives .fill (.text " #Fa0\n") (.text "#Fa0") := by
    refine ⟨" #Fa0\n", rfl, ?_, by rw [hstrip]⟩
    rw [hstrip]
    exact Shape.isColourWord_iff.mp (by decide)
  obtain ⟨⟨htakes, -, hagain⟩, -⟩ := normalizes_exactly .opacity .fill (.int 1)
  have hone := (htakes _).mpr hshare
  obtain ⟨⟨-, htitle, -⟩, -⟩ := normalizes_exactly .title .fill (.int 7)
  obtain ⟨-, hfill, -, hother, -⟩ := normalizes_exactly .opacity .fill (.list [.text "red"])
  have hno : ¬∃ u, StyleKey.Gives .title (.int 7) u := by
    rintro ⟨u, hu⟩
    have hnormal := StyleKey.normalize?_shape_iff.mpr hu
    cases hnormal
  have hno' : ¬∃ u, Role.Gives .fill (.list [.text "red"]) u := by
    rintro ⟨u, hu⟩
    cases (hfill u).mpr hu
  exact ⟨hone, hagain _ hone, ((normalizes_exactly .opacity .fill (.text " #Fa0\n")).2.1 _).mpr hcolour,
    htitle.resolve_left hno, (hother _ rfl).resolve_left hno'⟩

/-- An integer of too many digits is no title, and yet it is not refused as an unfit value. -/
theorem not_normalized_or_refused_title : ¬∀ (k : StyleKey) (v : Value),
    (∃ u, normalizeStyle k v = .ok u) ∨ normalizeStyle k v = .error (.construction (.invalidStyleValue k v)) := by
  intro h
  have hmisuse : normalizeStyle .title (.int Text.leastTooLong) = .error (.misuse .tooLong) := by
    exact congrArg Except.error (Fault.about_of_not_legible Value.legible_leastTooLong)
  have hcases := h .title (.int Text.leastTooLong)
  rw [hmisuse] at hcases
  rcases hcases with ⟨u, hu⟩ | hrefused
  · cases hu
  · cases hrefused

end Chart

end ChartGrammar
