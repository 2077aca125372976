import ChartGrammar.Proofs.Text.Integer
import ChartGrammar.Value.Written

/-! Displays that are read as integers. The display of a datum of double precision has a point, an exponent or a word in
it, that of a container its bracket, and that of any other value a name; and none of these stands in an integer. So only
integers and texts are read as integers from their displays. -/

namespace ChartGrammar

/-- A decimal is written with a point or with an exponent. -/
theorem Decimal.point_or_exponent_mem_text (d : Decimal) : '.' ∈ d.text ∨ 'e' ∈ d.text := by
  simp only [text, write, List.mem_append]
  cases hscientific : (d.form 16 1).scientific with
  | true => exact .inr (.inr (.inr (by simp [exponent])))
  | false =>
      -- At least one digit is written after the point.
      have hplaces : 0 < (d.form 16 1).places := by
        unfold form at hscientific ⊢
        split at hscientific
        · cases hscientific
        · next hrange =>
            rw [if_neg hrange]
            exact Nat.lt_of_lt_of_le Nat.one_pos (Nat.le_max_left 1 d.places)
      exact .inl (.inr (.inl (.inl (by simp [hplaces]))))

namespace Text

/-- A mark that stands in no integer: it comes before the digits of other scripts, and is neither a digit nor a sign, an
underscore or a blank. -/
def isMark (c : Char) : Bool :=
  c.toNat < 0x660 && !(0x30 ≤ c.toNat && c.toNat ≤ 0x39) && c != '+' && c != '-' && c != '_' && !isIntegerBlank c

theorem not_isNumeral_of_isMark {c : Char} (h : isMark c = true) : ¬IsNumeral c := by
  simp only [isMark, Bool.and_eq_true, Bool.not_eq_true', Bool.and_eq_false_iff, decide_eq_true_eq,
    decide_eq_false_iff_not, bne_iff_ne] at h
  obtain ⟨⟨⟨⟨⟨hlow, hdigit⟩, hplus⟩, hminus⟩, hunderscore⟩, hblank⟩ := h
  have hdigit : ¬(0x30 ≤ c.toNat ∧ c.toNat ≤ 0x39) := by omega
  rintro (hread | hsign | hspace)
  · rw [decimalDigit?_eq_none hlow hdigit] at hread
    cases hread
  · simp [hplus, hminus, hunderscore] at hsign
  · rw [hblank] at hspace
    cases hspace

/-- A text with such a mark in it is not read as an integer. -/
theorem integer?_eq_none {s : String} {c : Char} (hmem : c ∈ s.toList) (h : isMark c = true) : integer? s = none :=
  Option.eq_none_iff_forall_ne_some.mpr fun _ hread =>
    not_isNumeral_of_isMark h (isNumeral_of_mem_integer hread c hmem)

end Text

/-- No datum is written as an integer. -/
theorem Binary64.integer?_text (x : Binary64) : Text.integer? x.text = none := by
  let size := if x.isInfinite then "inf" else String.ofList (Decimal.shortest x).text
  obtain ⟨c, hmem, hc⟩ : ∃ c ∈ size.toList, Text.isMark c = true := by
    unfold size
    split
    · exact ⟨'i', by decide, by decide⟩
    · rw [String.toList_ofList]
      obtain hpoint | hexponent := Decimal.point_or_exponent_mem_text (Decimal.shortest x)
      · exact ⟨'.', hpoint, by decide⟩
      · exact ⟨'e', hexponent, by decide⟩
  show Text.integer? (if x.isNaN then "nan" else if x.negative then "-" ++ size else size) = none
  split
  · have hmark : 'n' ∈ "nan".toList := by decide
    exact Text.integer?_eq_none hmark (by decide)
  · refine Text.integer?_eq_none ?_ hc
    split
    · rw [String.toList_append]
      exact List.mem_append_right _ hmem
    · exact hmem

namespace Value

/-- An integer that is read from a text can be written. -/
theorem legible_of_integer? {s : String} {n : Int} (h : Text.integer? s = some n) : (int n).legible = true := by
  rw [legible, Text.isWritable, decide_eq_true_iff]
  exact Text.length_toDigits_of_integer? h

/-- A value other than a text that is read as an integer from its written form is an integer. -/
theorem exists_int_of_integer?_written {v : Value} {n : Int} (h : Text.integer? v.written = some n)
    (hv : ∀ s, v ≠ .text s) : ∃ m, v = .int m := by
  have hno (c : Char) (hmem : c ∈ v.written.toList) (hc : Text.isMark c = true) : ∃ m, v = .int m := by
    rw [Text.integer?_eq_none hmem hc] at h
    cases h
  cases v with
  | int m => exact ⟨m, rfl⟩
  | text s => exact absurd rfl (hv s)
  | float x =>
      rw [written.eq_def] at h
      exact absurd ((Binary64.integer?_text x).symm.trans h) nofun
  | null => exact hno 'N' (by rw [written.eq_def]; decide) (by decide)
  | bool b => exact hno 'e' (by rw [written.eq_def]; cases b <;> decide) (by decide)
  | unset => exact hno 'U' (by rw [written.eq_def]; decide) (by decide)
  | column v => exact hno 'C' (by rw [written.eq_def]; simp) (by decide)
  | literal v => exact hno 'L' (by rw [written.eq_def]; simp) (by decide)
  | tuple xs =>
      refine hno '(' ?_ (by decide)
      rw [written.eq_def]
      rcases xs with _ | ⟨x, _ | ⟨y, ys⟩⟩ <;> simp
  | list xs => exact hno '[' (by rw [written.eq_def]; simp) (by decide)
  | dict es => exact hno '\x7b' (by rw [written.eq_def]; simp) (by decide)

end Value

end ChartGrammar
