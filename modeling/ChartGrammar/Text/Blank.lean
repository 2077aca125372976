/-! White space at the ends of a text. Blanks are the white-space characters of Unicode together with the
four information separators; zero-width characters are not among them. -/

namespace ChartGrammar.Text

/-- The blank characters: the tab and line controls, the information separators, the space, and the
spaces and line breaks beyond ASCII. -/
def isBlank (c : Char) : Bool :=
  let n := c.toNat
  (9 ≤ n && n ≤ 13) || (28 ≤ n && n ≤ 32) || n == 0x85 || n == 0xa0 || n == 0x1680
    || (0x2000 ≤ n && n ≤ 0x200a) || n == 0x2028 || n == 0x2029 || n == 0x202f || n == 0x205f || n == 0x3000

/-- The text without the characters satisfying `p` at its two ends. -/
def dropEnds (p : Char → Bool) (s : List Char) : List Char :=
  ((s.dropWhile p).reverse.dropWhile p).reverse

/-- The text without the blanks at its two ends. -/
def strip (s : String) : String :=
  String.ofList (dropEnds isBlank s.toList)

/-- Whether nothing but blanks stands in the text. -/
def blank (s : String) : Bool :=
  s.toList.all isBlank

/-- A list that starts with a character failing `p`, or is empty, has no start to drop. -/
theorem dropWhile_eq_self {p : Char → Bool} {s : List Char} (h : ∀ c ∈ s.head?, p c = false) :
    s.dropWhile p = s := by
  cases s with
  | nil => rfl
  | cons c rest => simp [h c rfl]

/-- Dropping stops at a character failing `p`. -/
theorem head?_dropWhile {p : Char → Bool} {s : List Char} : ∀ c ∈ (s.dropWhile p).head?, p c = false := by
  intro c head
  have := List.head?_dropWhile_not p s
  rw [Option.mem_def.mp head] at this
  simpa using this

/-- Once the ends are dropped, there is nothing left to drop. -/
theorem dropEnds_dropEnds (p : Char → Bool) (s : List Char) : dropEnds p (dropEnds p s) = dropEnds p s := by
  have start : (dropEnds p s).dropWhile p = dropEnds p s := by
    apply dropWhile_eq_self
    intro c head
    have kept : dropEnds p s <+: s.dropWhile p := by
      simpa [dropEnds] using List.reverse_prefix.mpr (List.dropWhile_suffix p (l := (s.dropWhile p).reverse))
    obtain ⟨rest, whole⟩ := kept
    apply head?_dropWhile (s := s)
    rw [← whole, List.head?_append, Option.mem_def.mp head]
    rfl
  rw [dropEnds, start]
  simp only [dropEnds, List.reverse_reverse]
  rw [dropWhile_eq_self head?_dropWhile]

@[simp] theorem strip_strip (s : String) : strip (strip s) = strip s := by
  simp [strip, dropEnds_dropEnds]

end ChartGrammar.Text
