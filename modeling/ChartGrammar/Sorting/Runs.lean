import ChartGrammar.Sorting.Merge

/-! Sorting by runs. A list is cut into runs, which rise or strictly fall; falling ones are turned around, and
short ones are filled up item by item. Neighbouring runs are merged as if halves of the whole list were to be
merged: two of them the sooner, the smaller the halves that hold them both. Under an order between the items
this is the stable sort. A comparison that is no order, or that breaks off, decides by the order in which items
are compared. -/

namespace ChartGrammar.Sorting

variable {ε α : Type}

/-- Splits items after the run that goes on from one before them: it falls, or it does not. -/
def splitRun (below : α → α → Except ε Bool) (falling : Bool) (last : α) : List α → Except ε (List α × List α)
  | [] => .ok ([], [])
  | item :: rest => do
    if (← below item last) == falling then
      let (run, others) ← splitRun below falling item rest
      return (item :: run, others)
    else return ([], item :: rest)

/-- A run and what comes after it are the items they were split from. -/
theorem splitRun_append {below : α → α → Except ε Bool} {falling : Bool} {last : α} {items run others : List α}
    (split : splitRun below falling last items = .ok (run, others)) : run ++ others = items := by
  induction items generalizing last run with
  | nil => cases split; rfl
  | cons item rest ih =>
    obtain ⟨lower, -, split⟩ := bind_eq_ok_iff.mp split
    split at split
    · obtain ⟨⟨more, left⟩, again, split⟩ := bind_eq_ok_iff.mp split
      cases split
      simp [ih again]
    · cases split
      rfl

/-- The first run of some items, in ascending order, and the others. A run is filled up to a length at least. -/
def nextRun (below : α → α → Except ε Bool) (length : Nat) : List α → Except ε (List α × List α)
  | first :: second :: rest => do
    let falling ← below second first
    let (run, others) ← splitRun below falling first (second :: rest)
    let run := if falling then (first :: run).reverse else first :: run
    let missing := length - run.length
    let filled ← (others.take missing).foldlM (fun sorted item => place below item sorted) run
    return (filled, others.drop missing)
  | few => .ok (few, [])

/-- The first run and what comes after it hold the items. -/
theorem perm_nextRun {below : α → α → Except ε Bool} {length : Nat} {items run others : List α}
    (cutting : nextRun below length items = .ok (run, others)) : (run ++ others).Perm items := by
  match items, cutting with
  | [], cutting => cases cutting; exact .refl _
  | [item], cutting => cases cutting; exact .refl _
  | first :: second :: rest, cutting =>
    obtain ⟨falling, -, cutting⟩ := bind_eq_ok_iff.mp cutting
    obtain ⟨⟨begun, left⟩, split, cutting⟩ := bind_eq_ok_iff.mp cutting
    obtain ⟨filled, filling, cutting⟩ := bind_eq_ok_iff.mp cutting
    cases cutting
    have whole := (perm_foldlM_place filling).append_right
      (left.drop (length - (if falling then (first :: begun).reverse else first :: begun).length))
    rw [List.append_assoc, List.take_append_drop] at whole
    refine whole.trans ?_
    rw [← splitRun_append split]
    split
    · exact (first :: begun).reverse_perm.append_right left
    · exact .refl _

/-- The length that runs are filled up to: all of fewer than 64 items, and otherwise from 32 to 64, so that the
whole is nearly a power of two of them. -/
def runLength (total : Nat) : Nat :=
  let share := Nat.pow 2 (total.log2 - 5)
  (total + share - 1) / share

/-- How often a list is halved until the middles of two neighbouring runs in it fall apart. The middles are
counted in half items. -/
def depth (total firstMiddle secondMiddle : Nat) : Nat :=
  let apart (k : Nat) : Bool := firstMiddle * Nat.pow 2 k / total != secondMiddle * Nat.pow 2 k / total
  ((List.range (total.log2 + 2)).find? apart).getD 0

/-- A run that waits to be merged with the one after it. -/
structure Waiting (α : Type) where
  run : List α
  /-- The depth at which the two fall apart. -/
  depth : Nat

/-- Merges a run with those before it that fall apart from their neighbours further down than at a depth. The
waiting runs stand with the last one first. -/
def mergeDeeper (below : α → α → Except ε Bool) (depth : Nat) :
    List (Waiting α) → List α → Nat → Except ε (List (Waiting α) × List α × Nat)
  | [], run, patience => .ok ([], run, patience)
  | before :: waiting, run, patience => do
    if depth < before.depth then
      let (merged, patience) ← merge below patience before.run run
      mergeDeeper below depth waiting merged patience
    else return (before :: waiting, run, patience)

/-- The items of waiting runs, with the last run first. -/
def Waiting.items (waiting : List (Waiting α)) : List α :=
  (waiting.map Waiting.run).reverse.flatten

/-- Merges with waiting runs keep their items. -/
theorem perm_mergeDeeper {below : α → α → Except ε Bool} {depth patience rest : Nat}
    {waiting left : List (Waiting α)} {run merged : List α}
    (merging : mergeDeeper below depth waiting run patience = .ok (left, merged, rest)) :
    (Waiting.items left ++ merged).Perm (Waiting.items waiting ++ run) := by
  induction waiting generalizing run patience with
  | nil => cases merging; exact .refl _
  | cons before waiting ih =>
    unfold mergeDeeper at merging
    split at merging
    · obtain ⟨⟨joined, p⟩, one, merging⟩ := bind_eq_ok_iff.mp merging
      refine (ih merging).trans (((perm_merge one).append_left _).trans ?_)
      simp [Waiting.items]
    · cases merging; exact .refl _

/-- Merges the runs that are left, with the last one first: the last two, or the two before the last if the
first of these is shorter than the last. -/
def mergeAll (below : α → α → Except ε Bool) : Nat → List (List α) → Nat → Except ε (List α)
  | steps + 1, last :: middle :: first :: waiting, patience => do
    if first.length < last.length then
      let (merged, patience) ← merge below patience first middle
      mergeAll below steps (last :: merged :: waiting) patience
    else
      let (merged, patience) ← merge below patience middle last
      mergeAll below steps (merged :: first :: waiting) patience
  | _, [last, first], patience => do return (← merge below patience first last).1
  | _, runs, _ => .ok runs.reverse.flatten

/-- The merged run holds the items of the runs that were left. -/
theorem perm_mergeAll {below : α → α → Except ε Bool} {steps patience : Nat} {runs : List (List α)}
    {merged : List α} (merging : mergeAll below steps runs patience = .ok merged) :
    merged.Perm runs.reverse.flatten := by
  induction steps generalizing runs patience with
  | zero =>
    unfold mergeAll at merging
    split at merging
    · contradiction
    · obtain ⟨⟨joined, p⟩, one, done⟩ := bind_eq_ok_iff.mp merging
      cases done
      simpa using perm_merge one
    · cases merging; exact .refl _
  | succ steps ih =>
    unfold mergeAll at merging
    split at merging
    next _ _ last middle first waiting equal =>
      cases equal
      split at merging
      · obtain ⟨⟨joined, p⟩, one, merging⟩ := bind_eq_ok_iff.mp merging
        refine (ih merging).trans ?_
        simpa using ((perm_merge one).append_right last).append_left waiting.reverse.flatten
      · obtain ⟨⟨joined, p⟩, one, merging⟩ := bind_eq_ok_iff.mp merging
        refine (ih merging).trans ?_
        simpa using (((perm_merge one).append_left first).append_left waiting.reverse.flatten)
    · obtain ⟨⟨joined, p⟩, one, done⟩ := bind_eq_ok_iff.mp merging
      cases done
      simpa using perm_merge one
    · cases merging; exact .refl _

/-- Cuts the remaining items into runs and merges them with the waiting ones. `run` is the last run so far, and
`taken` counts the items in it and before it. -/
def sortFrom (below : α → α → Except ε Bool) (total : Nat) :
    Nat → Nat → List (Waiting α) → List α → Nat → List α → Except ε (List α)
  | steps + 1, taken, waiting, run, patience, item :: rest => do
    let (next, rest) ← nextRun below (runLength total) (item :: rest)
    let middle := 2 * taken - run.length
    let depth := depth total middle (2 * taken + next.length)
    let (waiting, run, patience) ← mergeDeeper below depth waiting run patience
    sortFrom below total steps (taken + next.length) (⟨run, depth⟩ :: waiting) next patience rest
  | _, _, waiting, run, patience, rest => do
    return (← mergeAll below waiting.length (run :: waiting.map Waiting.run) patience) ++ rest

/-- Cutting and merging keep the items. -/
theorem perm_sortFrom {below : α → α → Except ε Bool} {total steps taken patience : Nat}
    {waiting : List (Waiting α)} {run rest sorted : List α}
    (sorting : sortFrom below total steps taken waiting run patience rest = .ok sorted) :
    sorted.Perm (Waiting.items waiting ++ run ++ rest) := by
  have ends {waiting : List (Waiting α)} {run rest sorted : List α} {patience : Nat}
      (sorting :
        (do return (← mergeAll below waiting.length (run :: waiting.map Waiting.run) patience) ++ rest) =
          Except.ok sorted) : sorted.Perm (Waiting.items waiting ++ run ++ rest) := by
    obtain ⟨merged, merging, done⟩ := bind_eq_ok_iff.mp sorting
    cases done
    refine (perm_mergeAll merging).append_right rest |>.trans ?_
    simp [Waiting.items]
  induction steps generalizing taken waiting run patience rest with
  | zero => exact ends sorting
  | succ steps ih =>
    match rest, sorting with
    | [], sorting => exact ends sorting
    | item :: rest, sorting =>
      obtain ⟨⟨next, others⟩, cutting, sorting⟩ := bind_eq_ok_iff.mp sorting
      obtain ⟨⟨left, merged, p⟩, merging, sorting⟩ := bind_eq_ok_iff.mp sorting
      refine (ih sorting).trans ?_
      have cut := (perm_nextRun cutting).append_left (Waiting.items left ++ merged)
      refine .trans ?_ (cut.trans ((perm_mergeDeeper merging).append_right _))
      simp [Waiting.items]

/-- The items in ascending order. -/
def sort (below : α → α → Except ε Bool) (items : List α) : Except ε (List α) := do
  let (run, rest) ← nextRun below (runLength items.length) items
  sortFrom below items.length rest.length run.length [] run worthwhile rest

/-- The items in ascending order are the items. -/
theorem perm_sort {below : α → α → Except ε Bool} {items sorted : List α}
    (sorting : sort below items = .ok sorted) : sorted.Perm items := by
  obtain ⟨⟨run, rest⟩, cutting, sorting⟩ := bind_eq_ok_iff.mp sorting
  exact (perm_sortFrom sorting).trans (perm_nextRun cutting)

end ChartGrammar.Sorting
