import ChartGrammar.Sorting.Search

/-! Merges of two neighbouring runs into one. Item by item, the lower of the two first ones is taken, and the
left one of two that are equally low. Once one run has won so often in a row as the merge has patience for, leaps
take the place of single steps: each finds by a search how many items of a run come before the first of the
other. Long leaps make the merge less patient, short ones end the leaping and make it more patient. Under an
order between the items this is the stable merge; without one it still takes each item once. -/

namespace ChartGrammar.Sorting

variable {ε α : Type}

/-- The least length of a leap that is worth its search, and the patience of the first merge. -/
def worthwhile : Nat := 7

/-- How a merge goes on: item by item, where one of the runs has just won so often in a row, or by leaps. -/
inductive Pace where
  | walking (rightWins : Bool) (wins : Nat)
  | leaping
  deriving DecidableEq, Repr

/-- What a leap takes, and what it leaves of the runs. -/
structure Leap (α : Type) where
  /-- How many items the leap is long. -/
  length : Nat
  taken : List α
  left : List α
  right : List α

/-- Whether a merge is over: the last item of the left run belongs behind the right run. -/
def settled (left right : List α) : Bool :=
  left.length ≤ 1 || right.isEmpty

/-- A leap through the left run, to the first item of the right run, which is taken too if the merge is not
over. -/
def leapLeft (backward : Bool) (below : α → α → Except ε Bool) (left : List α) :
    List α → Except ε (Leap α)
  | [] => .ok ⟨0, [], left, []⟩
  | key :: others => do
    let length ← seek backward (fun item => not <$> below key item) left
    if settled (left.drop length) (key :: others) then
      return ⟨length, left.take length, left.drop length, key :: others⟩
    else return ⟨length, left.take length ++ [key], left.drop length, others⟩

/-- A leap through the right run, to the first item of the left run, which is taken too if the merge is not
over. -/
def leapRight (backward : Bool) (below : α → α → Except ε Bool) (right : List α) :
    List α → Except ε (Leap α)
  | [] => .ok ⟨0, [], [], right⟩
  | key :: others => do
    let length ← seek backward (fun item => below item key) right
    if settled (key :: others) (right.drop length) then
      return ⟨length, right.take length, key :: others, right.drop length⟩
    else return ⟨length, right.take length ++ [key], others, right.drop length⟩

/-- A leap through the left run takes items of both runs and leaves the others. -/
theorem perm_leapLeft {backward : Bool} {below : α → α → Except ε Bool} {left right : List α} {step : Leap α}
    (leaping : leapLeft backward below left right = .ok step) :
    (step.taken ++ (step.right ++ step.left)).Perm (right ++ left) := by
  match right, leaping with
  | [], leaping => cases leaping; exact .refl _
  | key :: others, leaping =>
    obtain ⟨n, -, leaping⟩ := bind_eq_ok_iff.mp leaping
    split at leaping <;> cases leaping
    · refine (List.perm_append_comm_assoc _ _ _).trans ?_
      rw [List.take_append_drop]
    · rw [List.append_assoc, List.singleton_append]
      refine List.perm_middle.trans (.cons key ((List.perm_append_comm_assoc _ _ _).trans ?_))
      exact .of_eq (congrArg (others ++ ·) (List.take_append_drop n left))

/-- A leap through the right run takes items of both runs and leaves the others. -/
theorem perm_leapRight {backward : Bool} {below : α → α → Except ε Bool} {left right : List α} {step : Leap α}
    (leaping : leapRight backward below right left = .ok step) :
    (step.taken ++ (step.right ++ step.left)).Perm (right ++ left) := by
  match left, leaping with
  | [], leaping => cases leaping; exact .refl _
  | key :: others, leaping =>
    obtain ⟨n, -, leaping⟩ := bind_eq_ok_iff.mp leaping
    split at leaping <;> cases leaping
    · rw [← List.append_assoc, List.take_append_drop]
    · rw [List.append_assoc, List.singleton_append]
      refine (List.Perm.append_left _ List.perm_middle.symm).trans ?_
      rw [← List.append_assoc, List.take_append_drop]

/-- A leap through one of the runs. -/
def leapThrough (rightRun backward : Bool) (below : α → α → Except ε Bool) (left right : List α) :
    Except ε (Leap α) :=
  if rightRun then leapRight backward below right left else leapLeft backward below left right

/-- A leap through one of the runs takes items of both and leaves the others. -/
theorem perm_leapThrough {rightRun backward : Bool} {below : α → α → Except ε Bool} {left right : List α}
    {step : Leap α} (leaping : leapThrough rightRun backward below left right = .ok step) :
    (step.taken ++ (step.right ++ step.left)).Perm (right ++ left) := by
  unfold leapThrough at leaping
  split at leaping
  · exact perm_leapRight leaping
  · exact perm_leapLeft leaping

/-- A leap through each of the runs, as long as the longer of the two. A merge that works backward leaps through
the right run first. -/
def leap (backward : Bool) (below : α → α → Except ε Bool) (left right : List α) : Except ε (Leap α) := do
  let first ← leapThrough backward backward below left right
  if settled first.left first.right then return first
  else
    let second ← leapThrough (!backward) backward below first.left first.right
    return ⟨max first.length second.length, first.taken ++ second.taken, second.left, second.right⟩

/-- A leap takes items of both runs and leaves the others. -/
theorem perm_leap {backward : Bool} {below : α → α → Except ε Bool} {left right : List α} {step : Leap α}
    (leaping : leap backward below left right = .ok step) :
    (step.taken ++ (step.right ++ step.left)).Perm (right ++ left) := by
  obtain ⟨first, one, leaping⟩ := bind_eq_ok_iff.mp leaping
  split at leaping
  · cases leaping; exact perm_leapThrough one
  · obtain ⟨second, two, leaping⟩ := bind_eq_ok_iff.mp leaping
    cases leaping
    rw [List.append_assoc]
    exact ((perm_leapThrough two).append_left _).trans (perm_leapThrough one)

/-- Two runs as one, with the patience that is left at the end. -/
def mergeAt (backward : Bool) (below : α → α → Except ε Bool) :
    Nat → Pace → Nat → List α → List α → Except ε (List α × Nat)
  | steps + 1, .walking rightWins wins, patience, l :: left, r :: right => do
    if settled (l :: left) (r :: right) then return (r :: right ++ l :: left, patience)
    else if ← below r l then
      let wins := if rightWins then wins + 1 else 1
      let pace := if patience ≤ wins then .leaping else .walking true wins
      let (rest, patience) ← mergeAt backward below steps pace patience (l :: left) right
      return (r :: rest, patience)
    else
      let wins := if rightWins then 1 else wins + 1
      let pace := if patience ≤ wins then .leaping else .walking false wins
      let (rest, patience) ← mergeAt backward below steps pace patience left (r :: right)
      return (l :: rest, patience)
  | steps + 1, .leaping, patience, left, right => do
    if settled left right then return (right ++ left, patience)
    else
      let step ← leap backward below left right
      if settled step.left step.right then return (step.taken ++ (step.right ++ step.left), patience)
      else
        let (pace, patience) : Pace × Nat :=
          if worthwhile ≤ step.length then (.leaping, max (patience - 1) 1)
          else (.walking false 0, patience + 1)
        let (rest, patience) ← mergeAt backward below steps pace patience step.left step.right
        return (step.taken ++ rest, patience)
  | _, _, patience, left, right => .ok (right ++ left, patience)

/-- The merged run holds the items of the two. -/
theorem perm_mergeAt {backward : Bool} {below : α → α → Except ε Bool} {steps : Nat} {pace : Pace}
    {patience left' : Nat} {left right merged : List α}
    (merging : mergeAt backward below steps pace patience left right = .ok (merged, left')) :
    merged.Perm (right ++ left) := by
  induction steps generalizing pace patience left right merged with
  | zero => cases merging; exact .refl _
  | succ steps ih =>
    unfold mergeAt at merging
    split at merging
    next n _ rightWins wins patience l left r right equal =>
      cases equal
      split at merging
      · cases merging; exact .refl _
      · obtain ⟨lower, -, merging⟩ := bind_eq_ok_iff.mp merging
        split at merging
        · obtain ⟨⟨rest, p⟩, again, merging⟩ := bind_eq_ok_iff.mp merging
          cases merging
          exact (ih again).cons r
        · obtain ⟨⟨rest, p⟩, again, merging⟩ := bind_eq_ok_iff.mp merging
          cases merging
          exact ((ih again).cons l).trans List.perm_middle.symm
    next n _ patience left right equal =>
      cases equal
      split at merging
      · cases merging; exact .refl _
      · obtain ⟨step, leaping, merging⟩ := bind_eq_ok_iff.mp merging
        split at merging
        · cases merging; exact perm_leap leaping
        · obtain ⟨⟨rest, p⟩, again, merging⟩ := bind_eq_ok_iff.mp merging
          cases merging
          exact ((ih again).append_left _).trans (perm_leap leaping)
    · cases merging; exact .refl _

/-- Two runs as one where the first item is known to be that of the right run. -/
def mergeFrom (backward : Bool) (below : α → α → Except ε Bool) (patience : Nat) (left : List α) :
    List α → Except ε (List α × Nat)
  | [] => .ok (left, patience)
  | first :: right => do
    let steps := left.length + right.length + 1
    let (rest, patience) ← mergeAt backward below steps (.walking false 0) patience left right
    return (first :: rest, patience)

/-- The merged run holds the items of the two. -/
theorem perm_mergeFrom {backward : Bool} {below : α → α → Except ε Bool} {patience rest : Nat}
    {left right merged : List α} (merging : mergeFrom backward below patience left right = .ok (merged, rest)) :
    merged.Perm (right ++ left) := by
  match right, merging with
  | [], merging => cases merging; exact .refl _
  | first :: right, merging =>
    obtain ⟨⟨others, p⟩, merged, merging⟩ := bind_eq_ok_iff.mp merging
    cases merging
    exact (perm_mergeAt merged).cons first

/-- Two runs as one, merged from the side of the shorter one: from the back, with the runs and their order
turned around, if that is the right one. -/
def mergeShorter (below : α → α → Except ε Bool) (patience : Nat) (left right : List α) :
    Except ε (List α × Nat) :=
  if left.length ≤ right.length then mergeFrom false below patience left right
  else do
    let (merged, patience) ← mergeFrom true (fun a b => below b a) patience right.reverse left.reverse
    return (merged.reverse, patience)

/-- The merged run holds the items of the two. -/
theorem perm_mergeShorter {below : α → α → Except ε Bool} {patience rest : Nat} {left right merged : List α}
    (merging : mergeShorter below patience left right = .ok (merged, rest)) : merged.Perm (left ++ right) := by
  unfold mergeShorter at merging
  split at merging
  · exact (perm_mergeFrom merging).trans List.perm_append_comm
  · obtain ⟨⟨turned, p⟩, merging, done⟩ := bind_eq_ok_iff.mp merging
    cases done
    have back := turned.reverse_perm.trans (perm_mergeFrom merging)
    exact back.trans (List.Perm.append (left.reverse_perm) (right.reverse_perm))

/-- Two neighbouring runs as one, with the patience that is left at the end. What the left run has before the
first item of the right one stays where it is, and so does what the right run has behind the last item of the
left one. -/
def merge (below : α → α → Except ε Bool) (patience : Nat) (left : List α) :
    List α → Except ε (List α × Nat)
  | [] => .ok (left, patience)
  | first :: right => do
    let start ← seek false (fun item => not <$> below first item) left
    match (left.drop start).getLast? with
    | none => return (left.take start ++ first :: right, patience)
    | some last =>
      let behind ← seek true (fun item => not <$> below item last) (first :: right).reverse
      let stop := (first :: right).length - behind
      let (merged, patience) ← mergeShorter below patience (left.drop start) ((first :: right).take stop)
      return (left.take start ++ (merged ++ (first :: right).drop stop), patience)

/-- The merged run holds the items of the two. -/
theorem perm_merge {below : α → α → Except ε Bool} {patience rest : Nat} {left right merged : List α}
    (merging : merge below patience left right = .ok (merged, rest)) : merged.Perm (left ++ right) := by
  match right, merging with
  | [], merging => cases merging; simp
  | first :: right, merging =>
    obtain ⟨start, -, merging⟩ := bind_eq_ok_iff.mp merging
    have fronts := List.take_append_drop start left
    split at merging
    next none =>
      cases merging
      rw [List.getLast?_eq_none_iff.mp none, List.append_nil] at fronts
      rw [fronts]
    next last _ =>
      obtain ⟨behind, -, merging⟩ := bind_eq_ok_iff.mp merging
      obtain ⟨⟨middle, p⟩, middles, merging⟩ := bind_eq_ok_iff.mp merging
      cases merging
      have both := (perm_mergeShorter middles).append_right
        ((first :: right).drop ((first :: right).length - behind))
      rw [List.append_assoc, List.take_append_drop] at both
      refine (both.append_left _).trans ?_
      rw [← List.append_assoc, fronts]

end ChartGrammar.Sorting
