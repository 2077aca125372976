import ChartGrammar.Outcome

/-! Searches in lists whose items pass a test up to some place and fail it from there on. The test may break off
the search. Where a list is not of that kind a place is found nevertheless, and which one it is depends on the
items that are looked at; so that is part of what a search is. -/

namespace ChartGrammar.Sorting

variable {ε α : Type}

/-- The place between two others up to which items pass a test, by halving. A search that works backward takes
the earlier of two middle items. -/
def halve (backward : Bool) (passes : α → Except ε Bool) (items : List α) : Nat → Nat → Nat → Except ε Nat
  | 0, low, _ => .ok low
  | steps + 1, low, high =>
    let middle := low + (if backward then high - low - 1 else high - low) / 2
    match items[middle]? with
    | none => .ok low
    | some item => do
      if high ≤ low then return low
      else if ← passes item then halve backward passes items steps (middle + 1) high
      else halve backward passes items steps low middle

/-- Two places between which the test begins to fail, by strides from the front, each about twice as long as the
one before it. -/
def stride (passes : α → Except ε Bool) (items : List α) : Nat → Nat → Nat → Except ε (Nat × Nat)
  | 0, low, high => .ok (low, high)
  | steps + 1, low, high =>
    match items[high]? with
    | none => .ok (low, items.length)
    | some item => do
      if ← passes item then stride passes items steps (high + 1) (2 * high + 1) else return (low, high)

/-- The number of items in front that pass a test, by strides and then by halving. -/
def seek (backward : Bool) (passes : α → Except ε Bool) (items : List α) : Except ε Nat := do
  let (low, high) ← stride passes items (items.length + 1) 0 0
  halve backward passes items (items.length + 1) low high

/-- Puts an item into a list by halving: in front of the items that it is below. -/
def place (below : α → α → Except ε Bool) (item : α) (items : List α) : Except ε (List α) := do
  let place ← halve false (fun other => not <$> below item other) items (items.length + 1) 0 items.length
  return items.take place ++ item :: items.drop place

/-- An item that is put into a list joins the others, and none is lost. -/
theorem perm_place {below : α → α → Except ε Bool} {item : α} {items placed : List α}
    (placing : place below item items = .ok placed) : placed.Perm (item :: items) := by
  obtain ⟨n, -, done⟩ := bind_eq_ok_iff.mp placing
  cases done
  exact List.perm_middle.trans (by rw [List.take_append_drop])

/-- Items that are put into a list one by one join the others, and none is lost. -/
theorem perm_foldlM_place {below : α → α → Except ε Bool} {items start placed : List α}
    (placing : items.foldlM (fun sorted item => place below item sorted) start = .ok placed) :
    placed.Perm (start ++ items) := by
  induction items generalizing start with
  | nil => cases placing; simp
  | cons item rest ih =>
    rw [List.foldlM_cons] at placing
    obtain ⟨middle, one, placing⟩ := bind_eq_ok_iff.mp placing
    exact (ih placing).trans (((perm_place one).append_right rest).trans List.perm_middle.symm)

end ChartGrammar.Sorting
