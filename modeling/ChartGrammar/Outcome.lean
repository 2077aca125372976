/-! Outcomes of operations that may fail: when a composite and a traversal succeed, and what a fold keeps as long
as none of its steps fails. -/

namespace ChartGrammar

/-- A composite succeeds exactly if its first part does and its second part does on what the first gives. -/
theorem bind_eq_ok_iff {ε α β : Type} {first : Except ε α} {second : α → Except ε β} {b : β} :
    (first >>= second) = .ok b ↔ ∃ a, first = .ok a ∧ second a = .ok b := by
  cases first with
  | error e => simp [bind, Except.bind]
  | ok a => simp [bind, Except.bind]

/-- A composite fails as its first part does, or as its second part does on what the first gives. -/
theorem bind_eq_error_iff {ε α β : Type} {first : Except ε α} {second : α → Except ε β} {e : ε} :
    (first >>= second) = .error e ↔ first = .error e ∨ ∃ a, first = .ok a ∧ second a = .error e := by
  cases first with
  | error e => simp [bind, Except.bind]
  | ok a => simp [bind, Except.bind]

/-- A result that is changed afterwards is there exactly if the result is. -/
theorem map_eq_ok_iff {ε α β : Type} {first : Except ε α} {f : α → β} {b : β} :
    f <$> first = .ok b ↔ ∃ a, first = .ok a ∧ f a = b := by
  cases first with
  | error e => simp [Functor.map, Except.map]
  | ok a => simp [Functor.map, Except.map]

/-- What cannot fail does not decide whether a composite succeeds. -/
theorem exists_bind_pure_iff {ε α β : Type} {first : Except ε α} {f : α → β} :
    (∃ b, (first >>= fun a => pure (f a)) = .ok b) ↔ ∃ a, first = .ok a := by
  cases first with
  | error e => simp [bind, Except.bind]
  | ok a => simp [bind, Except.bind, pure, Except.pure]

/-- What each step of a fold keeps, the fold keeps. -/
theorem foldlM_keeps {ε α β : Type} (keeps : α → Prop) {step : α → β → Except ε α}
    (sound : ∀ a b c, keeps a → step a b = .ok c → keeps c) {items : List β} {first last : α}
    (start : keeps first) (ends : items.foldlM step first = .ok last) : keeps last := by
  induction items generalizing first with
  | nil => cases ends; exact start
  | cons item rest ih =>
    rw [List.foldlM_cons] at ends
    obtain ⟨middle, taken, ends⟩ := bind_eq_ok_iff.mp ends
    exact ih (sound first item middle start taken) ends

/-- A fold fails as the step for one of the items does, after the steps for those before it have succeeded. -/
theorem foldlM_eq_error_iff {ε α β : Type} {step : α → β → Except ε α} {items : List β} {first : α} {e : ε} :
    items.foldlM step first = .error e ↔ ∃ before item after middle, items = before ++ item :: after ∧
      before.foldlM step first = .ok middle ∧ step middle item = .error e := by
  constructor
  · intro fails
    induction items generalizing first with
    | nil => cases fails
    | cons item rest ih =>
      rw [List.foldlM_cons] at fails
      rcases bind_eq_error_iff.mp fails with here | ⟨next, taken, fails⟩
      · exact ⟨[], item, rest, first, rfl, rfl, here⟩
      · obtain ⟨before, faulty, after, middle, rfl, reached, fault⟩ := ih fails
        refine ⟨item :: before, faulty, after, middle, rfl, ?_, fault⟩
        rw [List.foldlM_cons]
        exact bind_eq_ok_iff.mpr ⟨next, taken, reached⟩
  · rintro ⟨before, item, after, middle, rfl, reached, fault⟩
    rw [List.foldlM_append]
    refine bind_eq_error_iff.mpr (.inr ⟨middle, reached, ?_⟩)
    rw [List.foldlM_cons]
    exact bind_eq_error_iff.mpr (.inl fault)

/-- A traversal succeeds exactly if its operation does on every item. -/
theorem exists_mapM_iff {ε α β : Type} {f : α → Except ε β} {items : List α} :
    (∃ results, items.mapM f = .ok results) ↔ ∀ a ∈ items, ∃ b, f a = .ok b := by
  induction items with
  | nil => exact ⟨fun _ a member => absurd member List.not_mem_nil, fun _ => ⟨[], rfl⟩⟩
  | cons item rest ih =>
    rw [List.forall_mem_cons, ← ih]
    constructor
    · rintro ⟨results, taken⟩
      rw [List.mapM_cons] at taken
      obtain ⟨b, first, taken⟩ := bind_eq_ok_iff.mp taken
      obtain ⟨others, further, -⟩ := bind_eq_ok_iff.mp taken
      exact ⟨⟨b, first⟩, others, further⟩
    · rintro ⟨⟨b, first⟩, others, further⟩
      refine ⟨b :: others, ?_⟩
      rw [List.mapM_cons]
      exact bind_eq_ok_iff.mpr ⟨b, first, bind_eq_ok_iff.mpr ⟨others, further, rfl⟩⟩

/-- Each result of a traversal is the result for one of the items. -/
theorem exists_of_mem_mapM {ε α β : Type} {f : α → Except ε β} {items : List α} {results : List β}
    (taken : items.mapM f = .ok results) : ∀ b ∈ results, ∃ a ∈ items, f a = .ok b := by
  induction items generalizing results with
  | nil =>
    cases taken
    exact fun b member => absurd member List.not_mem_nil
  | cons item rest ih =>
    rw [List.mapM_cons] at taken
    obtain ⟨c, first, taken⟩ := bind_eq_ok_iff.mp taken
    obtain ⟨others, further, taken⟩ := bind_eq_ok_iff.mp taken
    cases taken
    rw [List.forall_mem_cons]
    refine ⟨⟨item, List.mem_cons_self, first⟩, fun b member => ?_⟩
    obtain ⟨a, among, one⟩ := ih further b member
    exact ⟨a, List.mem_cons_of_mem item among, one⟩

/-- The results of a traversal are the results for the items. -/
theorem mem_mapM_iff {ε α β : Type} {f : α → Except ε β} {items : List α} {results : List β}
    (taken : items.mapM f = .ok results) {b : β} : b ∈ results ↔ ∃ a ∈ items, f a = .ok b := by
  refine ⟨exists_of_mem_mapM taken b, ?_⟩
  induction items generalizing results with
  | nil =>
    rintro ⟨a, member, -⟩
    exact absurd member List.not_mem_nil
  | cons item rest ih =>
    rw [List.mapM_cons] at taken
    obtain ⟨c, first, taken⟩ := bind_eq_ok_iff.mp taken
    obtain ⟨others, further, taken⟩ := bind_eq_ok_iff.mp taken
    cases taken
    rintro ⟨a, member, one⟩
    rcases List.mem_cons.mp member with rfl | member
    · rw [first] at one
      cases one
      exact List.mem_cons_self
    · exact List.mem_cons_of_mem c (ih further ⟨a, member, one⟩)

/-- A selection succeeds exactly if its test does on every item. -/
theorem exists_filterM_iff {ε α : Type} {p : α → Except ε Bool} {items : List α} :
    (∃ kept, items.filterM p = .ok kept) ↔ ∀ a ∈ items, ∃ b, p a = .ok b := by
  -- The selection gathers what it keeps backwards, after what was kept before.
  have gathered (before : List α) :
      (∃ kept, items.filterAuxM p before = .ok kept) ↔ ∀ a ∈ items, ∃ b, p a = .ok b := by
    induction items generalizing before with
    | nil => exact ⟨fun _ a member => absurd member List.not_mem_nil, fun _ => ⟨before, rfl⟩⟩
    | cons item rest ih =>
      rw [List.forall_mem_cons, List.filterAuxM]
      constructor
      · rintro ⟨kept, taken⟩
        obtain ⟨b, first, taken⟩ := bind_eq_ok_iff.mp taken
        exact ⟨⟨b, first⟩, (ih _).mp ⟨kept, taken⟩⟩
      · rintro ⟨⟨b, first⟩, others⟩
        obtain ⟨kept, taken⟩ := (ih _).mpr others
        exact ⟨kept, bind_eq_ok_iff.mpr ⟨b, first, taken⟩⟩
  rw [← gathered []]
  constructor
  · rintro ⟨kept, taken⟩
    obtain ⟨backwards, taken, -⟩ := bind_eq_ok_iff.mp taken
    exact ⟨backwards, taken⟩
  · rintro ⟨backwards, taken⟩
    exact ⟨backwards.reverse, bind_eq_ok_iff.mpr ⟨backwards, taken, rfl⟩⟩

/-- A selection gathers what its test says yes to, after what was kept before. -/
theorem mem_filterAuxM_iff {ε α : Type} {p : α → Except ε Bool} {items before after : List α}
    (taken : items.filterAuxM p before = .ok after) {a : α} :
    a ∈ after ↔ a ∈ before ∨ a ∈ items ∧ p a = .ok true := by
  induction items generalizing before with
  | nil =>
    cases taken
    simp
  | cons item rest ih =>
    rw [List.filterAuxM] at taken
    obtain ⟨b, first, taken⟩ := bind_eq_ok_iff.mp taken
    rw [ih taken]
    by_cases same : a = item
    · subst same
      cases b <;> simp [first]
    · cases b <;> simp [same]

/-- What a selection keeps is what its test says yes to. -/
theorem mem_filterM_iff {ε α : Type} {p : α → Except ε Bool} {items kept : List α}
    (taken : items.filterM p = .ok kept) {a : α} : a ∈ kept ↔ a ∈ items ∧ p a = .ok true := by
  obtain ⟨backwards, gathered, taken⟩ := bind_eq_ok_iff.mp taken
  cases taken
  rw [List.mem_reverse, mem_filterAuxM_iff gathered]
  simp

end ChartGrammar
