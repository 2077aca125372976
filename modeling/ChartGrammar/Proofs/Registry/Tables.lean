import ChartGrammar.Coverage
import ChartGrammar.Proofs.Text.Order
import ChartGrammar.Shipped.Registry
import Mathlib.Data.List.Nodup

/-! Registries and the tables they are built from. A registry can be built from tables exactly if there is one at
least, each is complete and no two are for one grammar; so it does not matter in which order they come. What is
looked up under a grammar's name is that grammar's table, and what is listed for all grammars comes in the order of
their names, whatever the order of the tables. -/

namespace ChartGrammar

namespace Registry

/-- The tables make a registry. -/
structure Fit (tables : List Table) : Prop where
  nonempty : tables ≠ []
  /-- No two tables are for one grammar. -/
  distinct : (tables.map Table.grammar).Nodup
  complete : ∀ t ∈ tables, ∀ k : Kind, t.incompleteness? k = none

variable {r other : Registry} {tables others : List Table} {t : Table} {grammar : String} {kind : Kind} {key : StyleKey}

/-! ### Registration -/

/-- Tables are registered after others exactly if they are complete and all grammars differ. -/
theorem foldlM_register_eq_ok_iff {registered result : List Table} (h : (registered.map Table.grammar).Nodup) :
    tables.foldlM register registered = .ok result ↔ result = registered ++ tables ∧
      ((registered ++ tables).map Table.grammar).Nodup ∧ ∀ t ∈ tables, ∀ k : Kind, t.incompleteness? k = none := by
  induction tables generalizing registered with
  | nil =>
      rw [List.append_nil]
      constructor
      · intro hfold
        cases hfold
        exact ⟨rfl, h, fun _ ht => absurd ht List.not_mem_nil⟩
      · rintro ⟨rfl, -⟩
        rfl
  | cons t tables ih =>
      have hsplit : registered ++ t :: tables = registered ++ [t] ++ tables := by simp
      -- The grammar of the table is new exactly if the names registered so far and its own all differ.
      have hnew : (∀ e ∈ registered, e.grammar ≠ t.grammar) ↔ ((registered ++ [t]).map Table.grammar).Nodup := by
        rw [List.map_append, List.map_singleton, List.nodup_append]
        simp [h]
      rw [List.foldlM_cons, bind_eq_ok_iff, hsplit]
      constructor
      · rintro ⟨middle, hregister, hrest⟩
        obtain ⟨hfault, rfl⟩ := register_eq_ok_iff.mp hregister
        obtain ⟨hfree, hcomplete⟩ := tableFault?_eq_none_iff.mp hfault
        obtain ⟨rfl, hdistinct, hall⟩ := (ih (hnew.mp hfree)).mp hrest
        exact ⟨rfl, hdistinct, List.forall_mem_cons.mpr ⟨hcomplete, hall⟩⟩
      · rintro ⟨rfl, hdistinct, hall⟩
        obtain ⟨hcomplete, hall⟩ := List.forall_mem_cons.mp hall
        have hfirst : ((registered ++ [t]).map Table.grammar).Nodup := by
          rw [List.map_append] at hdistinct
          exact hdistinct.of_append_left
        refine ⟨registered ++ [t], register_eq_ok_iff.mpr ⟨?_, rfl⟩, (ih hfirst).mpr ⟨rfl, hdistinct, hall⟩⟩
        exact tableFault?_eq_none_iff.mpr ⟨hnew.mpr hfirst, hcomplete⟩

theorem ofTables_eq_ok_iff : ofTables tables = .ok r ↔ Fit tables ∧ r = ⟨tables⟩ := by
  have hnone : (([] : List Table).map Table.grammar).Nodup := List.nodup_nil
  unfold ofTables
  rw [bind_eq_ok_iff]
  constructor
  · rintro ⟨registered, hfold, hregistry⟩
    obtain ⟨rfl, hdistinct, hcomplete⟩ := (foldlM_register_eq_ok_iff hnone).mp hfold
    unfold ofRegistered at hregistry
    split at hregistry
    · cases hregistry
    · next hsome =>
        cases hregistry
        exact ⟨⟨fun hnone => hsome (List.isEmpty_iff.mpr hnone), hdistinct, hcomplete⟩, rfl⟩
  · rintro ⟨hfit, rfl⟩
    refine ⟨tables, (foldlM_register_eq_ok_iff hnone).mpr ⟨rfl, hfit.distinct, hfit.complete⟩, ?_⟩
    rw [ofRegistered, if_neg (mt List.isEmpty_iff.mp hfit.nonempty)]

/-- The tables of a registry that was built make a registry. -/
theorem fit_of_ofTables (h : ofTables tables = .ok r) : Fit r.tables := by
  obtain ⟨hfit, rfl⟩ := ofTables_eq_ok_iff.mp h
  exact hfit

theorem tables_of_ofTables (h : ofTables tables = .ok r) : r.tables = tables := by
  obtain ⟨-, rfl⟩ := ofTables_eq_ok_iff.mp h
  rfl

/-- The tables that the library holds make its registry. -/
theorem ofTables_shipped : ofTables [Shipped.Imperative.table, Shipped.Layered.table] = .ok shipped := rfl

/-! ### Look-up -/

/-- Tables of one grammar are one table. -/
theorem Fit.eq_of_grammar (h : Fit tables) {t u : Table} (ht : t ∈ tables) (hu : u ∈ tables)
    (hgrammar : t.grammar = u.grammar) : t = u :=
  List.inj_on_of_nodup_map h.distinct ht hu hgrammar

theorem table?_eq_some_iff (h : Fit r.tables) : r.table? grammar = some t ↔ t ∈ r.tables ∧ t.grammar = grammar := by
  constructor
  · exact fun hfound => ⟨List.mem_of_find?_eq_some hfound, by simpa using List.find?_some hfound⟩
  · rintro ⟨ht, rfl⟩
    cases hfound : r.table? t.grammar with
    | none => simpa using List.find?_eq_none.mp hfound t ht
    | some u =>
        have hu := List.mem_of_find?_eq_some hfound
        have hgrammar : u.grammar = t.grammar := by simpa using List.find?_some hfound
        rw [h.eq_of_grammar hu ht hgrammar]

/-- A grammar's table is the same in a registry that has more tables. -/
theorem table_of_subset (h : Fit r.tables) (hother : Fit other.tables) (hsub : r.tables ⊆ other.tables)
    (ht : t ∈ r.tables) : r.table t.grammar = other.table t.grammar := by
  rw [table, table, (table?_eq_some_iff h).mpr ⟨ht, rfl⟩, (table?_eq_some_iff hother).mpr ⟨hsub ht, rfl⟩]

/-! ### Listing -/

theorem mem_sorted : t ∈ r.sorted ↔ t ∈ r.tables :=
  List.mem_mergeSort

theorem sorted_pairwise (h : Fit r.tables) : r.sorted.Pairwise fun t u => t.grammar < u.grammar :=
  pairwise_lt_mergeSort h.distinct

/-- The tables come out in one order, however they were put in. -/
theorem sorted_eq_of_perm (h : Fit r.tables) (hperm : r.tables.Perm other.tables) : r.sorted = other.sorted := by
  have hother : other.sorted.Pairwise fun t u => t.grammar < u.grammar :=
    pairwise_lt_mergeSort ((hperm.map Table.grammar).nodup_iff.mp h.distinct)
  refine eq_of_pairwise_lt (sorted_pairwise h) hother fun t => ?_
  rw [mem_sorted, mem_sorted, hperm.mem_iff]

theorem cropping_entry_iff (t : Table) {cropping : Cropping} :
    (do return (t.grammar, ← (← t.style? kind key).cropping)) = some (grammar, cropping) ↔
      t.grammar = grammar ∧ ∃ row, t.style? kind key = some row ∧ row.cropping = some cropping := by
  cases t.style? kind key with
  | none => simp
  | some row => cases hcropping : row.cropping <;> simp [hcropping]

/-- The ways of cropping that are listed are those of the tables' rows. -/
theorem mem_croppings_iff {cropping : Cropping} : (grammar, cropping) ∈ r.croppings kind key ↔
    ∃ t ∈ r.tables, t.grammar = grammar ∧ ∃ row, t.style? kind key = some row ∧ row.cropping = some cropping := by
  unfold croppings
  rw [List.mem_filterMap]
  refine exists_congr fun t => ?_
  rw [mem_sorted]
  exact and_congr_right fun _ => cropping_entry_iff t

end Registry

end ChartGrammar
