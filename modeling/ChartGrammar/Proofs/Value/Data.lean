import ChartGrammar.Proofs.Text.Order
import ChartGrammar.Proofs.Value.Sameness
import ChartGrammar.Value.Json
import Mathlib.Data.List.Nodup
import Mathlib.Data.List.Perm.Subperm

/-! Plain data: null, truth values, integers and texts, in lists, tuples and dictionaries under texts. Two such values
agree if they differ at most in the order of keys and in which sequences are tuples. Each has a canonical form, with
lists for tuples and sorted keys at every level, and agreeing is having one canonical form. -/

namespace ChartGrammar

namespace Value

/-! ### Data and agreement -/

mutual

/-- Whether a value is built from null, truth values, integers and texts by lists, tuples and dictionaries whose keys
are pairwise different texts. -/
def isData : Value → Bool
  | null => true
  | bool _ => true
  | int _ => true
  | text _ => true
  | list xs => areData xs
  | tuple xs => areData xs
  | dict es => entriesAreData es
  | _ => false

/-- Whether all items are data. -/
def areData : List Value → Bool
  | [] => true
  | v :: vs => isData v && areData vs

/-- Whether all keys are texts, none the same as a later one, and all values data. -/
def entriesAreData : Entries → Bool
  | [] => true
  | (text s, v) :: es => isData v && es.all (fun e => !(text s).same e.1) && entriesAreData es
  | _ => false

end

mutual

/-- Whether two data are equal up to the order of keys and the distinction of tuples from lists. -/
def agrees : Value → Value → Bool
  | null, null => true
  | bool a, bool b => a == b
  | int m, int n => m == n
  | text a, text b => a == b
  | list xs, list ys => itemsAgree xs ys
  | list xs, tuple ys => itemsAgree xs ys
  | tuple xs, list ys => itemsAgree xs ys
  | tuple xs, tuple ys => itemsAgree xs ys
  | dict es, dict fs => es.length == fs.length && entriesAgree es fs
  | _, _ => false

/-- Item by item, and equally many. -/
def itemsAgree : List Value → List Value → Bool
  | [], [] => true
  | a :: as, b :: bs => agrees a b && itemsAgree as bs
  | _, _ => false

/-- Whether each entry of the first dictionary agrees with one of the second under the same key. -/
def entriesAgree : Entries → Entries → Bool
  | [], _ => true
  | (k, v) :: es, fs => (fs.any fun f => k.same f.1 && agrees v f.2) && entriesAgree es fs

end

variable {v w : Value} {xs ys : List Value} {es fs : Entries}

theorem areData_iff : areData xs = true ↔ ∀ x ∈ xs, x.isData = true := by
  induction xs with
  | nil => simp [areData]
  | cons x xs ih => simp [areData, ih]

theorem entriesAreData_iff : entriesAreData es = true ↔
    (∀ e ∈ es, (∃ s, e.1 = text s) ∧ e.2.isData = true) ∧ (es.map (·.1)).Nodup := by
  induction es with
  | nil => simp [entriesAreData]
  | cons e es ih =>
      obtain ⟨k, v⟩ := e
      cases k with
      | text s =>
          have hfresh : (∀ e ∈ es, (text s).same e.1 = false) ↔ text s ∉ es.map (·.1) := by
            simp only [← Bool.not_eq_true, same_text_iff, List.mem_map, not_exists, not_and]
          simp only [entriesAreData, Bool.and_eq_true, List.all_eq_true, Bool.not_eq_eq_eq_not, Bool.not_true, hfresh,
            ih, List.forall_mem_cons, List.map_cons, List.nodup_cons, text.injEq, exists_eq', true_and]
          tauto
      | _ => simp [entriesAreData]

theorem entriesAgree_iff :
    entriesAgree es fs = true ↔ ∀ e ∈ es, ∃ f ∈ fs, e.1.same f.1 = true ∧ e.2.agrees f.2 = true := by
  induction es with
  | nil => simp [entriesAgree]
  | cons e es ih => simp [entriesAgree, ih]

/-! ### Canonical forms -/

/-- Entries in ascending order of the displays of their keys. -/
def sortedByKey (es : Entries) : Entries :=
  es.mergeSort fun a b => decide (a.1.display ≤ b.1.display)

mutual

/-- The value with tuples made lists and dictionaries in order of their keys. -/
def canonical : Value → Value
  | list xs => list (canonicalItems xs)
  | tuple xs => list (canonicalItems xs)
  | dict es => dict (sortedByKey (canonicalEntries es))
  | v => v

/-- The canonical forms of the items. -/
def canonicalItems : List Value → List Value
  | [] => []
  | v :: vs => canonical v :: canonicalItems vs

/-- The entries with the canonical forms of their values. -/
def canonicalEntries : Entries → Entries
  | [] => []
  | (k, v) :: es => (k, canonical v) :: canonicalEntries es

end

@[simp] theorem canonicalItems_eq_map : canonicalItems xs = xs.map canonical := by
  induction xs with
  | nil => rfl
  | cons x xs ih => simp [canonicalItems, ih]

@[simp] theorem canonicalEntries_eq_map : canonicalEntries es = es.map fun e => (e.1, e.2.canonical) := by
  induction es with
  | nil => rfl
  | cons e es ih => simp [canonicalEntries, ih]

theorem perm_sortedByKey (es : Entries) : (sortedByKey es).Perm es :=
  List.mergeSort_perm _ _

theorem pairwise_sortedByKey (es : Entries) : (sortedByKey es).Pairwise fun a b => a.1.display ≤ b.1.display :=
  pairwise_le_mergeSort (fun e : Value × Value => e.1.display) es

/-- Sorting forgets the order of entries whose keys are pairwise different texts, and nothing else. -/
theorem sortedByKey_eq_iff (htexts : ∀ e ∈ es, ∃ s, e.1 = text s) (hkeys : (es.map (·.1)).Nodup) :
    sortedByKey es = sortedByKey fs ↔ es.Perm fs := by
  constructor
  · intro hsorted
    exact (perm_sortedByKey es).symm.trans (hsorted ▸ perm_sortedByKey fs)
  · intro hperm
    have hboth : (sortedByKey es).Perm (sortedByKey fs) :=
      (perm_sortedByKey es).trans (hperm.trans (perm_sortedByKey fs).symm)
    refine hboth.eq_of_pairwise (fun a b ha hb hab hba => ?_) (pairwise_sortedByKey es) (pairwise_sortedByKey fs)
    replace ha := (perm_sortedByKey es).mem_iff.mp ha
    replace hb := hperm.mem_iff.mpr ((perm_sortedByKey fs).mem_iff.mp hb)
    obtain ⟨s, hs⟩ := htexts a ha
    obtain ⟨t, ht⟩ := htexts b hb
    have hst : s = t := by
      rw [hs, ht] at hab hba
      exact String.le_antisymm hab hba
    exact List.inj_on_of_nodup_map hkeys ha hb (by rw [hs, ht, hst])

/-- Where agreeing is having one canonical form for the items, it is so for the lists. -/
theorem itemsAgree_iff (h : ∀ x ∈ xs, ∀ y ∈ ys, x.agrees y = true ↔ x.canonical = y.canonical) :
    itemsAgree xs ys = true ↔ xs.map canonical = ys.map canonical := by
  induction xs generalizing ys with
  | nil => cases ys <;> simp [itemsAgree]
  | cons x xs ih =>
      cases ys with
      | nil => simp [itemsAgree]
      | cons y ys =>
          have hhead := h x List.mem_cons_self y List.mem_cons_self
          have htail := ih fun x hx y hy => h x (List.mem_cons_of_mem _ hx) y (List.mem_cons_of_mem _ hy)
          simp [itemsAgree, hhead, htail]

/-- Where agreeing is having one canonical form for the values under equal keys, dictionaries agree if one is a
rearrangement of the other once the values are in canonical form. -/
theorem agrees_dict_iff (htexts : ∀ e ∈ es, ∃ s, e.1 = text s) (hkeys : (es.map (·.1)).Nodup)
    (h : ∀ e ∈ es, ∀ f ∈ fs, e.2.agrees f.2 = true ↔ e.2.canonical = f.2.canonical) :
    (dict es).agrees (dict fs) = true ↔
      (es.map fun e => (e.1, e.2.canonical)).Perm (fs.map fun f => (f.1, f.2.canonical)) := by
  have hdistinct : (es.map fun e => (e.1, e.2.canonical)).Nodup := by
    refine List.Nodup.of_map Prod.fst ?_
    rwa [List.map_map]
  have hentry : ∀ e ∈ es, (∃ f ∈ fs, e.1.same f.1 = true ∧ e.2.agrees f.2 = true) ↔
      (e.1, e.2.canonical) ∈ fs.map fun f => (f.1, f.2.canonical) := by
    intro e he
    obtain ⟨s, hs⟩ := htexts e he
    rw [List.mem_map]
    refine exists_congr fun f => and_congr_right fun hf => ?_
    rw [h e he f hf, Prod.mk.injEq, hs, same_text_iff]
    exact and_congr_right fun _ => eq_comm
  have hagrees : (dict es).agrees (dict fs) = true ↔
      es.length = fs.length ∧ ∀ e ∈ es, (e.1, e.2.canonical) ∈ fs.map fun f => (f.1, f.2.canonical) := by
    rw [agrees, Bool.and_eq_true, beq_iff_eq, entriesAgree_iff]
    exact and_congr_right fun _ => forall₂_congr hentry
  rw [hagrees]
  constructor
  · rintro ⟨hlen, hall⟩
    have hsub : (es.map fun e => (e.1, e.2.canonical)) ⊆ fs.map fun f => (f.1, f.2.canonical) := by
      intro p hp
      obtain ⟨e, he, rfl⟩ := List.mem_map.mp hp
      exact hall e he
    exact (List.subperm_of_subset hdistinct hsub).perm_of_length_le (by simp [hlen])
  · intro hperm
    refine ⟨by simpa using hperm.length_eq, fun e he => ?_⟩
    exact hperm.mem_iff.mp (List.mem_map_of_mem he)

/-- Data agree exactly if they have one canonical form. -/
theorem agrees_iff (hv : v.isData = true) (hw : w.isData = true) : v.agrees w = true ↔ v.canonical = w.canonical := by
  have hitems {xs ys : List Value} (ih : ∀ x ∈ xs, ∀ {y : Value}, x.isData = true → y.isData = true →
      (x.agrees y = true ↔ x.canonical = y.canonical)) (hxs : areData xs = true) (hys : areData ys = true) :
      itemsAgree xs ys = true ↔ xs.map canonical = ys.map canonical := by
    rw [areData_iff] at hxs hys
    exact itemsAgree_iff fun x hx y hy => ih x hx (hxs x hx) (hys y hy)
  induction v using Value.induction generalizing w with
  | null => cases w <;> simp [agrees, canonical]
  | bool b => cases w <;> simp [agrees, canonical]
  | int n => cases w <;> simp [agrees, canonical]
  | text s => cases w <;> simp [agrees, canonical]
  | float | unset | column | literal => cases hv
  | list xs ih | tuple xs ih =>
      cases w with
      | list ys | tuple ys => simp [agrees, canonical, hitems ih hv hw]
      | _ => simp [agrees, canonical]
  | dict es ih =>
      cases w with
      | dict fs =>
          obtain ⟨hes, hkeys⟩ := entriesAreData_iff.mp hv
          obtain ⟨hfs, -⟩ := entriesAreData_iff.mp hw
          have hvalues : ∀ e ∈ es, ∀ f ∈ fs, e.2.agrees f.2 = true ↔ e.2.canonical = f.2.canonical :=
            fun e he f hf => (ih e he).2 (hes e he).2 (hfs f hf).2
          rw [agrees_dict_iff (fun e he => (hes e he).1) hkeys hvalues, canonical, canonical, dict.injEq,
            canonicalEntries_eq_map, canonicalEntries_eq_map, sortedByKey_eq_iff]
          · rw [List.forall_mem_map]
            exact fun e he => (hes e he).1
          · simpa [Function.comp_def] using hkeys
      | _ => simp [agrees, canonical]

end Value

end ChartGrammar
