import ChartGrammar.Value.Equality
import Mathlib.Data.List.Forall2

/-! Counting as the same. On values without a NaN whose dictionaries have pairwise different keys it is an
equivalence; transitivity needs neither condition, and symmetry only the one on keys, and only on one side.
Dictionaries are compared in one direction, entry by entry, so that symmetry is a matter of counting. -/

namespace ChartGrammar

section Matching

variable {α β : Type} {R : α → β → Prop}

/-- A matching that gives no partner away twice, between lists of equal length, leaves no one without a
partner. -/
theorem exists_partner {xs : List α} {ys : List β} (hlen : xs.length = ys.length)
    (hone : xs.Pairwise fun a b => ∀ y, R a y → ¬R b y) (hall : ∀ x ∈ xs, ∃ y ∈ ys, R x y) :
    ∀ y ∈ ys, ∃ x ∈ xs, R x y := by
  induction xs generalizing ys with
  | nil =>
      intro y hy
      rw [List.length_eq_zero_iff.mp hlen.symm] at hy
      exact absurd hy List.not_mem_nil
  | cons x xs ih =>
      rw [List.pairwise_cons] at hone
      obtain ⟨y, hy, hxy⟩ := hall x List.mem_cons_self
      obtain ⟨before, after, rfl⟩ := List.append_of_mem hy
      have hrest : ∀ z ∈ xs, ∃ w ∈ before ++ after, R z w := by
        intro z hz
        obtain ⟨w, hw, hzw⟩ := hall z (List.mem_cons_of_mem x hz)
        have hne : w ≠ y := fun heq => hone.1 z hz y hxy (heq ▸ hzw)
        simp only [List.mem_append, List.mem_cons, hne, false_or] at hw
        exact ⟨w, List.mem_append.mpr hw, hzw⟩
      have hlen' : xs.length = (before ++ after).length := by
        simp only [List.length_cons, List.length_append] at hlen ⊢
        omega
      intro w hw
      by_cases heq : w = y
      · exact ⟨x, List.mem_cons_self, heq ▸ hxy⟩
      · simp only [List.mem_append, List.mem_cons, heq, false_or] at hw
        obtain ⟨z, hz, hzw⟩ := ih hlen' hone.2 hrest w (List.mem_append.mpr hw)
        exact ⟨z, List.mem_cons_of_mem x hz, hzw⟩

theorem forall₂_symm {S : β → α → Prop} {xs : List α} {ys : List β}
    (hturn : ∀ x ∈ xs, ∀ y, R x y → S y x) (h : List.Forall₂ R xs ys) : List.Forall₂ S ys xs := by
  induction h with
  | nil => exact .nil
  | cons hxy _ ih =>
      rw [List.forall_mem_cons] at hturn
      exact .cons (hturn.1 _ hxy) (ih hturn.2)

theorem forall₂_trans {γ : Type} {S : β → γ → Prop} {T : α → γ → Prop} {xs : List α} {ys : List β}
    {zs : List γ} (hpass : ∀ x ∈ xs, ∀ {y z}, R x y → S y z → T x z) (hxy : List.Forall₂ R xs ys)
    (hyz : List.Forall₂ S ys zs) : List.Forall₂ T xs zs := by
  induction hxy generalizing zs with
  | nil => cases hyz; exact .nil
  | cons hhead _ ih =>
      cases hyz with
      | cons hhead' htail' =>
          rw [List.forall_mem_cons] at hpass
          exact .cons (hpass.1 hhead hhead') (ih hpass.2 htail')

end Matching

namespace Number

theorem same_iff {m n : Number} : m.same n = true ↔ ∃ p, m.place? = some p ∧ n.place? = some p := by
  unfold same
  cases m.place? with
  | none => simp
  | some p =>
      cases n.place? with
      | none => simp
      | some q => simpa using eq_comm

theorem same_symm {m n : Number} (h : m.same n = true) : n.same m = true := by
  obtain ⟨p, hm, hn⟩ := same_iff.mp h
  exact same_iff.mpr ⟨p, hn, hm⟩

theorem same_trans {l m n : Number} (hlm : l.same m = true) (hmn : m.same n = true) : l.same n = true := by
  obtain ⟨p, hl, hm⟩ := same_iff.mp hlm
  obtain ⟨q, hm', hn⟩ := same_iff.mp hmn
  rw [hm, Option.some.injEq] at hm'
  subst hm'
  exact same_iff.mpr ⟨p, hl, hn⟩

@[simp] theorem same_whole_self (n : Int) : (whole n).same (whole n) = true :=
  same_iff.mpr ⟨_, rfl, rfl⟩

theorem same_real_self {x : Binary64} (h : x.isNaN = false) : (real x).same (real x) = true := by
  obtain ⟨p, hp⟩ : ∃ p, (real x).place? = some p := by
    by_cases hinf : x.isInfinite = true <;> simp [place?, h, hinf]
  exact same_iff.mpr ⟨p, hp, hp⟩

end Number

namespace Value

/-- Induction on a value, through the items of lists and tuples and the entries of dictionaries. -/
@[elab_as_elim]
theorem induction {motive : Value → Prop} (null : motive null) (bool : ∀ b, motive (bool b))
    (int : ∀ n, motive (int n)) (float : ∀ x, motive (float x)) (text : ∀ s, motive (text s))
    (list : ∀ xs, (∀ x ∈ xs, motive x) → motive (list xs))
    (tuple : ∀ xs, (∀ x ∈ xs, motive x) → motive (tuple xs))
    (dict : ∀ es : Entries, (∀ e ∈ es, motive e.1 ∧ motive e.2) → motive (dict es))
    (unset : motive unset) (column : ∀ v, motive v → motive (column v))
    (literal : ∀ v, motive v → motive (literal v)) (v : Value) : motive v :=
  @Value.rec motive (fun xs => ∀ x ∈ xs, motive x) (fun es => ∀ e ∈ es, motive e.1 ∧ motive e.2)
    (fun e => motive e.1 ∧ motive e.2)
    null bool int float text list tuple dict unset column literal
    (fun _ h => absurd h List.not_mem_nil) (fun _ _ hhead htail => List.forall_mem_cons.mpr ⟨hhead, htail⟩)
    (fun _ h => absurd h List.not_mem_nil) (fun _ _ hhead htail => List.forall_mem_cons.mpr ⟨hhead, htail⟩)
    (fun _ _ hkey hvalue => ⟨hkey, hvalue⟩) v

/-! ### What counts as the same as a value of each form -/

attribute [local simp] same sameItems sameEntries quantity? number?

theorem sameItems_iff {xs ys : List Value} :
    sameItems xs ys = true ↔ List.Forall₂ (fun a b => a.same b = true) xs ys := by
  induction xs generalizing ys with
  | nil => cases ys <;> simp
  | cons a as ih => cases ys <;> simp [ih]

theorem sameEntries_iff {es fs : Entries} :
    sameEntries es fs = true ↔ ∀ e ∈ es, ∃ f ∈ fs, e.1.same f.1 = true ∧ e.2.same f.2 = true := by
  induction es with
  | nil => simp
  | cons e es ih => simp [ih]

theorem same_null_iff {b : Value} : null.same b = true ↔ b = null := by
  cases b <;> simp

theorem same_unset_iff {b : Value} : unset.same b = true ↔ b = unset := by
  cases b <;> simp

theorem same_text_iff {s : String} {b : Value} : (text s).same b = true ↔ b = text s := by
  cases b with
  | text t => simpa using eq_comm
  | _ => simp

theorem same_text_right_iff {s : String} {a : Value} : a.same (text s) = true ↔ a = text s := by
  cases a <;> simp

theorem same_list_iff {xs : List Value} {b : Value} :
    (list xs).same b = true ↔ ∃ ys, b = list ys ∧ List.Forall₂ (fun a b => a.same b = true) xs ys := by
  cases b <;> simp [sameItems_iff]

theorem same_tuple_iff {xs : List Value} {b : Value} :
    (tuple xs).same b = true ↔ ∃ ys, b = tuple ys ∧ List.Forall₂ (fun a b => a.same b = true) xs ys := by
  cases b <;> simp [sameItems_iff]

theorem same_dict_iff {es : Entries} {b : Value} :
    (dict es).same b = true ↔ ∃ fs, b = dict fs ∧ es.length = fs.length ∧
      ∀ e ∈ es, ∃ f ∈ fs, e.1.same f.1 = true ∧ e.2.same f.2 = true := by
  cases b <;> simp [sameEntries_iff]

theorem same_column_iff {a b : Value} : (column a).same b = true ↔ ∃ c, b = column c ∧ a.same c = true := by
  cases b <;> simp

theorem same_literal_iff {a b : Value} : (literal a).same b = true ↔ ∃ c, b = literal c ∧ a.same c = true := by
  cases b <;> simp

/-- What counts as a number is compared as one, whatever its form. -/
theorem same_of_quantity?_iff {a b : Value} {m : Number} (h : a.quantity? = some m) :
    a.same b = true ↔ ∃ n, b.quantity? = some n ∧ m.same n = true := by
  cases a <;> simp only [quantity?, number?, reduceCtorEq] at h <;> cases b <;>
    simp_all

/-- No condition is needed to pass from one value to the next. -/
theorem same_trans {a b c : Value} (hab : a.same b = true) (hbc : b.same c = true) : a.same c = true := by
  induction a using Value.induction generalizing b c with
  | null =>
      rw [same_null_iff] at hab
      rwa [hab] at hbc
  | unset =>
      rw [same_unset_iff] at hab
      rwa [hab] at hbc
  | text s =>
      rw [same_text_iff] at hab
      rwa [hab] at hbc
  | bool | int | float =>
      obtain ⟨m, hb, hm⟩ := (same_of_quantity?_iff rfl).mp hab
      obtain ⟨n, hc, hn⟩ := (same_of_quantity?_iff hb).mp hbc
      exact (same_of_quantity?_iff rfl).mpr ⟨n, hc, Number.same_trans hm hn⟩
  | list xs ih =>
      obtain ⟨ys, rfl, hxy⟩ := same_list_iff.mp hab
      obtain ⟨zs, rfl, hyz⟩ := same_list_iff.mp hbc
      exact same_list_iff.mpr ⟨zs, rfl, forall₂_trans ih hxy hyz⟩
  | tuple xs ih =>
      obtain ⟨ys, rfl, hxy⟩ := same_tuple_iff.mp hab
      obtain ⟨zs, rfl, hyz⟩ := same_tuple_iff.mp hbc
      exact same_tuple_iff.mpr ⟨zs, rfl, forall₂_trans ih hxy hyz⟩
  | dict es ih =>
      obtain ⟨fs, rfl, hef, hall⟩ := same_dict_iff.mp hab
      obtain ⟨gs, rfl, hfg, hall'⟩ := same_dict_iff.mp hbc
      refine same_dict_iff.mpr ⟨gs, rfl, hef.trans hfg, ?_⟩
      intro e he
      obtain ⟨f, hf, hkey, hvalue⟩ := hall e he
      obtain ⟨g, hg, hkey', hvalue'⟩ := hall' f hf
      exact ⟨g, hg, (ih e he).1 hkey hkey', (ih e he).2 hvalue hvalue'⟩
  | column v ih =>
      obtain ⟨w, rfl, hvw⟩ := same_column_iff.mp hab
      obtain ⟨x, rfl, hwx⟩ := same_column_iff.mp hbc
      exact same_column_iff.mpr ⟨x, rfl, ih hvw hwx⟩
  | literal v ih =>
      obtain ⟨w, rfl, hvw⟩ := same_literal_iff.mp hab
      obtain ⟨x, rfl, hwx⟩ := same_literal_iff.mp hbc
      exact same_literal_iff.mpr ⟨x, rfl, ih hvw hwx⟩

/-! ### Regular values -/

mutual

/-- Whether no NaN stands in a value and the keys of each of its dictionaries are pairwise different. -/
def regular : Value → Bool
  | float x => !x.isNaN
  | list xs => regularItems xs
  | tuple xs => regularItems xs
  | dict es => regularEntries es
  | column v => regular v
  | literal v => regular v
  | _ => true

/-- Whether all items are regular. -/
def regularItems : List Value → Bool
  | [] => true
  | v :: vs => regular v && regularItems vs

/-- Whether all keys and values are regular, and no key counts as the same as a later one. -/
def regularEntries : Entries → Bool
  | [] => true
  | (k, v) :: es => regular k && regular v && es.all (fun e => !k.same e.1) && regularEntries es

end

theorem regularItems_iff {xs : List Value} : regularItems xs = true ↔ ∀ x ∈ xs, x.regular = true := by
  induction xs with
  | nil => simp [regularItems]
  | cons x xs ih => simp [regularItems, ih]

theorem regularEntries_iff {es : Entries} : regularEntries es = true ↔
    (∀ e ∈ es, e.1.regular = true ∧ e.2.regular = true) ∧ es.Pairwise fun e f => e.1.same f.1 = false := by
  induction es with
  | nil => simp [regularEntries]
  | cons e es ih =>
      simp only [regularEntries, Bool.and_eq_true, List.all_eq_true, Bool.not_eq_eq_eq_not, Bool.not_true,
        ih, List.forall_mem_cons, List.pairwise_cons]
      tauto

theorem same_self {a : Value} (h : a.regular = true) : a.same a = true := by
  induction a using Value.induction with
  | null => rfl
  | unset => rfl
  | text s => exact same_text_iff.mpr rfl
  | bool | int => exact (same_of_quantity?_iff rfl).mpr ⟨_, rfl, Number.same_whole_self _⟩
  | float x =>
      simp only [regular, Bool.not_eq_eq_eq_not, Bool.not_true] at h
      exact (same_of_quantity?_iff rfl).mpr ⟨_, rfl, Number.same_real_self h⟩
  | list xs ih =>
      rw [regular, regularItems_iff] at h
      exact same_list_iff.mpr ⟨xs, rfl, List.forall₂_same.mpr fun x hx => ih x hx (h x hx)⟩
  | tuple xs ih =>
      rw [regular, regularItems_iff] at h
      exact same_tuple_iff.mpr ⟨xs, rfl, List.forall₂_same.mpr fun x hx => ih x hx (h x hx)⟩
  | dict es ih =>
      rw [regular, regularEntries_iff] at h
      refine same_dict_iff.mpr ⟨es, rfl, rfl, fun e he => ⟨e, he, ?_, ?_⟩⟩
      · exact (ih e he).1 (h.1 e he).1
      · exact (ih e he).2 (h.1 e he).2
  | column v ih => exact same_column_iff.mpr ⟨v, rfl, ih h⟩
  | literal v ih => exact same_literal_iff.mpr ⟨v, rfl, ih h⟩

/-- What holds of a value holds of its parts, and only of dictionaries with pairwise different keys. -/
structure Orderly (holds : Value → Prop) : Prop where
  list : ∀ xs, holds (list xs) → ∀ x ∈ xs, holds x
  tuple : ∀ xs, holds (tuple xs) → ∀ x ∈ xs, holds x
  dict : ∀ es, holds (dict es) →
    (∀ e ∈ es, holds e.1 ∧ holds e.2) ∧ es.Pairwise fun e f => e.1.same f.1 = false
  column : ∀ v, holds (column v) → holds v
  literal : ∀ v, holds (literal v) → holds v

/-- Sameness can be turned around if the value on the left is orderly. -/
theorem Orderly.same_symm {holds : Value → Prop} (h : Orderly holds) {a b : Value} (ha : holds a)
    (hab : a.same b = true) : b.same a = true := by
  induction a using Value.induction generalizing b with
  | null =>
      rw [same_null_iff] at hab
      rw [hab]
      rfl
  | unset =>
      rw [same_unset_iff] at hab
      rw [hab]
      rfl
  | text s =>
      rw [same_text_iff] at hab
      rw [hab]
      exact same_text_iff.mpr rfl
  | bool | int | float =>
      obtain ⟨n, hb, hn⟩ := (same_of_quantity?_iff rfl).mp hab
      exact (same_of_quantity?_iff hb).mpr ⟨_, rfl, Number.same_symm hn⟩
  | list xs ih =>
      obtain ⟨ys, rfl, hxy⟩ := same_list_iff.mp hab
      exact same_list_iff.mpr ⟨xs, rfl, forall₂_symm (fun x hx _ => ih x hx (h.list xs ha x hx)) hxy⟩
  | tuple xs ih =>
      obtain ⟨ys, rfl, hxy⟩ := same_tuple_iff.mp hab
      exact same_tuple_iff.mpr ⟨xs, rfl, forall₂_symm (fun x hx _ => ih x hx (h.tuple xs ha x hx)) hxy⟩
  | dict es ih =>
      obtain ⟨fs, rfl, hlen, hall⟩ := same_dict_iff.mp hab
      obtain ⟨hparts, hkeys⟩ := h.dict es ha
      -- Two entries with a common partner would have the same key.
      have hone : es.Pairwise fun e e' => ∀ f : Value × Value,
          e.1.same f.1 = true ∧ e.2.same f.2 = true → ¬(e'.1.same f.1 = true ∧ e'.2.same f.2 = true) := by
        refine hkeys.imp_of_mem fun {e e'} he he' hdiffer f hef hef' => ?_
        have hback := (ih e' he').1 (hparts e' he').1 hef'.1
        rw [same_trans hef.1 hback] at hdiffer
        cases hdiffer
      refine same_dict_iff.mpr ⟨es, rfl, hlen.symm, ?_⟩
      intro f hf
      obtain ⟨e, he, hkey, hvalue⟩ := exists_partner hlen hone hall f hf
      exact ⟨e, he, (ih e he).1 (hparts e he).1 hkey, (ih e he).2 (hparts e he).2 hvalue⟩
  | column v ih =>
      obtain ⟨w, rfl, hvw⟩ := same_column_iff.mp hab
      exact same_column_iff.mpr ⟨v, rfl, ih (h.column v ha) hvw⟩
  | literal v ih =>
      obtain ⟨w, rfl, hvw⟩ := same_literal_iff.mp hab
      exact same_literal_iff.mpr ⟨v, rfl, ih (h.literal v ha) hvw⟩

theorem orderly_regular : Orderly fun v => v.regular = true where
  list _ h := regularItems_iff.mp h
  tuple _ h := regularItems_iff.mp h
  dict _ h := regularEntries_iff.mp h
  column _ h := h
  literal _ h := h

/-- Sameness can be turned around if the value on the left is regular. -/
theorem same_symm {a b : Value} (ha : a.regular = true) (hab : a.same b = true) : b.same a = true :=
  orderly_regular.same_symm ha hab

theorem areKeys_iff {xs : List Value} : areKeys xs = true ↔ ∀ x ∈ xs, x.isKey = true := by
  induction xs with
  | nil => simp [areKeys]
  | cons x xs ih => simp [areKeys, ih]

/-- Keys have no dictionaries in them. -/
theorem orderly_isKey : Orderly fun v => v.isKey = true where
  list _ h := nomatch h
  tuple _ h := areKeys_iff.mp h
  dict _ h := nomatch h
  column _ h := h
  literal _ h := h

end Value

/-! ### Dictionaries with pairwise different keys -/

namespace Entries

/-- The keys are pairwise different. -/
def Distinct (es : Entries) : Prop :=
  es.Pairwise fun e f => e.1.same f.1 = false

instance (es : Entries) : Decidable es.Distinct :=
  inferInstanceAs (Decidable (es.Pairwise fun e f => e.1.same f.1 = false))

theorem Distinct.head {e : Value × Value} {es : Entries} (h : Distinct (e :: es)) : ∀ f ∈ es, e.1.same f.1 = false :=
  (List.pairwise_cons.mp h).1

theorem Distinct.of_cons {e : Value × Value} {es : Entries} (h : Distinct (e :: es)) : Distinct es :=
  (List.pairwise_cons.mp h).2

/-- The entries after a value is put under a key have keys that were there or the key, and are as they were or have the
value. -/
theorem exists_of_mem_insert {es : Entries} {key value : Value} {e : Value × Value} (he : e ∈ es.insert key value) :
    ((∃ f ∈ es, e.1 = f.1) ∨ e.1 = key) ∧ (e ∈ es ∨ e.2 = value) := by
  unfold Entries.insert at he
  split at he
  · obtain ⟨f, hf, rfl⟩ := List.mem_map.mp he
    split
    · exact ⟨.inl ⟨f, hf, rfl⟩, .inr rfl⟩
    · exact ⟨.inl ⟨f, hf, rfl⟩, .inl hf⟩
  · rcases List.mem_append.mp he with he | he
    · exact ⟨.inl ⟨e, he, rfl⟩, .inl he⟩
    · rw [List.mem_singleton.mp he]
      exact ⟨.inr rfl, .inr rfl⟩

/-- The keys stay pairwise different when a value is put under one. -/
theorem Distinct.insert {es : Entries} (h : es.Distinct) {key value : Value} : (es.insert key value).Distinct := by
  unfold Entries.insert
  split
  · refine List.pairwise_map.mpr (h.imp fun {e f} hdiffer => ?_)
    split <;> split <;> exact hdiffer
  · next hnew =>
      refine List.pairwise_append.mpr ⟨h, List.pairwise_singleton _ _, fun e he f hf => ?_⟩
      rw [List.mem_singleton.mp hf, ← Bool.not_eq_true]
      exact fun hsame => hnew (List.any_eq_true.mpr ⟨e, he, hsame⟩)

end Entries

end ChartGrammar
