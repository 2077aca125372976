import ChartGrammar.Proofs.Style.NormalForm
import ChartGrammar.Proofs.Value.Documents
import ChartGrammar.Rendering.Basic

/-! Plain forms of values and of renderings. A value has one as long as its keys have displays, that is, as long as no
integer in them has too many digits. A plain form has no tuples and only texts for keys, however deep one looks, and it
is its own plain form. Where all keys are texts to begin with, no entry is merged with another, and all that happens is
that tuples become lists; so the encoding of a rendering keeps all of its parameters, in order. -/

namespace ChartGrammar

namespace Entries

/-- The keys are pairwise different texts. -/
structure UnderTexts (es : Entries) : Prop where
  texts : ∀ e ∈ es, ∃ s, e.1 = .text s
  distinct : es.Distinct

theorem underTexts_nil : UnderTexts [] :=
  ⟨fun _ he => absurd he List.not_mem_nil, List.Pairwise.nil⟩

variable {es : Entries}

theorem UnderTexts.insert (h : es.UnderTexts) (s : String) (value : Value) :
    (es.insert (.text s) value).UnderTexts := by
  refine ⟨fun e he => ?_, h.distinct.insert⟩
  rcases (exists_of_mem_insert he).1 with ⟨f, hf, hkey⟩ | hkey
  · obtain ⟨t, ht⟩ := h.texts f hf
    exact ⟨t, hkey.trans ht⟩
  · exact ⟨s, hkey⟩

/-- A dictionary made of entries under texts has different texts for keys, and values that were among those. -/
theorem underTexts_ofList (htexts : ∀ e ∈ es, ∃ s, e.1 = .text s) :
    (ofList es).UnderTexts ∧ ∀ e ∈ ofList es, ∃ f ∈ es, e.2 = f.2 := by
  have hfold (made rest : Entries) (hmade : made.UnderTexts) (hfrom : ∀ e ∈ made, ∃ f ∈ es, e.2 = f.2)
      (hrest : rest ⊆ es) : (rest.foldl (fun acc e => acc.insert e.1 e.2) made).UnderTexts ∧
        ∀ e ∈ rest.foldl (fun acc e => acc.insert e.1 e.2) made, ∃ f ∈ es, e.2 = f.2 := by
    induction rest generalizing made with
    | nil => exact ⟨hmade, hfrom⟩
    | cons f rest ih =>
        obtain ⟨hf, hrest⟩ := List.cons_subset.mp hrest
        obtain ⟨s, hs⟩ := htexts f hf
        refine ih (made.insert f.1 f.2) ?_ (fun e he => ?_) hrest
        · rw [hs]
          exact hmade.insert s f.2
        · rcases (exists_of_mem_insert he).2 with he | hvalue
          · exact hfrom e he
          · exact ⟨f, hf, hvalue⟩
  exact hfold [] es underTexts_nil (fun _ he => absurd he List.not_mem_nil) (List.Subset.refl es)

end Entries

namespace Value

/-! ### What values are built from -/

/-- Whether a value is null, a truth value, a number or a text. -/
def isAtom : Value → Bool
  | null => true
  | bool _ => true
  | int _ => true
  | float _ => true
  | text _ => true
  | _ => false

/-- The value is built from atoms by lists, by dictionaries whose entries are as they must be, and by tuples if there
may be any. -/
inductive Built (tuples : Prop) (entries : Entries → Prop) : Value → Prop where
  | atom {v : Value} (h : v.isAtom = true) : Built tuples entries v
  | list {xs : List Value} (hitems : ∀ x ∈ xs, Built tuples entries x) : Built tuples entries (list xs)
  | tuple {xs : List Value} (hallowed : tuples) (hitems : ∀ x ∈ xs, Built tuples entries x) :
    Built tuples entries (tuple xs)
  | dict {es : Entries} (hentries : entries es) (hvalues : ∀ e ∈ es, Built tuples entries e.2) :
    Built tuples entries (dict es)

/-- The value is built from atoms by lists, tuples and dictionaries with atoms or tuples for keys. -/
def Nested (v : Value) : Prop :=
  Built True (fun es => ∀ e ∈ es, e.1.isAtom = true ∨ ∃ xs, e.1 = tuple xs) v

/-- The value is built from atoms by lists, tuples and dictionaries under texts. -/
def TextKeyed (v : Value) : Prop :=
  Built True Entries.UnderTexts v

/-- The value is built from atoms by lists and dictionaries under texts. -/
def Plain (v : Value) : Prop :=
  Built False Entries.UnderTexts v

mutual

/-- The value with lists for tuples, and with all else as it is. -/
def untupled : Value → Value
  | list xs => list (untupledItems xs)
  | tuple xs => list (untupledItems xs)
  | dict es => dict (untupledEntries es)
  | v => v

/-- The items with lists for tuples. -/
def untupledItems : List Value → List Value
  | [] => []
  | v :: vs => untupled v :: untupledItems vs

/-- The entries with lists for tuples in their values. -/
def untupledEntries : Entries → Entries
  | [] => []
  | (k, v) :: es => (k, untupled v) :: untupledEntries es

end

variable {v : Value} {xs : List Value} {es : Entries} {tuples : Prop} {entries : Entries → Prop}

theorem untupledItems_eq_map : untupledItems xs = xs.map untupled := by
  induction xs with
  | nil => rfl
  | cons x xs ih => simp [untupledItems, ih]

theorem untupledEntries_eq_map : untupledEntries es = es.map fun e => (e.1, e.2.untupled) := by
  induction es with
  | nil => rfl
  | cons e es ih => simp [untupledEntries, ih]

/-! ### Plain forms -/

theorem plain_of_isAtom (h : v.isAtom = true) : v.plain = v := by
  cases v <;> first | rfl | cases h

theorem untupled_of_isAtom (h : v.isAtom = true) : v.untupled = v := by
  cases v <;> first | rfl | cases h

theorem plain_list : (list xs).plain = list (xs.map plain) := by
  rw [plain, plainItems_eq_map]

theorem plain_tuple : (tuple xs).plain = list (xs.map plain) := by
  rw [plain, plainItems_eq_map]

/-- Under different texts no entry is merged with another, and none is moved. -/
theorem plain_dict_of_underTexts (h : es.UnderTexts) : (dict es).plain = dict (es.map fun e => (e.1, e.2.plain)) := by
  refine plain_dict h.texts ?_
  apply List.pairwise_map.mpr
  refine h.distinct.imp_of_mem fun {e f} he _ hdiffer hsame => ?_
  obtain ⟨s, hs⟩ := h.texts e he
  rw [← hsame, hs, ← Bool.not_eq_true, same_text_iff] at hdiffer
  exact hdiffer rfl

/-- A plain form has no tuples, and different texts for the keys of each dictionary. -/
theorem plain_of_built (h : Built tuples entries v) : v.plain.Plain := by
  induction h with
  | atom h =>
      rw [plain_of_isAtom h]
      exact .atom h
  | list _ ih =>
      rw [plain_list]
      exact .list (List.forall_mem_map.mpr ih)
  | tuple _ _ ih =>
      rw [plain_tuple]
      exact .list (List.forall_mem_map.mpr ih)
  | @dict es _ _ ih =>
      have htexts : ∀ e ∈ es.map fun e => (text e.1.display, e.2.plain), ∃ s, e.1 = text s :=
        List.forall_mem_map.mpr fun e _ => ⟨e.1.display, rfl⟩
      obtain ⟨hunder, hvalues⟩ := Entries.underTexts_ofList htexts
      rw [plain, plainEntries_eq_map]
      refine .dict hunder fun e he => ?_
      obtain ⟨f, hf, hvalue⟩ := hvalues e he
      obtain ⟨g, hg, rfl⟩ := List.mem_map.mp hf
      rw [hvalue]
      exact ih g hg

/-- Of a value under texts, the plain form has lists for tuples and all else as it is. -/
theorem plain_eq_untupled (h : v.TextKeyed) : v.plain = v.untupled := by
  induction h with
  | atom h => rw [plain_of_isAtom h, untupled_of_isAtom h]
  | list _ ih => rw [plain_list, untupled, untupledItems_eq_map, List.map_congr_left ih]
  | tuple _ _ ih => rw [plain_tuple, untupled, untupledItems_eq_map, List.map_congr_left ih]
  | dict hunder _ ih =>
      rw [plain_dict_of_underTexts hunder, untupled, untupledEntries_eq_map]
      exact congrArg dict (List.map_congr_left fun e he => Prod.ext rfl (ih e he))

/-- What is plain is its own plain form. -/
theorem plain_of_plain (h : v.Plain) : v.plain = v := by
  induction h with
  | atom h => exact plain_of_isAtom h
  | @list xs _ ih =>
      have hitems : xs.map plain = xs := (List.map_congr_left ih).trans (List.map_id' xs)
      rw [plain_list, hitems]
  | tuple hnone => exact hnone.elim
  | @dict es hunder _ ih =>
      have hentries : es.map (fun e => (e.1, e.2.plain)) = es.map id :=
        List.map_congr_left fun e he => Prod.ext rfl (ih e he)
      rw [plain_dict_of_underTexts hunder, hentries, List.map_id]

/-- The keys of what is plain have displays. -/
theorem keysLegible_of_underTexts (h : Built tuples Entries.UnderTexts v) : v.keysLegible = true := by
  induction h with
  | @atom v h => cases v <;> first | rfl | cases h
  | list _ ih | tuple _ _ ih =>
      rw [keysLegible, itemKeysLegible_iff]
      exact ih
  | dict hunder _ ih =>
      rw [keysLegible, entryKeysLegible_iff]
      refine fun e he => ⟨?_, ih e he⟩
      obtain ⟨s, hs⟩ := hunder.texts e he
      rw [hs]
      rfl

theorem jsonable_of_keysLegible (h : v.keysLegible = true) : v.jsonable = .ok v.plain := by
  rw [jsonable_eq, if_pos h]

/-- What is plain is its own plain form. -/
theorem jsonable_of_plain (h : v.Plain) : v.jsonable = .ok v := by
  rw [jsonable_of_keysLegible (keysLegible_of_underTexts h), plain_of_plain h]

/-- Normal forms of style values and of constants have plain forms, so that a chart's payload takes these without asking
for them. -/
theorem jsonable_of_normalize? {shape : Shape} {u : Value} (h : shape.normalize? v = some u) :
    u.jsonable = .ok u.plain := by
  have hnumber {v : Value} {n : Number} (hfinite : Shape.finite? v = some n) : v.keysLegible = true := by
    obtain ⟨hnumber, -⟩ := Option.filter_eq_some_iff.mp hfinite
    cases v with
    | int | float => rfl
    | _ => cases hnumber
  refine jsonable_of_keysLegible ?_
  cases Shape.admits_of_normalize? h with
  | text | colour | zero | one | between | positiveWhole | flag | word => rfl
  | positive hfinite => exact hnumber hfinite
  | rangeOfList hl hu | rangeOfTuple hl hu => simp [keysLegible, itemKeysLegible, hnumber hl, hnumber hu]

end Value

namespace Rendering

/-- A value that is built from atoms by lists, tuples and dictionaries has a plain form exactly if its keys have
displays: one with no tuples in it and with texts for all keys, which is its own plain form. If all keys are different
texts to begin with, tuples have become lists and all else has been kept. So if the parameters of a rendering are of this
kind, its encoding has all of them, under the same names and in the same order. -/
theorem encoded_in_plain_form :
    (∀ v : Value, v.Nested →
      (v.keysLegible = true → ∃ u, v.jsonable = .ok u ∧ u.Plain ∧ u.jsonable = .ok u) ∧
      (v.keysLegible = false → v.jsonable = .error .tooLong)) ∧
    (∀ v : Value, v.TextKeyed → v.jsonable = .ok v.untupled) ∧
    ∀ out : Rendering, (Value.dict out.parameters).TextKeyed → ∃ es : Entries, out.encode = .ok (.dict es) ∧
      es.field? "parameters" = some (.dict (out.parameters.map fun e => (e.1, e.2.untupled))) := by
  have huntupled (v : Value) (hv : v.TextKeyed) : v.jsonable = .ok v.untupled := by
    rw [Value.jsonable_of_keysLegible (Value.keysLegible_of_underTexts hv), Value.plain_eq_untupled hv]
  refine ⟨fun v hv => ⟨fun hkeys => ?_, fun hkeys => ?_⟩, huntupled, fun out hout => ?_⟩
  · have hplain : v.plain.Plain := Value.plain_of_built hv
    exact ⟨v.plain, Value.jsonable_of_keysLegible hkeys, hplain, Value.jsonable_of_plain hplain⟩
  · rw [Value.jsonable_eq, hkeys]
    rfl
  · have hparameters := huntupled _ hout
    rw [Value.untupled, Value.untupledEntries_eq_map] at hparameters
    exact ⟨_, bind_eq_ok_iff.mpr ⟨_, hparameters, rfl⟩, rfl⟩

/-- Of three keys an integer and a text read alike, so that one entry is left of theirs, with the place of the first and
the value of the last. Limits in the parameters of a rendering become a list. -/
theorem encoded_in_plain_form_limits :
    let v : Value := .dict [(.int 1, .int 2), (.tuple [.null, .bool true], .tuple [.dict [(.bool true, .text "a")]]),
      (.text "1", .list [.tuple []])]
    let u : Value := .dict [(.text "1", .list [.list []]),
      (.text "(None, True)", .list [.dict [(.text "True", .text "a")]])]
    let out : Rendering := ⟨"layered", .bar, [(.text "title", .text "T"),
      (.text "xlim", .dict [(.text "range", .tuple [.int 0, .int 10])])], []⟩
    v.keysLegible = true ∧ v.jsonable = .ok u ∧ u.Plain ∧ u.jsonable = .ok u ∧
      ∃ es : Entries, out.encode = .ok (.dict es) ∧ es.field? "parameters" = some (.dict [(.text "title", .text "T"),
        (.text "xlim", .dict [(.text "range", .list [.int 0, .int 10])])]) := by
  intro v u out
  have hv : v.Nested := by
    refine .dict (fun e he => ?_) (fun e he => ?_) <;>
      simp only [List.mem_cons, List.not_mem_nil, or_false] at he <;> rcases he with rfl | rfl | rfl
    · exact .inl rfl
    · exact .inr ⟨_, rfl⟩
    · exact .inl rfl
    · exact .atom rfl
    · refine .tuple trivial (List.forall_mem_singleton.mpr ?_)
      exact .dict (List.forall_mem_singleton.mpr (.inl rfl)) (List.forall_mem_singleton.mpr (.atom rfl))
    · refine .list (List.forall_mem_singleton.mpr ?_)
      exact .tuple trivial fun _ hx => absurd hx List.not_mem_nil
  have hout : (Value.dict out.parameters).TextKeyed := by
    refine .dict ⟨by simp [out], by decide⟩ (List.forall_mem_cons.mpr ⟨.atom rfl, List.forall_mem_singleton.mpr ?_⟩)
    refine .dict ⟨by simp, by decide⟩ (List.forall_mem_singleton.mpr ?_)
    exact .tuple trivial (List.forall_mem_cons.mpr ⟨.atom rfl, List.forall_mem_singleton.mpr (.atom rfl)⟩)
  have hkeys : v.keysLegible = true := by decide
  have hu : v.jsonable = .ok u := rfl
  obtain ⟨w, hw, hplain, hidem⟩ := (encoded_in_plain_form.1 v hv).1 hkeys
  rw [hu] at hw
  cases hw
  exact ⟨hkeys, hu, hplain, hidem, encoded_in_plain_form.2.2 out hout⟩

/-- A dictionary under an integer of too many digits has no plain form. -/
theorem not_plain_form_longKey : ¬ ∀ v : Value, v.Nested → ∃ u, v.jsonable = .ok u := by
  intro h
  have hnested : (Value.dict [(.int Text.leastTooLong, .null)]).Nested :=
    .dict (List.forall_mem_singleton.mpr (.inl rfl)) (List.forall_mem_singleton.mpr (.atom rfl))
  obtain ⟨u, hu⟩ := h _ hnested
  rw [Value.jsonable_eq, Value.keysLegible, Value.entryKeysLegible, Value.legible_leastTooLong] at hu
  cases hu

end Rendering

end ChartGrammar
