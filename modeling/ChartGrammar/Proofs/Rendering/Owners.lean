import ChartGrammar.Proofs.Rendering.Origins
import ChartGrammar.Proofs.Rendering.Strictness

/-! Names that only some origins may write to. What a rendering has at such a name, strict or lenient, is what these
origins write to it, as long as they do not disagree; and where they write nothing the name is not there. -/

namespace ChartGrammar

/-- No other origins than these may write to the name. -/
def KindRows.OwnedBy (rows : KindRows) (name : String) (owners : List Origin) : Prop :=
  ∀ o, (∃ a ∈ rows.paramsOf o, a.same (.text name) = true) → o ∈ owners

instance (rows : KindRows) (name : String) (owners : List Origin) : Decidable (rows.OwnedBy name owners) :=
  inferInstanceAs (Decidable (∀ _, _ → _))

namespace Rendering

open Document Ledger

variable {r : Registry} {c : Chart} {grammar : String} {rows : KindRows} {name : String} {v : Value}

/-- The rendering has the value at the name and no other, or if there is none given, does not have the name. -/
def HasAt (out : Rendering) (name : String) (v? : Option Value) : Prop :=
  ∀ v, (.text name, v) ∈ out.parameters ↔ v? = some v

/-- Some write puts the value at the name. -/
def Puts (c : Chart) (rows : KindRows) (name : String) (v : Value) : Prop :=
  ∃ w ∈ writes c rows, w.name = .text name ∧ w.value = v

theorem puts_iff {owners : List Origin} (howned : rows.OwnedBy name owners) :
    Puts c rows name v ↔ ∃ o ∈ owners, ∃ w ∈ writesOf c rows o, w.name = .text name ∧ w.value = v := by
  constructor
  · rintro ⟨w, hw, hname, hvalue⟩
    obtain ⟨o, ho⟩ := mem_writes_iff.mp hw
    have hparam := name_mem_paramsOf ho
    rw [hname] at hparam
    exact ⟨o, howned o ⟨_, hparam, Value.same_text_iff.mpr rfl⟩, w, ho, hname, hvalue⟩
  · rintro ⟨o, -, w, ho, hname, hvalue⟩
    exact ⟨w, mem_writes_iff.mpr ⟨o, ho⟩, hname, hvalue⟩

/-- Where a key's row succeeds on all values, what the key writes is what the row makes of its value. -/
theorem exists_style_write_iff {k : StyleKey} {row : StyleRow} (hrow : rows.style? k = some row)
    {params : Value → Entries} (houtcome : ∀ u, row.realization.outcome c u = .ok (params u)) :
    (∃ w ∈ writesOf c rows (.style k), w.name = .text name ∧ w.value = v) ↔
      ∃ u, c.style? k = some u ∧ (.text name, v) ∈ params u := by
  rw [writesOf]
  cases c.style? k with
  | none => simp
  | some u => simp [styleWrites_of_row hrow, houtcome, written, Entries.writes]

theorem lenient_of_ok {strict : Bool} {out : Rendering} (h : ofChart r c grammar strict = .ok out) :
    ofChart r c grammar false = .ok out := by
  cases strict with
  | false => exact h
  | true =>
      obtain ⟨rows, d, hrows, hrun, rfl⟩ := ofChart_eq_ok_iff.mp h
      rw [run_true] at hrun
      split at hrun
      · cases hrun
      · exact ofChart_eq_ok_iff.mpr ⟨rows, d, hrows, hrun, rfl⟩

/-- Where at most one value is put at a name, a rendering has the value there exactly if it is put. -/
theorem hasAt_of_puts (hr : r.Regular) {k : Desk} (hk : k.Reachable) {strict : Bool} {out : Rendering}
    (h : ofChart r k.chart grammar strict = .ok out) (hrows : rowsFor r k.chart grammar = .ok rows)
    {v? : Option Value} (hputs : ∀ v, Puts k.chart rows name v ↔ v? = some v) : out.HasAt name v? := by
  obtain ⟨rows', d, hrows', rfl, hregular, hrecords⟩ := records_of_ofChart hr hk (lenient_of_ok h)
  rw [hrows, Except.ok.injEq] at hrows'
  subst hrows'
  intro v
  rw [← hputs v]
  constructor
  · intro hentry
    obtain ⟨p, hp, hpair⟩ := List.mem_map.mp hentry
    obtain ⟨hname, rfl⟩ := Prod.mk.inj hpair
    obtain ⟨q, hq, hmark⟩ := hrecords.standing?_eq_some (hrecords.find?_name hp)
    obtain ⟨hmem, hsame⟩ := mem_of_standing? hq
    rw [hname] at hsame
    exact ⟨q, hmem, Value.same_text_right_iff.mp hsame, value_of_mark hmark⟩
  · rintro ⟨w, hw, hname, rfl⟩
    have hwritten : w.name.same (.text name) = true := by rw [hname, Value.same_text_iff]
    obtain ⟨p, q, hfind, hstanding, hmark⟩ := hrecords.exists_standing hw hwritten
    obtain ⟨hmem, hsame⟩ := mem_of_standing? hstanding
    -- What stands at the name was put there, as was the given value, and only one value is.
    have hstands := (hputs q.value).mp ⟨q, hmem, Value.same_text_right_iff.mp hsame, rfl⟩
    have hgiven := (hputs w.value).mp ⟨w, hw, hname, rfl⟩
    have hvalue : p.value = w.value := by
      rw [← value_of_mark hmark, ← Option.some.injEq, ← hstands, hgiven]
    have hp : p.name.same (.text name) = true := by simpa using List.find?_some hfind
    refine List.mem_map.mpr ⟨p, List.mem_of_find?_eq_some hfind, ?_⟩
    rw [Value.same_text_right_iff.mp hp, hvalue]

end Rendering

end ChartGrammar
