import ChartGrammar.Proofs.Table.Reading

/-! The rows of the style keys of one kind. A row of the kind itself, null or not, takes the whole place of the common row
for its key; what is left is read by itself, so that a style key's row tells of one row in the payload and of nothing
else, and no kind can see the rows of another. -/

namespace ChartGrammar

/-! ### Dictionaries put over others -/

namespace Entries

variable {es : Entries} {e : Value × Value} {key value : Value} {name : String}

theorem field?_cons : field? (e :: es) name = if e.1.same (.text name) then some e.2 else es.field? name := by
  cases hkey : e.1.same (.text name) <;> simp [field?, get?, hkey]

theorem field?_append {fs : Entries} : field? (es ++ fs) name = (es.field? name).or (fs.field? name) := by
  induction es with
  | nil => rfl
  | cons e es ih =>
      rw [List.cons_append, field?_cons, field?_cons, ih]
      split <;> rfl

/-- Nothing is found under a name that differs from all keys. -/
theorem field?_eq_none_iff : es.field? name = none ↔ ∀ e ∈ es, e.1.same (.text name) = false := by
  simp [field?, get?, List.find?_eq_none]

/-- The key of the first entry is not that of a later one. -/
theorem Distinct.field?_eq_none (h : Distinct (e :: es)) (he : e.1 = .text name) : es.field? name = none := by
  refine field?_eq_none_iff.mpr fun f hf => Bool.eq_false_iff.mpr fun hsame => ?_
  have hdiffer := h.head f hf
  rw [he, Value.same_text_right_iff.mp hsame, Value.same_text_iff.mpr rfl] at hdiffer
  cases hdiffer

/-- The value under a key is replaced under that key only. -/
theorem field?_replace : field? (es.map fun e => if e.1.same key then (e.1, value) else e) name =
    if key.same (.text name) then (es.field? name).map fun _ => value else es.field? name := by
  have hturn : (Value.text name).same key = key.same (.text name) := by
    rw [Bool.eq_iff_iff, Value.same_text_iff, Value.same_text_right_iff]
  induction es with
  | nil =>
      rw [List.map_nil]
      split <;> rfl
  | cons e es ih =>
      rw [List.map_cons, field?_cons, field?_cons, ih]
      cases he : e.1.same (.text name) with
      | true =>
          rw [Value.same_text_right_iff.mp he, hturn]
          cases hkey : key.same (.text name) <;> simp [he, Value.same_text_iff.mpr]
      | false => cases hkey : e.1.same key <;> simp [he]

/-- Putting a value under a key changes what is found under that key only. -/
theorem field?_insert :
    (es.insert key value).field? name = if key.same (.text name) then some value else es.field? name := by
  unfold insert
  cases hkey : key.same (.text name) with
  | true =>
      cases Value.same_text_right_iff.mp hkey
      cases hfield : es.field? name with
      | none =>
          have hnew : ¬es.any (fun e => e.1.same (.text name)) := by simpa using field?_eq_none_iff.mp hfield
          rw [if_neg hnew, field?_append, hfield, field?_cons, if_pos hkey]
          rfl
      | some old =>
          have hany : es.any (fun e => e.1.same (.text name)) := by
            rw [← Bool.not_eq_false, List.any_eq_false]
            intro hnone
            rw [field?_eq_none_iff.mpr fun e he => Bool.eq_false_iff.mpr (hnone e he)] at hfield
            cases hfield
          rw [if_pos hany, field?_replace, if_pos hkey, hfield]
          rfl
  | false =>
      split
      · rw [field?_replace, hkey]
        rfl
      · rw [field?_append, field?_cons, hkey]
        exact Option.or_none

/-- Entries with pairwise different keys, put in one by one, hide what was under their keys. -/
theorem field?_mergedStyles {common own : Entries} (h : own.Distinct) :
    (KindRows.mergedStyles common own).field? name = (own.field? name).or (common.field? name) := by
  induction own generalizing common with
  | nil => rfl
  | cons e own ih =>
      have hmerge : KindRows.mergedStyles common (e :: own) = KindRows.mergedStyles (common.insert e.1 e.2) own := rfl
      rw [hmerge, ih h.of_cons, field?_insert, field?_cons]
      cases hkey : e.1.same (.text name) with
      | true =>
          rw [if_pos rfl, if_pos rfl, h.field?_eq_none (Value.same_text_right_iff.mp hkey)]
          rfl
      | false => rw [if_neg Bool.false_ne_true, if_neg Bool.false_ne_true]

theorem Distinct.mergedStyles {common own : Entries} (h : common.Distinct) :
    (KindRows.mergedStyles common own).Distinct := by
  induction own generalizing common with
  | nil => exact h
  | cons e own ih => exact ih h.insert

end Entries

/-! ### Single rows -/

theorem wordAt_eq_ok_iff {α : Type} [Vocabulary α] [LawfulVocabulary α] {location : String} {v : Value} {a : α} :
    wordAt α location v = .ok a ↔ v = .text (Vocabulary.name a) := by
  rw [wordAt, ← Vocabulary.ofValue?_eq_some_iff]
  cases (Vocabulary.ofValue? v : Option α) <;> simp

namespace StyleRow

/-- The cropping that a row names, if it names one. -/
def croppingOf? : Value → Option Cropping
  | .text "visual" => some .visual
  | .text "destructive" => some .destructive
  | _ => none

/-- The row of a style key says what some fields say: the writer that they name, or the arranger if they say how the chart
is arranged, each with their options, and their cropping and their note. -/
structure Says (fields : Entries) (r : StyleRow) : Prop where
  realization : if (fields.field? "rewrite").isSome then
      ∃ name a, fields.field "rewrite" = .text name ∧
        WriterFamily.make? name (.dict (writerOptions fields)) = some (.ok a) ∧ r.realization = .arranged a
    else
      ∃ name w, fields.field "write" = .text name ∧
        WriterFamily.make? name (.dict (writerOptions fields)) = some (.ok w) ∧ r.realization = .written w
  cropping : r.cropping = croppingOf? (fields.field "cropping")
  note : r.note = fields.field "note"

variable {fields : Entries} {r other : StyleRow} {location : String} {raw : Value}

/-- What fields say is one row. -/
theorem Says.unique (h : Says fields r) (hother : Says fields other) : r = other := by
  have hrealization : r.realization = other.realization := by
    have hr := h.realization
    have ho := hother.realization
    split at hr
    · next hrewrite =>
        rw [if_pos hrewrite] at ho
        obtain ⟨name, a, hname, hmake, hr⟩ := hr
        obtain ⟨name', b, hname', hmake', ho⟩ := ho
        cases hname.symm.trans hname'
        cases hmake.symm.trans hmake'
        rw [hr, ho]
    · next hrewrite =>
        rw [if_neg hrewrite] at ho
        obtain ⟨name, w, hname, hmake, hr⟩ := hr
        obtain ⟨name', b, hname', hmake', ho⟩ := ho
        cases hname.symm.trans hname'
        cases hmake.symm.trans hmake'
        rw [hr, ho]
  cases r
  cases other
  simp only [mk.injEq]
  exact ⟨hrealization, h.cropping.trans hother.cropping.symm, h.note.trans hother.note.symm⟩

/-- A key that fields arrange is the only one that is structural. -/
theorem Says.isStructural (h : Says fields r) : r.realization.isStructural = (fields.field? "rewrite").isSome := by
  have hr := h.realization
  split at hr
  · next hrewrite =>
      obtain ⟨-, a, -, -, hr⟩ := hr
      rw [hr, hrewrite]
      rfl
  · next hrewrite =>
      obtain ⟨-, w, -, -, hr⟩ := hr
      rw [hr, Bool.eq_false_iff.mpr hrewrite]
      rfl

theorem croppingOf?_of_parse {cropping : Option Cropping} (h : parseCropping location raw = .ok cropping) :
    cropping = croppingOf? raw := by
  unfold parseCropping at h
  split at h
  · cases h
    rfl
  · cases h
    rfl
  · cases h
    rfl
  · split at h <;> cases h

/-- A row that is read says what its fields say. -/
theorem says_of_parse (h : parse location raw = .ok r) : Says raw.entries r := by
  obtain ⟨es, hes, h⟩ := bind_eq_ok_iff.mp h
  rw [← entries_of_mappingAt hes]
  obtain ⟨cropping, hcropping, h⟩ := bind_eq_ok_iff.mp h
  dsimp only at h
  split at h
  · next hrewrite =>
      obtain ⟨realization, hrealization, h⟩ := bind_eq_ok_iff.mp h
      obtain ⟨a, ha, rfl⟩ := map_eq_ok_iff.mp hrealization
      obtain ⟨name, hname, hmake⟩ := writerAt_eq_ok_iff.mp ha
      cases h
      refine ⟨?_, croppingOf?_of_parse hcropping, rfl⟩
      rw [if_pos hrewrite]
      exact ⟨name, a, hname, hmake, rfl⟩
  · next hrewrite =>
      obtain ⟨realization, hrealization, h⟩ := bind_eq_ok_iff.mp h
      obtain ⟨w, hw, rfl⟩ := map_eq_ok_iff.mp hrealization
      obtain ⟨name, hname, hmake⟩ := writerAt_eq_ok_iff.mp hw
      cases h
      refine ⟨?_, croppingOf?_of_parse hcropping, rfl⟩
      rw [if_neg hrewrite]
      exact ⟨name, w, hname, hmake, rfl⟩

/-- The row that a style key has where a payload has some row, or none, for it. -/
inductive Meant : Option Value → Option StyleRow → Prop where
  | absent : Meant none none
  | removed : Meant (some .null) none
  | said {row : Value} {r : StyleRow} (hrow : row ≠ .null) (hsaid : Says row.entries r) : Meant (some row) (some r)

variable {row? : Option Value} {r? other? : Option StyleRow}

theorem Meant.unique (h : Meant row? r?) (hother : Meant row? other?) : r? = other? := by
  cases h with
  | absent =>
      cases hother
      rfl
  | removed =>
      cases hother with
      | removed => rfl
      | said hrow _ => exact absurd rfl hrow
  | said hrow hsaid =>
      cases hother with
      | removed => exact absurd rfl hrow
      | said _ hother => rw [hsaid.unique hother]

theorem Meant.isSome_iff (h : Meant row? r?) : r?.isSome ↔ ∃ row, row? = some row ∧ row ≠ .null := by
  cases h with
  | absent => simp
  | removed => simp
  | said hrow _ => simp [hrow]

end StyleRow

/-! ### The rows of a kind -/

namespace KindRows

variable {location source : String} {rows common : Entries} {styles : List (StyleKey × StyleRow)}

/-- The first entry is left out if its row is null, and gives the first row otherwise. -/
theorem exists_of_parseStyles_cons {e : Value × Value} (h : parseStyles location (e :: rows) = .ok styles) :
    ∃ key others, e.1 = .text key.name ∧ parseStyles location rows = .ok others ∧
      (e.2 = .null ∧ styles = others ∨
        ∃ r, e.2 ≠ .null ∧ StyleRow.Says e.2.entries r ∧ styles = (key, r) :: others) := by
  obtain ⟨parsed, hparsed, h⟩ := bind_eq_ok_iff.mp h
  cases h
  rw [List.mapM_cons] at hparsed
  obtain ⟨one, hone, hparsed⟩ := bind_eq_ok_iff.mp hparsed
  obtain ⟨others, hothers, hparsed⟩ := bind_eq_ok_iff.mp hparsed
  cases hparsed
  obtain ⟨key, hkey, hone⟩ := bind_eq_ok_iff.mp hone
  refine ⟨key, others.filterMap id, wordAt_eq_ok_iff.mp hkey, bind_eq_ok_iff.mpr ⟨others, hothers, rfl⟩, ?_⟩
  split at hone
  · next hnull =>
      cases hone
      exact .inl ⟨hnull, rfl⟩
  · next hnull =>
      obtain ⟨r, hr, hone⟩ := bind_eq_ok_iff.mp hone
      cases hone
      exact .inr ⟨r, hnull, StyleRow.says_of_parse hr, rfl⟩

/-- Where no key stands twice, the row of a style key is that of its only entry. -/
theorem meant_of_parseStyles (h : parseStyles location rows = .ok styles) (hkeys : rows.Distinct) (key : StyleKey) :
    StyleRow.Meant (rows.field? key.name) (styles.lookup key) := by
  induction rows generalizing styles with
  | nil =>
      cases h
      exact .absent
  | cons e rows ih =>
      obtain ⟨own, others, hname, hothers, hentry⟩ := exists_of_parseStyles_cons h
      have hmeant := ih hothers hkeys.of_cons
      rw [Entries.field?_cons, hname]
      by_cases hkey : key = own
      · subst hkey
        -- No later entry has the key, so a null row leaves nothing.
        rw [hkeys.field?_eq_none hname] at hmeant
        rw [if_pos (Value.same_text_iff.mpr rfl)]
        obtain ⟨hnull, rfl⟩ | ⟨r, hnull, hsaid, rfl⟩ := hentry
        · rw [hnull, hmeant.unique .absent]
          exact .removed
        · rw [List.lookup_cons_self]
          exact .said hnull hsaid
      · have hother : ¬(Value.text own.name).same (.text key.name) = true := by
          rw [Value.same_text_iff, Value.text.injEq]
          exact fun heq => hkey (Vocabulary.name_injective heq)
        rw [if_neg hother]
        obtain ⟨-, rfl⟩ | ⟨r, -, -, rfl⟩ := hentry
        · exact hmeant
        · rwa [List.lookup_cons, beq_false_of_ne hkey]

/-- The rows that are found for a kind are read from what is found under its name. -/
theorem find?_of_mapM {kinds : Entries} {read : List KindRows} {kind : Kind} {raw : Value}
    (h : kinds.mapM (fun e => parse source common e.1 e.2) = .ok read) (hraw : kinds.field? kind.name = some raw) :
    ∃ rows, read.find? (fun rows => rows.kind == kind) = some rows ∧
      parse source common (.text kind.name) raw = .ok rows := by
  induction kinds generalizing read with
  | nil => cases hraw
  | cons e kinds ih =>
      rw [List.mapM_cons] at h
      obtain ⟨rows, hrows, h⟩ := bind_eq_ok_iff.mp h
      obtain ⟨others, hothers, h⟩ := bind_eq_ok_iff.mp h
      cases h
      have hname : e.1 = .text rows.kind.name := wordAt_eq_ok_iff.mp (named_and_readFrom_of_parse hrows).1
      rw [Entries.field?_cons, hname] at hraw
      by_cases hkind : rows.kind = kind
      · rw [if_pos (Value.same_text_iff.mpr (by rw [hkind]))] at hraw
        cases hraw
        refine ⟨rows, ?_, ?_⟩
        · simp [hkind]
        · rw [← hkind, ← hname]
          exact hrows
      · have hother : ¬(Value.text rows.kind.name).same (.text kind.name) = true := by
          rw [Value.same_text_iff, Value.text.injEq]
          exact fun heq => hkind (Vocabulary.name_injective heq).symm
        rw [if_neg hother] at hraw
        obtain ⟨found, hfound, hread⟩ := ih hothers hraw
        refine ⟨found, ?_, hread⟩
        rwa [List.find?_cons_of_neg]
        simpa using hkind

end KindRows

/-! ### Effective rows -/

namespace Table

/-- The rows of style keys that a payload holds for one kind. -/
def ownStyles (payload : Entries) (kind : Kind) : Entries :=
  (((payload.field "kinds").entries.field kind.name).entries.field "styles").entries

/-- The row of a payload that decides on a style key of one kind: the kind's own, even if it is null, or else the common
one. -/
def effectiveRow? (payload : Entries) (kind : Kind) (key : StyleKey) : Option Value :=
  match (ownStyles payload kind).field? key.name with
  | some row => some row
  | none => (commonStyles payload).field? key.name

/-- No key stands twice among the common rows of style keys, or among those of one kind. -/
structure DistinctStyles (payload : Entries) : Prop where
  common : (commonStyles payload).Distinct
  own : ∀ kind, (ownStyles payload kind).Distinct

variable {source : String} {payload : Entries} {t : Table} {kind : Kind}

theorem meant_of_parse (hparse : parse source (.dict payload) = .ok t) (hdistinct : DistinctStyles payload)
    (hkind : ((payload.field "kinds").entries.field? kind.name).isSome) (key : StyleKey) :
    StyleRow.Meant (effectiveRow? payload kind key) (t.style? kind key) := by
  obtain ⟨raw, hraw⟩ := Option.isSome_iff_exists.mp hkind
  have hfield : (payload.field "kinds").entries.field kind.name = raw := by
    rw [Entries.field, hraw]
    rfl
  obtain ⟨rows, hrows, hread⟩ := KindRows.find?_of_mapM (kinds_of_parseEntries hparse) hraw
  have hstyles := (KindRows.readFrom_of_parse hread).styles
  rw [← hfield] at hstyles
  have hmeant := KindRows.meant_of_parseStyles hstyles hdistinct.common.mergedStyles key
  have heffective : effectiveRow? payload kind key =
      (KindRows.mergedStyles (commonStyles payload) (ownStyles payload kind)).field? key.name := by
    rw [Entries.field?_mergedStyles (hdistinct.own kind), effectiveRow?]
    cases (ownStyles payload kind).field? key.name <;> rfl
  have hstyle : t.style? kind key = rows.styles.lookup key := by
    rw [style?, kind?, hrows]
    rfl
  rw [heffective, hstyle]
  exact hmeant

/-- A kind that a table was read for has a row for a style key exactly if the effective row is there and is not null, and
the row says what the fields of the effective row say. So it is the row of every other kind, of this table or of another,
that the same effective row is for. -/
theorem style_decided_by_effective (hparse : parse source (.dict payload) = .ok t) (hdistinct : DistinctStyles payload)
    (hkind : ((payload.field "kinds").entries.field? kind.name).isSome) (key : StyleKey) :
    ((t.style? kind key).isSome ↔ ∃ row, effectiveRow? payload kind key = some row ∧ row ≠ .null) ∧
    (∀ r, t.style? kind key = some r ↔ ∃ row, effectiveRow? payload kind key = some row ∧ row ≠ .null ∧
      StyleRow.Says row.entries r) ∧
    ∀ source' (payload' : Entries) t' kind' key', parse source' (.dict payload') = .ok t' → DistinctStyles payload' →
      ((payload'.field "kinds").entries.field? kind'.name).isSome →
      effectiveRow? payload' kind' key' = effectiveRow? payload kind key →
      t'.style? kind' key' = t.style? kind key := by
  have hmeant := meant_of_parse hparse hdistinct hkind key
  refine ⟨hmeant.isSome_iff, fun r => ⟨fun hr => ?_, ?_⟩, ?_⟩
  · rw [hr] at hmeant
    cases hrow : effectiveRow? payload kind key with
    | none =>
        rw [hrow] at hmeant
        cases hmeant
    | some row =>
        rw [hrow] at hmeant
        cases hmeant with
        | said hnull hsaid => exact ⟨row, rfl, hnull, hsaid⟩
  · rintro ⟨row, hrow, hnull, hsaid⟩
    rw [hrow] at hmeant
    exact hmeant.unique (.said hnull hsaid)
  · intro source' payload' t' kind' key' hparse' hdistinct' hkind' hsame
    have hmeant' := meant_of_parse hparse' hdistinct' hkind' key'
    rw [hsame] at hmeant'
    exact hmeant'.unique hmeant

/-- A payload with a common row for the title, which bars replace and pies remove. -/
def titlesPayload : Entries :=
  let select : Value × Value := (.text "select", .dict [(.text "write", .text "fixed"), (.text "params", .dict [])])
  let heading : Value := .dict [(.text "write", .text "scalar"), (.text "param", .text "heading")]
  let main : Value := .dict [(.text "write", .text "scalar"), (.text "param", .text "main"), (.text "note", .text "plain")]
  [(.text "grammar", .text "mini"), (.text "defaults", .dict [(.text "styles", .dict [(.text "title", main)])]),
    (.text "kinds", .dict [
      (.text "bar", .dict [select, (.text "styles", .dict [(.text "title", heading)])]),
      (.text "pie", .dict [select, (.text "styles", .dict [(.text "title", .null)])]),
      (.text "histogram", .dict [select])])]

/-- The common note does not show through the row of bars, and the common row is there for histograms. -/
theorem style_decided_by_effective_titles : ∃ t, parse "<memory>" (.dict titlesPayload) = .ok t ∧
    t.style? .bar .title = some ⟨.written (.scalar (.text "heading")), none, .null⟩ ∧
    (t.style? .pie .title).isSome = false ∧
    t.style? .histogram .title = some ⟨.written (.scalar (.text "main")), none, .text "plain"⟩ := by
  obtain ⟨t, hparse⟩ : ∃ t, parse "<memory>" (.dict titlesPayload) = .ok t := ⟨_, rfl⟩
  have hdistinct : DistinctStyles titlesPayload := ⟨by decide, fun kind => by cases kind <;> decide⟩
  refine ⟨t, hparse, ?_, ?_, ?_⟩
  · exact ((style_decided_by_effective hparse hdistinct (by rfl) .title).2.1 _).mpr
      ⟨_, rfl, nofun, ⟨"scalar", _, rfl, rfl, rfl⟩, rfl, rfl⟩
  · rw [← Bool.not_eq_true, (style_decided_by_effective hparse hdistinct (by rfl) .title).1]
    rintro ⟨row, hrow, hnull⟩
    cases hrow
    exact hnull rfl
  · exact ((style_decided_by_effective hparse hdistinct (by rfl) .title).2.1 _).mpr
      ⟨_, rfl, nofun, ⟨"scalar", _, rfl, rfl, rfl⟩, rfl, rfl⟩

end Table

end ChartGrammar
