import ChartGrammar.Proofs.Chart.Calls
import ChartGrammar.Proofs.Text.Integer
import ChartGrammar.Snapshot

/-! A schema survives its payload. Decoding defines every column again; a definition refuses a blank name, a name that
is taken and a cardinality below zero, and none of these is in a schema that definitions made. What is left is the
cardinality, which is read from its digits: one that has more of them than are read is not read back, and one that is
no integer is not read at all. -/

namespace ChartGrammar

/-- A column whose cardinality can be read from its text: it has none, or an integer of no more digits than are read. -/
def Column.Legible (c : Column) : Prop :=
  ∀ n, c.cardinality = some n → ∃ m : Int, n = .whole m ∧ (Nat.toDigits 10 m.natAbs).length ≤ Text.maxDigits

namespace Schema

variable {s t : Schema} {c : Column} {name type cardinality payload : Value} {hint : Option Number}

/-! ### What a definition accepts -/

theorem readCardinality_eq_ok_iff {column : String} : readCardinality column cardinality = .ok hint ↔
    cardinality = .null ∧ hint = none ∨
      ∃ n, cardinality.number? = some n ∧ n.lt (.whole 0) = false ∧ hint = some n := by
  cases cardinality with
  | int m => cases hneg : (Number.whole m).lt (.whole 0) <;> simp [readCardinality, Value.number?, hneg, @eq_comm _ hint]
  | float x => cases hneg : (Number.real x).lt (.whole 0) <;> simp [readCardinality, Value.number?, hneg, @eq_comm _ hint]
  | null => simp [readCardinality, Value.number?, @eq_comm _ hint]
  | _ => simp [readCardinality, Value.number?]

/-- A definition succeeds exactly if its name is free and not blank, its type is named and its cardinality is accepted,
and then it adds the column after the others. -/
theorem define_eq_ok_iff : s.define name type cardinality = .ok (t, c) ↔
    (name = .text c.name ∧ Text.blank c.name = false ∧ s.find? c.name = none) ∧
      type = .text c.type.name ∧ readCardinality c.name cardinality = .ok c.cardinality ∧
      t = ⟨s.columns ++ [c]⟩ := by
  constructor
  · intro h
    obtain ⟨-, hname⟩ := define_eq_ok h
    refine ⟨hname, ?_⟩
    obtain ⟨rfl, hvisible, hfree⟩ := hname
    rw [define, hvisible, hfree] at h
    simp only [Bool.false_eq_true, ↓reduceIte, Option.isSome_none] at h
    split at h
    · cases h
    · next columnType htype =>
        obtain ⟨hint, hhint, h⟩ := bind_eq_ok_iff.mp h
        obtain ⟨rfl, hadded⟩ := Prod.mk.inj (Except.ok.inj h)
        rw [← hadded]
        exact ⟨Vocabulary.ofValue?_eq_some_iff.mp htype, hhint, rfl⟩
  · rintro ⟨⟨rfl, hvisible, hfree⟩, rfl, hhint, rfl⟩
    have htype : Vocabulary.ofValue? (.text c.type.name) = some c.type := Vocabulary.ofValue?_eq_some_iff.mpr rfl
    rw [define, hvisible, hfree]
    simp only [Bool.false_eq_true, ↓reduceIte, Option.isSome_none, htype, hhint]
    rfl

/-! ### What definitions make -/

/-- The schemas that are made from pairs and by definitions. -/
inductive Defined : Schema → Prop where
  | empty : Defined .empty
  | ofPairs {pairs : Value} {s : Schema} : ofPairs pairs = .ok s → Defined s
  | define {s t : Schema} {name type cardinality : Value} {c : Column} :
      Defined s → s.define name type cardinality = .ok (t, c) → Defined t

/-- Pairs are defined one after another. -/
theorem built_of_ofPairs {pairs : Value} (h : ofPairs pairs = .ok s) : s.Built := by
  unfold ofPairs at h
  split at h
  · cases h
  · refine foldlM_keeps Built (fun s item t hs hstep => ?_) .empty h
    split at hstep
    · cases hstep
    · next name type _ =>
        obtain ⟨defined, hdefine, rfl⟩ := map_eq_ok_iff.mp hstep
        exact .define hs hdefine
    · cases hstep

theorem Defined.built (h : s.Defined) : s.Built := by
  induction h with
  | empty => exact .empty
  | ofPairs h => exact built_of_ofPairs h
  | define _ hdefine ih => exact .define ih hdefine

/-- A schema that could be defined again, column by column. -/
structure Sound (s : Schema) : Prop where
  distinct : s.names.Nodup
  visible : ∀ c ∈ s.columns, Text.blank c.name = false
  counted : ∀ c ∈ s.columns, ∀ n, c.cardinality = some n → n.lt (.whole 0) = false

theorem find?_eq_none_iff {column : String} : s.find? column = none ↔ column ∉ s.names := by
  simp only [find?, List.find?_eq_none, names, List.mem_map, beq_iff_eq]
  exact ⟨fun h ⟨c, hc, heq⟩ => h c hc heq, fun h c hc heq => h ⟨c, hc, heq⟩⟩

theorem Sound.define (h : s.Sound) (hdefine : s.define name type cardinality = .ok (t, c)) : t.Sound := by
  obtain ⟨⟨-, hvisible, hfree⟩, -, hhint, rfl⟩ := define_eq_ok_iff.mp hdefine
  refine ⟨?_, ?_, ?_⟩
  · have hnames : (Schema.mk (s.columns ++ [c])).names = s.names ++ [c.name] := List.map_append
    rw [hnames, List.nodup_append]
    refine ⟨h.distinct, List.pairwise_singleton _ _, fun a ha b hb => ?_⟩
    rw [List.mem_singleton.mp hb]
    rintro rfl
    exact find?_eq_none_iff.mp hfree ha
  · intro d hd
    rcases List.mem_append.mp hd with hd | hd
    · exact h.visible d hd
    · rw [List.mem_singleton.mp hd]
      exact hvisible
  · intro d hd n hn
    rcases List.mem_append.mp hd with hd | hd
    · exact h.counted d hd n hn
    · rw [List.mem_singleton.mp hd] at hn
      rcases readCardinality_eq_ok_iff.mp hhint with ⟨-, hnone⟩ | ⟨m, -, hcounted, hsome⟩
      · rw [hnone] at hn
        cases hn
      · rw [hsome] at hn
        cases hn
        exact hcounted

theorem Built.sound (h : s.Built) : s.Sound := by
  induction h with
  | empty => exact ⟨List.nodup_nil, List.forall_mem_nil _, List.forall_mem_nil _⟩
  | define _ hdefine ih => exact ih.define hdefine

/-! ### Columns written and read -/

/-- A cardinality is read back from its payload. -/
theorem decodeCardinality_encode (hlegible : c.Legible) :
    decodeCardinality (Value.ofOption (c.cardinality.map Value.ofNumber)) =
      .ok (Value.ofOption (c.cardinality.map Value.ofNumber)) := by
  cases hhint : c.cardinality with
  | none => rfl
  | some n =>
      obtain ⟨m, rfl, hshort⟩ := hlegible n hhint
      have hread : Text.integer? (Value.int m).display = some m := Text.integer?_text hshort
      show decodeCardinality (.int m) = .ok (.int m)
      simp only [decodeCardinality, hread]
      rfl

/-- A column that is new to a schema is added by its payload. -/
theorem decodeColumn_encode (hfree : s.find? c.name = none) (hvisible : Text.blank c.name = false)
    (hcounted : ∀ n, c.cardinality = some n → n.lt (.whole 0) = false) (hlegible : c.Legible) :
    decodeColumn s c.encode = .ok ⟨s.columns ++ [c]⟩ := by
  have hread : readCardinality c.name (Value.ofOption (c.cardinality.map Value.ofNumber)) = .ok c.cardinality := by
    refine readCardinality_eq_ok_iff.mpr ?_
    cases hhint : c.cardinality with
    | none => exact .inl ⟨rfl, rfl⟩
    | some n =>
        refine .inr ⟨n, ?_, hcounted n hhint, rfl⟩
        cases n <;> rfl
  have hdefine : s.define (.text c.name) (.text c.type.name) (Value.ofOption (c.cardinality.map Value.ofNumber)) =
      .ok (⟨s.columns ++ [c]⟩, c) :=
    define_eq_ok_iff.mpr ⟨⟨rfl, hvisible, hfree⟩, rfl, hread, rfl⟩
  show Except.bind (decodeCardinality (Value.ofOption (c.cardinality.map Value.ofNumber))) (fun cardinality =>
    Except.bind (s.define (.text c.name) (.text c.type.name) cardinality) fun defined => .ok defined.1) = _
  rw [decodeCardinality_encode hlegible]
  show Except.bind (s.define _ _ _) _ = _
  rw [hdefine]
  rfl

/-- Reading the columns that follow some others puts them after those. -/
theorem foldlM_decodeColumn {done rest : List Column} (h : (Schema.mk (done ++ rest)).Sound)
    (hlegible : ∀ c ∈ rest, c.Legible) :
    (rest.map Column.encode).foldlM decodeColumn ⟨done⟩ = .ok ⟨done ++ rest⟩ := by
  induction rest generalizing done with
  | nil =>
      rw [List.append_nil]
      rfl
  | cons c rest ih =>
      rw [List.forall_mem_cons] at hlegible
      have hmem : c ∈ done ++ c :: rest := List.mem_append_right done List.mem_cons_self
      have hfree : (Schema.mk done).find? c.name = none := by
        have hdistinct : (done.map Column.name ++ c.name :: rest.map Column.name).Nodup := by
          simpa [names] using h.distinct
        rw [find?_eq_none_iff]
        exact fun hname => (List.nodup_append.mp hdistinct).2.2 _ hname _ List.mem_cons_self rfl
      have hstep := decodeColumn_encode hfree (h.visible c hmem) (h.counted c hmem) hlegible.1
      rw [List.append_cons] at h ⊢
      rw [List.map_cons, List.foldlM_cons, hstep]
      exact ih h hlegible.2

/-- A sound schema whose cardinalities can be read is decoded from its payload. -/
theorem Sound.decode_encode (h : s.Sound) (hlegible : ∀ c ∈ s.columns, c.Legible) : decode s.encode = .ok s :=
  have hall : (Schema.mk ([] ++ s.columns)).Sound := h
  foldlM_decodeColumn hall hlegible

/-! ### What is decoded -/

/-- A cardinality that is read from a payload can be read again. -/
theorem legible_of_decodeCardinality {raw : Value} (hraw : decodeCardinality raw = .ok cardinality)
    (hread : readCardinality c.name cardinality = .ok c.cardinality) : c.Legible := by
  intro n hn
  rw [hn, readCardinality_eq_ok_iff] at hread
  obtain ⟨-, hnone⟩ | ⟨m, hnumber, -, hm⟩ := hread
  · cases hnone
  cases hm
  unfold decodeCardinality at hraw
  split at hraw
  · cases hraw
    cases hnumber
  split at hraw
  · cases hraw
    cases hnumber
  split at hraw
  · next k hk =>
      cases hraw
      cases hnumber
      exact ⟨k, rfl, Text.length_toDigits_of_integer? hk⟩
  · cases hraw

/-- Reading an entry of a payload defines a column, whose cardinality can be read again. -/
theorem exists_define_of_decodeColumn {raw : Value} (h : decodeColumn s raw = .ok t) :
    ∃ name type cardinality c, s.define name type cardinality = .ok (t, c) ∧ c.Legible := by
  unfold decodeColumn at h
  split at h
  · next entry =>
      obtain ⟨cardinality, hraw, h⟩ := bind_eq_ok_iff.mp h
      obtain ⟨⟨t, c⟩, hdefine, h⟩ := bind_eq_ok_iff.mp h
      cases h
      have hread := (define_eq_ok_iff.mp hdefine).2.2.1
      exact ⟨_, _, cardinality, c, hdefine, legible_of_decodeCardinality hraw hread⟩
  · cases h

theorem sound_and_legible_of_decode (h : decode payload = .ok s) : s.Sound ∧ ∀ c ∈ s.columns, c.Legible := by
  obtain ⟨entries, -, h⟩ := bind_eq_ok_iff.mp h
  split at h
  · refine foldlM_keeps (fun s => s.Sound ∧ ∀ c ∈ s.columns, c.Legible) (fun s raw t hs hstep => ?_)
      ⟨Built.empty.sound, List.forall_mem_nil _⟩ h
    obtain ⟨name, type, cardinality, c, hdefine, hlegible⟩ := exists_define_of_decodeColumn hstep
    refine ⟨hs.1.define hdefine, ?_⟩
    rw [(define_eq_ok hdefine).1]
    intro d hd
    rcases List.mem_append.mp hd with hd | hd
    · exact hs.2 d hd
    · rw [List.mem_singleton.mp hd]
      exact hlegible
  · cases h

/-- A schema that was made from pairs and by definitions is decoded from its payload if its cardinalities are integers
that have no more digits than are read; and so is every schema that was decoded from a payload. -/
theorem decoded_from_payload :
    (∀ s : Schema, s.Defined → (∀ c ∈ s.columns, c.Legible) → decode s.encode = .ok s) ∧
      ∀ payload s, decode payload = .ok s → decode s.encode = .ok s := by
  refine ⟨fun s hs hlegible => hs.built.sound.decode_encode hlegible, fun payload s h => ?_⟩
  obtain ⟨hs, hlegible⟩ := sound_and_legible_of_decode h
  exact hs.decode_encode hlegible

/-- A schema with sixty regions is decoded from its payload; and so is one whose years were counted in a text with blanks
and an underscore. -/
theorem decoded_from_payload_regions :
    let regions : Schema := ⟨[⟨"Income", .numeric, none⟩, ⟨"Region", .categorical, some (.whole 60)⟩]⟩
    let raw : Value := .dict [(.text "columns", .list [.dict [
      (.text "name", .text "Year"), (.text "type", .text "temporal"), (.text "cardinality", .text " +1_000 ")]])]
    let years : Schema := ⟨[⟨"Year", .temporal, some (.whole 1000)⟩]⟩
    decode regions.encode = .ok regions ∧ decode raw = .ok years ∧ decode years.encode = .ok years := by
  intro regions raw years
  have hpairs : ofPairs (.list [.tuple [.text "Income", .text "numeric"]]) =
      .ok ⟨[⟨"Income", .numeric, none⟩]⟩ := by rfl
  have hdefine : define ⟨[⟨"Income", .numeric, none⟩]⟩ (.text "Region") (.text "categorical") (.int 60) =
      .ok (regions, ⟨"Region", .categorical, some (.whole 60)⟩) := by rfl
  have hlegible : ∀ c ∈ regions.columns, c.Legible := by
    refine List.forall_mem_cons.mpr ⟨fun n hn => ?_, List.forall_mem_singleton.mpr fun n hn => ?_⟩
    · cases hn
    · cases hn
      exact ⟨60, rfl, by decide⟩
  have hraw : decode raw = .ok years := by rfl
  exact ⟨decoded_from_payload.1 regions (.define (.ofPairs hpairs) hdefine) hlegible, hraw,
    decoded_from_payload.2 raw years hraw⟩

end Schema

end ChartGrammar
