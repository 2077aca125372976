import ChartGrammar.Proofs.Value.Documents
import ChartGrammar.Rendering.Basic

/-! Snapshots of renderings. The text of a rendering is that of one value, in which the parameters are the only part
whose form varies; so it tells all of the rendering but the order of keys in the parameters and which sequences in them
are tuples. There is a text as long as no integer has too many digits and no finding shows a table's note that is more
than a scalar. -/

namespace ChartGrammar

namespace Value

/-- Whether a value is null, a truth value, an integer or a text. -/
def isScalar : Value → Bool
  | null => true
  | bool _ => true
  | int _ => true
  | text _ => true
  | _ => false

variable {v w : Value}

theorem isData_of_isScalar (h : v.isScalar = true) : v.isData = true := by
  cases v <;> first | rfl | cases h

theorem plain_of_isScalar (h : v.isScalar = true) : v.plain = v := by
  cases v <;> first | rfl | cases h

/-- The keys of data are texts. -/
theorem keysLegible_of_isData (h : v.isData = true) : v.keysLegible = true := by
  induction v using Value.induction with
  | null | bool | int | text => rfl
  | float | unset | column | literal => cases h
  | list xs ih | tuple xs ih =>
      rw [isData, areData_iff] at h
      rw [keysLegible, itemKeysLegible_iff]
      exact fun x hx => ih x hx (h x hx)
  | dict es ih =>
      obtain ⟨hes, -⟩ := entriesAreData_iff.mp h
      rw [keysLegible, entryKeysLegible_iff]
      refine fun e he => ⟨?_, (ih e he).2 (hes e he).2⟩
      obtain ⟨s, hs⟩ := (hes e he).1
      rw [hs]
      rfl

theorem agrees_iff_eq (h : v.isScalar = true) : v.agrees w = true ↔ v = w := by
  cases v with
  | null | bool | int | text => cases w <;> simp [agrees]
  | _ => cases h

end Value

namespace Diagnostic

/-- A finding whose message is a text and whose key is a text or null, or either another scalar. -/
def IsPlain (f : Diagnostic) : Prop :=
  f.message.isScalar = true ∧ f.key.isScalar = true

variable {f g : Diagnostic}

theorem isData_toValue (h : f.IsPlain) : f.toValue.isData = true := by
  simp [toValue, Value.isData, Value.entriesAreData, Value.same, Value.isData_of_isScalar h.1,
    Value.isData_of_isScalar h.2]

/-- Findings are told apart by their payloads. -/
theorem agrees_toValue_iff (h : f.IsPlain) : f.toValue.agrees g.toValue = true ↔ f = g := by
  obtain ⟨severity, code, message, key⟩ := f
  obtain ⟨severity', code', message', key'⟩ := g
  have hmessage := Value.agrees_iff_eq (w := message') h.1
  have hkey := Value.agrees_iff_eq (w := key') h.2
  have hnames : severity.name = severity'.name ↔ severity = severity' :=
    ⟨fun heq => Vocabulary.name_injective heq, congrArg _⟩
  have hnames' : code.name = code'.name ↔ code = code' :=
    ⟨fun heq => Vocabulary.name_injective heq, congrArg _⟩
  simp only at hmessage hkey
  simp [toValue, Value.agrees, Value.entriesAgree, Value.same, hmessage, hkey, hnames, hnames']

theorem itemsAgree_toValue_iff {fs : List Diagnostic} (h : ∀ f ∈ fs, f.IsPlain) (gs : List Diagnostic) :
    Value.itemsAgree (fs.map toValue) (gs.map toValue) = true ↔ fs = gs := by
  induction fs generalizing gs with
  | nil => cases gs <;> simp [Value.itemsAgree]
  | cons f fs ih =>
      rw [List.forall_mem_cons] at h
      cases gs with
      | nil => simp [Value.itemsAgree]
      | cons g gs => simp [Value.itemsAgree, agrees_toValue_iff h.1, ih h.2 gs]

theorem plain_toValue (h : f.IsPlain) : f.toValue.plain = f.toValue := by
  rw [toValue, Value.plain_dict]
  · simp [Value.plain, Value.plain_of_isScalar h.1, Value.plain_of_isScalar h.2]
  · simp
  · simp

end Diagnostic

namespace Rendering

/-- A rendering whose parameters are data under names that are texts, and whose findings are plain. -/
structure IsData (r : Rendering) : Prop where
  parameters : (Value.dict r.parameters).isData = true
  findings : ∀ f ∈ r.diagnostics, f.IsPlain

/-- The value whose plain form is the payload of a rendering. -/
def toValue (r : Rendering) : Value :=
  .dict [
    (.text "grammar", .text r.grammar),
    (.text "kind", .text r.kind.name),
    (.text "parameters", .dict r.parameters),
    (.text "diagnostics", .list (r.diagnostics.map Diagnostic.toValue))]

variable {r other : Rendering}

theorem encode_eq_plain (h : r.IsData) : r.encode = .ok r.toValue.plain := by
  have hfindings : (r.diagnostics.map Diagnostic.toValue).map Value.plain = r.diagnostics.map Diagnostic.toValue := by
    rw [List.map_map]
    exact List.map_congr_left fun f hf => Diagnostic.plain_toValue (h.findings f hf)
  have hparameters : (Value.dict r.parameters).jsonable = .ok (Value.dict r.parameters).plain := by
    rw [Value.jsonable_eq, Value.keysLegible_of_isData h.parameters, if_pos rfl]
  have htoValue : r.toValue.plain = .dict [(.text "grammar", .text r.grammar), (.text "kind", .text r.kind.name),
      (.text "parameters", (Value.dict r.parameters).plain),
      (.text "diagnostics", .list (r.diagnostics.map Diagnostic.toValue))] := by
    rw [toValue, Value.plain_dict]
    · simp [Value.plain, Value.plainItems_eq_map, hfindings]
    · simp
    · simp
  rw [encode, hparameters, htoValue]
  rfl

theorem json_eq_plain (h : r.IsData) : r.json = r.toValue.plain.json := by
  rw [json, encode_eq_plain h]
  rfl

theorem isData_toValue (h : r.IsData) : r.toValue.isData = true := by
  have hfindings : Value.areData (r.diagnostics.map Diagnostic.toValue) = true := by
    rw [Value.areData_iff, List.forall_mem_map]
    exact fun f hf => Diagnostic.isData_toValue (h.findings f hf)
  have hparameters := h.parameters
  rw [Value.isData] at hparameters
  simp [toValue, Value.isData, Value.entriesAreData, Value.same, hfindings, hparameters]

theorem agrees_toValue_iff (h : r.IsData) : r.toValue.agrees other.toValue = true ↔
    r.grammar = other.grammar ∧ r.kind = other.kind ∧ r.diagnostics = other.diagnostics ∧
      (Value.dict r.parameters).agrees (.dict other.parameters) = true := by
  have hkind : r.kind.name = other.kind.name ↔ r.kind = other.kind :=
    ⟨fun heq => Vocabulary.name_injective heq, congrArg _⟩
  have hfindings := Diagnostic.itemsAgree_toValue_iff h.findings other.diagnostics
  simp [toValue, Value.agrees, Value.entriesAgree, Value.same, hkind, hfindings]
  tauto

/-- A rendering has a snapshot exactly if it can be written. Two of those have one snapshot exactly if they are of one
kind in one grammar, with the same findings and with parameters that are equal up to the order of keys at every level and
the distinction of tuples from lists. -/
theorem json_eq_iff (h : r.IsData) (h' : other.IsData) : ((∃ s, r.json = .ok s) ↔ r.toValue.legible = true) ∧
    (r.toValue.legible = true → other.toValue.legible = true → ∃ s t, r.json = .ok s ∧ other.json = .ok t ∧
      (s = t ↔ r.grammar = other.grammar ∧ r.kind = other.kind ∧ r.diagnostics = other.diagnostics ∧
        (Value.dict r.parameters).agrees (.dict other.parameters) = true)) := by
  rw [json_eq_plain h, json_eq_plain h', ← agrees_toValue_iff h]
  refine ⟨⟨fun ⟨s, hs⟩ => Value.legible_of_jsonAt_plain (isData_toValue h) hs, fun hlegible => ?_⟩, ?_⟩
  · exact ⟨_, Value.jsonAt_plain (isData_toValue h) hlegible 0⟩
  · exact Value.json_plain_eq_iff (isData_toValue h) (isData_toValue h')

/-- Bars with some parameters, and a finding with a text beyond ASCII. -/
def barsWith (parameters : Entries) : Rendering :=
  ⟨"layered", .bar, parameters, [finding .info .explained (.text "Größe 📊 → \"Σ\"") "group"]⟩

theorem isData_barsWith {parameters : Entries} (h : (Value.dict parameters).isData = true) :
    (barsWith parameters).IsData :=
  ⟨h, List.forall_mem_singleton.mpr ⟨rfl, rfl⟩⟩

/-- The order of keys and a tuple in place of a list do not show in a snapshot. -/
theorem json_barsWith_rearranged :
    let r := barsWith [(.text "aes", .dict [(.text "x", .text "Region"), (.text "y", .text "Sales")]),
      (.text "breaks", .tuple [.int 1, .bool true, .dict []])]
    let other := barsWith [(.text "breaks", .list [.int 1, .bool true, .dict []]),
      (.text "aes", .dict [(.text "y", .text "Sales"), (.text "x", .text "Region")])]
    r.IsData ∧ other.IsData ∧ r.toValue.legible = true ∧ other.toValue.legible = true ∧
      ∃ s, r.json = .ok s ∧ other.json = .ok s := by
  intro r other
  have hr : r.IsData := isData_barsWith (by decide)
  have hother : other.IsData := isData_barsWith (by decide)
  have hlegible : r.toValue.legible = true := by decide
  have hlegible' : other.toValue.legible = true := by decide
  obtain ⟨s, t, hs, ht, hiff⟩ := (json_eq_iff hr hother).2 hlegible hlegible'
  have hst : s = t := hiff.mpr ⟨rfl, rfl, rfl, by decide⟩
  exact ⟨hr, hother, hlegible, hlegible', s, hs, hst ▸ ht⟩

/-- In a snapshot the message of each finding is written. -/
theorem exists_message_of_json {s : String} (h : r.json = .ok s) {f : Diagnostic} (hf : f ∈ r.diagnostics) :
    ∃ t, Value.jsonAt 3 f.message = .ok t := by
  obtain ⟨v, hencode, hjson⟩ := bind_eq_ok_iff.mp h
  obtain ⟨parameters, -, hv⟩ := bind_eq_ok_iff.mp hencode
  cases hv
  obtain ⟨_, hfindings⟩ := Value.exists_of_jsonAt_dict hjson
    (.text "diagnostics", .list (r.diagnostics.map Diagnostic.toValue)) (by simp)
  obtain ⟨texts, htexts, -⟩ := bind_eq_ok_iff.mp hfindings
  obtain ⟨_, hfinding⟩ := Value.exists_of_jsonItems htexts f.toValue (List.mem_map_of_mem hf)
  exact Value.exists_of_jsonAt_dict hfinding (.text "message", f.message) (by simp)

/-- A parameter of too many digits has no text, and nor has a finding whose message is a dictionary with keys that have
no order between them; and two surrogates, each a character of its own, would have the text of the character that they
stand for together. -/
theorem not_json_eq_iff_data :
    let long : Rendering := ⟨"layered", .bar, [(.text "limit", .int Text.leastTooLong)], []⟩
    let note : Value := .dict [(.null, .int 1), (.text "a", .int 2)]
    let noted : Rendering := ⟨"layered", .bar, [], [finding .info .explained note "bar"]⟩
    (¬ ∀ r other : Rendering, (Value.dict r.parameters).isData = true → (Value.dict other.parameters).isData = true →
      ∃ s t, r.json = .ok s ∧ other.json = .ok t ∧ (s = t ↔ r.grammar = other.grammar ∧ r.kind = other.kind ∧
        r.diagnostics = other.diagnostics ∧ (Value.dict r.parameters).agrees (.dict other.parameters) = true)) ∧
    (∀ s, long.json ≠ .ok s) ∧ (∀ s, noted.json ≠ .ok s) ∧
    Value.jsonEscape 0xd83d ++ Value.jsonEscape 0xde00 = Value.jsonEscape 0x1f600 := by
  intro long note noted
  have hdata : long.IsData := ⟨rfl, fun _ hf => absurd hf List.not_mem_nil⟩
  have hlong (s : String) : long.json ≠ .ok s := by
    intro hs
    rw [json_eq_plain hdata] at hs
    have hlegible := Value.legible_of_jsonAt_plain (isData_toValue hdata) hs
    have hparameters := Value.entriesLegible_iff.mp hlegible (.text "parameters", .dict long.parameters) (by simp)
    have hlimit := (Value.entriesLegible_iff.mp hparameters.2 _ List.mem_cons_self).2
    rw [Value.legible_leastTooLong] at hlimit
    cases hlimit
  have hnoted (s : String) : noted.json ≠ .ok s := by
    intro hs
    obtain ⟨t, ht⟩ := exists_message_of_json hs List.mem_cons_self
    cases ht
  refine ⟨fun h => ?_, hlong, hnoted, rfl⟩
  obtain ⟨s, -, hs, -⟩ := h long long rfl rfl
  exact hlong s hs

end Rendering

end ChartGrammar
