import ChartGrammar.Proofs.Chart.Misuses
import ChartGrammar.Proofs.Chart.RoundTrip
import ChartGrammar.Proofs.Schema.Decoding
import ChartGrammar.Proofs.Text.Integer

/-! Payloads of charts that were edited by hand. What is replayed trips as the operations do that replay it. Besides,
bindings that have no elements, a binding that is no dictionary and a style that is none are not looked at before they
are used. -/

namespace ChartGrammar

namespace Value

/-- The elements of a value that can be written can be written. -/
theorem legible_of_mem_elements {v x : Value} {items : List Value} (h : v.legible = true)
    (hitems : v.elements? = some items) (hx : x ∈ items) : x.legible = true := by
  cases v with
  | list | tuple =>
      cases hitems
      exact areLegible_iff.mp h x hx
  | dict entries =>
      cases hitems
      obtain ⟨e, he, rfl⟩ := List.mem_map.mp hx
      exact (entriesLegible_iff.mp h e he).1
  | text =>
      cases hitems
      obtain ⟨c, -, rfl⟩ := List.mem_map.mp hx
      rfl
  | _ => cases hitems

theorem legible_of_field? {es : Entries} {name : String} {v : Value} (h : (dict es).legible = true)
    (hfield : es.field? name = some v) : v.legible = true := by
  obtain ⟨e, hfind, rfl⟩ := Option.map_eq_some_iff.mp hfield
  exact (entriesLegible_iff.mp h e (List.mem_of_find?_eq_some hfind)).2

theorem legible_field {es : Entries} (h : (dict es).legible = true) (name : String) :
    (es.field name).legible = true := by
  rw [Entries.field]
  cases hfield : es.field? name with
  | none => rfl
  | some v => exact legible_of_field? h hfield

end Value

namespace Chart

open Settings (readTables)

variable {env : Environment} {s : Schema} {c : Chart} {kind facet raw v limit : Value} {m : Misuse}

/-! ### Entries and facets -/

/-- An entry of a payload trips if it is not a dictionary, or as the constant or the column does that it gives. -/
inductive BindingTrips (s : Schema) (c : Chart) : Value → Misuse → Prop where
  | entry {raw : Value} (hraw : ∀ entry, raw ≠ .dict entry) : BindingTrips s c raw .missingAttribute
  | literal {entry : Entries} {v : Value} {m : Misuse} (hliteral : entry.field? "literal" = some v)
      (htrips : LiteralTrips c (entry.field "role") v m) : BindingTrips s c (.dict entry) m
  | column {entry : Entries} {m : Misuse} (hliteral : entry.field? "literal" = none)
      (htrips : ColumnTrips s c (entry.field "role") (entry.field "column") m) : BindingTrips s c (.dict entry) m

/-- A facet, unless there is none, trips if it cannot be written, or as its display does. -/
inductive PanelsTrip (s : Schema) (c : Chart) (facet : Value) : Misuse → Prop where
  | illegible (htruthy : facet.truthy = true) (hillegible : facet.legible = false) : PanelsTrip s c facet .tooLong
  | facet {m : Misuse} (htruthy : facet.truthy = true) (hlegible : facet.legible = true)
      (htrips : FacetTrips s c (.text facet.display) m) : PanelsTrip s c facet m

theorem misusedBy_decodeBinding (s : Schema) (c : Chart) (raw : Value) :
    MisusedBy (decodeBinding s c raw) (BindingTrips s c raw) := by
  cases raw with
  | dict entry =>
      cases hliteral : Entries.field? entry "literal" with
      | some value =>
          have hdecode : decodeBinding s c (.dict entry) =
              c.bind s (Entries.field entry "role") (.literal value) >>= fun bound => pure bound.1 := by
            rw [decodeBinding, show (Value.dict entry).entriesOf = pure entry from rfl, pure_bind]
            simp only [hliteral]
          rw [hdecode]
          refine (misusedBy_bind_literal.bind_pure _).congr fun m => ⟨.literal hliteral, fun h => ?_⟩
          cases h with
          | entry hraw => exact absurd rfl (hraw entry)
          | literal hother htrips =>
              rw [hliteral] at hother
              cases hother
              exact htrips
          | column hother =>
              rw [hliteral] at hother
              cases hother
      | none =>
          have hdecode : decodeBinding s c (.dict entry) =
              c.bind s (Entries.field entry "role") (.column (Entries.field entry "column")) >>=
                fun bound => pure bound.1 := by
            rw [decodeBinding, show (Value.dict entry).entriesOf = pure entry from rfl, pure_bind]
            simp only [hliteral]
          rw [hdecode]
          refine (misusedBy_bind_column.bind_pure _).congr fun m => ⟨.column hliteral, fun h => ?_⟩
          cases h with
          | entry hraw => exact absurd rfl (hraw entry)
          | literal hother =>
              rw [hliteral] at hother
              cases hother
          | column _ htrips => exact htrips
  | _ =>
      refine (MisusedBy.misuse .missingAttribute).congr fun m => ⟨?_, fun h => ?_⟩
      · rintro rfl
        exact .entry fun _ h => Value.noConfusion h
      · cases h
        rfl

theorem misusedBy_decodeFacet (s : Schema) (c : Chart) (facet : Value) :
    MisusedBy (decodeFacet s c facet) (PanelsTrip s c facet) := by
  unfold decodeFacet
  split
  · next htruthy =>
      cases hlegible : facet.legible with
      | true =>
          have hset : MisusedBy (c.setFacet s (.text facet.display)) (FacetTrips s c (.text facet.display)) :=
            misusedBy_readFacet.map _
          rw [Value.present, hlegible]
          refine hset.congr fun m => ⟨.facet htruthy hlegible, fun h => ?_⟩
          cases h with
          | illegible _ hillegible =>
              rw [hlegible] at hillegible
              cases hillegible
          | facet _ _ htrips => exact htrips
      | false =>
          rw [Value.present, hlegible]
          refine (MisusedBy.misuse .tooLong).congr fun m => ⟨?_, fun h => ?_⟩
          · rintro rfl
            exact .illegible htruthy hlegible
          · cases h with
            | illegible => rfl
            | facet _ hother =>
                rw [hlegible] at hother
                cases hother
  · next hfalsy =>
      refine (MisusedBy.ok c).congr fun m => iff_of_false id fun h => ?_
      cases h with
      | illegible htruthy | facet htruthy => exact hfalsy htruthy

/-! ### What payloads trip over -/

/-- The chart that a payload leads to with the first of its bindings, the rest still to come. -/
def Replays (env : Environment) (s : Schema) (limit : Value) (payload : Entries) (done rest : List Value) (c : Chart) :
    Prop :=
  ∃ blank, create env (payload.field "kind") limit = .ok blank ∧
    (payload.field "bindings").optionalElements = .ok (done ++ rest) ∧ done.foldlM (decodeBinding s) blank = .ok c

/-- What a payload can trip over: what a new chart trips over, bindings without elements, one of the bindings, the facet,
a style that is no dictionary, or one of its entries. What comes before has been replayed. -/
inductive Trips (env : Environment) (s : Schema) (limit : Value) (payload : Entries) : Misuse → Prop where
  | start {m : Misuse} (htrips : StartTrips env (payload.field "kind") limit m) : Trips env s limit payload m
  | bindings {blank : Chart} (hcreate : create env (payload.field "kind") limit = .ok blank)
      (htruthy : (payload.field "bindings").truthy = true) (helements : (payload.field "bindings").elements? = none) :
      Trips env s limit payload .notIterable
  | binding {done rest : List Value} {raw : Value} {c : Chart} {m : Misuse}
      (hreplays : Replays env s limit payload done (raw :: rest) c) (htrips : BindingTrips s c raw m) :
      Trips env s limit payload m
  | facet {done : List Value} {bound : Chart} {m : Misuse} (hreplays : Replays env s limit payload done [] bound)
      (htrips : PanelsTrip s bound (payload.field "facet") m) : Trips env s limit payload m
  | style {done : List Value} {bound c : Chart} (hreplays : Replays env s limit payload done [] bound)
      (hfacet : decodeFacet s bound (payload.field "facet") = .ok c) (htruthy : (payload.field "style").truthy = true)
      (hstyle : ∀ styles, payload.field "style" ≠ .dict styles) : Trips env s limit payload .missingAttribute
  | styleEntry {done : List Value} {bound faceted c : Chart} {before after : Entries} {key v : Value} {m : Misuse}
      (hreplays : Replays env s limit payload done [] bound)
      (hfacet : decodeFacet s bound (payload.field "facet") = .ok faceted)
      (hstyles : (payload.field "style").optionalEntries = .ok (before ++ (key, v) :: after))
      (hset : before.foldlM (fun c e => c.setStyle e.1 e.2) faceted = .ok c) (htrips : StyleTrips key v m) :
      Trips env s limit payload m

theorem misusedBy_optionalElements (v : Value) :
    MisusedBy v.optionalElements fun m => m = .notIterable ∧ v.truthy = true ∧ v.elements? = none := by
  unfold Value.optionalElements Value.elementsOf
  cases v.truthy with
  | false => exact (MisusedBy.ok _).congr fun _ => iff_of_false id nofun
  | true =>
      cases v.elements? with
      | none => exact (MisusedBy.misuse .notIterable).congr fun _ => by simp
      | some items => exact (MisusedBy.ok items).congr fun _ => iff_of_false id nofun

theorem misusedBy_optionalEntries (v : Value) : MisusedBy v.optionalEntries fun m =>
    m = .missingAttribute ∧ v.truthy = true ∧ ∀ styles, v ≠ .dict styles := by
  unfold Value.optionalEntries
  cases v.truthy with
  | false => exact (MisusedBy.ok _).congr fun _ => iff_of_false id nofun
  | true =>
      cases v with
      | dict entries => exact (MisusedBy.ok entries).congr fun _ => iff_of_false id fun h => h.2.2 entries rfl
      | _ => exact (MisusedBy.misuse .missingAttribute).congr fun _ => by simp

theorem elements?_of_optionalElements {items : List Value} (h : v.optionalElements = .ok items) (hraw : raw ∈ items) :
    v.truthy = true ∧ v.elements? = some items := by
  unfold Value.optionalElements at h
  split at h
  · next htruthy =>
      unfold Value.elementsOf at h
      split at h
      · next helements =>
          cases h
          exact ⟨htruthy, helements⟩
      · cases h
  · cases h
    exact absurd hraw List.not_mem_nil

theorem eq_dict_of_optionalEntries {styles : Entries} (h : v.optionalEntries = .ok styles) {e : Value × Value}
    (he : e ∈ styles) : v = .dict styles := by
  unfold Value.optionalEntries at h
  split at h
  · unfold Value.entriesOf at h
    split at h
    · cases h
      rfl
    · cases h
  · cases h
    exact absurd he List.not_mem_nil

variable {payload : Entries}

/-- A payload is misused exactly if it trips. -/
theorem misusedBy_decode : MisusedBy (decode env s (.dict payload) limit) (Trips env s limit payload) := by
  -- The parts of the payload from the last to the first, each with what is replayed after it.
  have hstyle (faceted : Chart) := (misusedBy_optionalEntries (payload.field "style")).bind fun styles =>
    MisusedBy.foldlM (fun c e => misusedBy_setStyle c e.1 e.2) styles faceted
  have hfacet (bound : Chart) := (misusedBy_decodeFacet s bound (payload.field "facet")).bind hstyle
  have hbindings (blank : Chart) := (misusedBy_optionalElements (payload.field "bindings")).bind fun items =>
    (MisusedBy.foldlM (misusedBy_decodeBinding s) items blank).bind hfacet
  refine ((misusedBy_create env (payload.field "kind") limit).bind hbindings).congr fun m => ⟨?_, fun h => ?_⟩
  · rintro (hstart | ⟨blank, hcreate, ⟨rfl, htruthy, hnone⟩ | ⟨items, helements, hrest⟩⟩)
    · exact .start hstart
    · exact .bindings hcreate htruthy hnone
    · rcases hrest with ⟨done, raw, rest, c, rfl, hdone, hraw⟩ | ⟨bound, hbound, hrest⟩
      · exact .binding ⟨blank, hcreate, helements, hdone⟩ hraw
      have hreplays : Replays env s limit payload items [] bound :=
        ⟨blank, hcreate, by rw [helements, List.append_nil], hbound⟩
      rcases hrest with hfacet | ⟨faceted, hfaceted, ⟨rfl, htruthy, hstyle⟩ | ⟨styles, hstyles, hrest⟩⟩
      · exact .facet hreplays hfacet
      · exact .style hreplays hfaceted htruthy hstyle
      · obtain ⟨before, ⟨key, v⟩, after, c, rfl, hset, htrips⟩ := hrest
        exact .styleEntry hreplays hfaceted hstyles hset htrips
  · cases h with
    | start htrips => exact .inl htrips
    | bindings hcreate htruthy hnone => exact .inr ⟨_, hcreate, .inl ⟨rfl, htruthy, hnone⟩⟩
    | binding hreplays htrips =>
        obtain ⟨blank, hcreate, helements, hdone⟩ := hreplays
        exact .inr ⟨blank, hcreate, .inr ⟨_, helements, .inl ⟨_, _, _, _, rfl, hdone, htrips⟩⟩⟩
    | facet hreplays htrips =>
        obtain ⟨blank, hcreate, helements, hdone⟩ := hreplays
        rw [List.append_nil] at helements
        exact .inr ⟨blank, hcreate, .inr ⟨_, helements, .inr ⟨_, hdone, .inl htrips⟩⟩⟩
    | style hreplays hfacet htruthy hstyle =>
        obtain ⟨blank, hcreate, helements, hdone⟩ := hreplays
        rw [List.append_nil] at helements
        exact .inr ⟨blank, hcreate, .inr ⟨_, helements, .inr ⟨_, hdone, .inr ⟨_, hfacet,
          .inl ⟨rfl, htruthy, hstyle⟩⟩⟩⟩⟩
    | styleEntry hreplays hfacet hstyles hset htrips =>
        obtain ⟨blank, hcreate, helements, hdone⟩ := hreplays
        rw [List.append_nil] at helements
        exact .inr ⟨blank, hcreate, .inr ⟨_, helements, .inr ⟨_, hdone, .inr ⟨_, hfacet,
          .inr ⟨_, hstyles, _, _, _, _, rfl, hset, htrips⟩⟩⟩⟩⟩

/-! ### What does not trip -/

theorem facetLimit_of_decodeBinding {next : Chart} (h : decodeBinding s c raw = .ok next) :
    next.facetLimit = c.facetLimit := by
  obtain ⟨entry, -, h⟩ := bind_eq_ok_iff.mp h
  obtain ⟨⟨bound, b⟩, hbind, h⟩ := bind_eq_ok_iff.mp h
  cases h
  have hcall : (Desk.mk s c).call (.bind (entry.field "role") _) = .ok ⟨s, bound⟩ :=
    bind_eq_ok_iff.mpr ⟨_, hbind, rfl⟩
  exact (Desk.change_of_call hcall).facetLimit_eq

theorem Replays.facetLimit_eq {done rest : List Value} (h : Replays env s limit payload done rest c) :
    ∃ blank, create env (payload.field "kind") limit = .ok blank ∧ c.facetLimit = blank.facetLimit := by
  obtain ⟨blank, hcreate, -, hdone⟩ := h
  refine ⟨blank, hcreate, ?_⟩
  exact foldlM_keeps (fun next => next.facetLimit = blank.facetLimit)
    (fun _ _ _ hkept hnext => (facetLimit_of_decodeBinding hnext).trans hkept) rfl hdone

/-- The limit of a new chart can be written, since no other is read from the environment. -/
theorem legible_facetLimit (h : create env kind limit = .ok c) (hlimit : limit.legible = true) :
    (Value.int c.facetLimit).legible = true := by
  unfold create at h
  split at h
  · cases h
  obtain ⟨n, hread, h⟩ := bind_eq_ok_iff.mp h
  cases h
  cases Settings.limitCase env limit with
  | fixed n' hfixes _ _ hfixed =>
      rw [hfixed] at hread
      cases hread
      cases hfixes with
      | given => exact hlimit
      | set _ hset _ => exact Value.legible_of_integer? hset
      | default =>
          change (Value.int Settings.defaultFacetLimit).legible = true
          decide
  | refused _ _ _ _ hfixed | illegible _ _ hfixed | homeless _ _ _ hfixed =>
      rw [hfixed] at hread
      cases hread

/-- The payload can be written; its bindings, if there are any, are dictionaries that do not look up lists or
dictionaries, and its style, if there is one, is a dictionary. -/
structure WellShaped (payload : Entries) : Prop where
  legible : (Value.dict payload).legible = true
  bindings : (payload.field "bindings").truthy = true → ∃ items, (payload.field "bindings").elements? = some items ∧
    ∀ raw ∈ items, ∃ entry : Entries, raw = .dict entry ∧
      (entry.field? "literal" = none → (entry.field "column").isKey = true)
  style : (payload.field "style").truthy = true → ∃ styles, payload.field "style" = .dict styles

theorem WellShaped.not_bindingTrips (h : WellShaped payload) (hs : s.Reportable)
    (hlimit : (Value.int c.facetLimit).legible = true) {items : List Value}
    (hitems : (payload.field "bindings").optionalElements = .ok items) (hraw : raw ∈ items) :
    ¬BindingTrips s c raw m := by
  obtain ⟨htruthy, helements⟩ := elements?_of_optionalElements hitems hraw
  obtain ⟨others, hothers, hentries⟩ := h.bindings htruthy
  rw [helements] at hothers
  cases hothers
  obtain ⟨entry, rfl, hkey⟩ := hentries raw hraw
  have hlegible := Value.legible_of_mem_elements (Value.legible_field h.legible "bindings") helements hraw
  intro htrips
  cases htrips with
  | entry hentry => exact hentry entry rfl
  | literal hliteral htrips =>
      exact not_literalTrips (Value.legible_field hlegible "role") (Value.legible_of_field? hlegible hliteral) htrips
  | column hliteral htrips =>
      exact not_columnTrips hs hlimit (Value.legible_field hlegible "role") (hkey hliteral)
        (Value.legible_field hlegible "column") htrips

theorem WellShaped.not_trips (h : WellShaped payload) (hs : s.Reportable) (hlimit : limit.legible = true)
    (htables : limit = .null → ∃ tables, readTables env = .ok tables) : ¬Trips env s limit payload m := by
  have hreplayed {done rest : List Value} {c : Chart} (hreplays : Replays env s limit payload done rest c) :
      (Value.int c.facetLimit).legible = true := by
    obtain ⟨blank, hcreate, hkept⟩ := hreplays.facetLimit_eq
    rw [hkept]
    exact legible_facetLimit hcreate hlimit
  have hfield (name : String) : ¬(payload.field name).legible = false := by
    rw [Value.legible_field h.legible]
    exact nofun
  intro htrips
  cases htrips with
  | start htrips =>
      cases htrips with
      | kind hillegible => exact hfield "kind" hillegible
      | limit _ _ hillegible =>
          rw [hlimit] at hillegible
          cases hillegible
      | home _ hnull _ hhomeless =>
          obtain ⟨tables, hok⟩ := htables hnull
          rw [hhomeless] at hok
          cases hok
  | bindings _ htruthy hnone =>
      obtain ⟨items, helements, -⟩ := h.bindings htruthy
      rw [hnone] at helements
      cases helements
  | @binding done rest raw c _ hreplays htrips =>
      obtain ⟨_, -, hitems, -⟩ := id hreplays
      exact h.not_bindingTrips hs (hreplayed hreplays) hitems (List.mem_append_right done List.mem_cons_self) htrips
  | facet hreplays htrips =>
      cases htrips with
      | illegible _ hillegible => exact hfield "facet" hillegible
      | facet _ _ htrips => exact not_facetTrips hs (hreplayed hreplays) rfl rfl htrips
  | style _ _ htruthy hstyle =>
      obtain ⟨styles, hstyles⟩ := h.style htruthy
      exact hstyle styles hstyles
  | @styleEntry _ _ _ _ before after key v _ _ _ hstyles _ htrips =>
      have hentry : (key, v) ∈ before ++ (key, v) :: after := List.mem_append_right before List.mem_cons_self
      have hlegible := Value.legible_field h.legible "style"
      rw [eq_dict_of_optionalEntries hstyles hentry] at hlegible
      obtain ⟨hkey, hvalue⟩ := Value.entriesLegible_iff.mp hlegible _ hentry
      cases htrips with
      | key hillegible =>
          rw [hkey] at hillegible
          cases hillegible
      | value _ _ hillegible =>
          rw [hvalue] at hillegible
          cases hillegible

/-- Reading a payload gives a chart, or it is refused for a fault of construction, or it is a misuse, and that exactly if
the payload trips; and no payload trips that can be written and whose bindings and style have the right shape, over a
schema of which everything can be reported, unless a home directory is not known. -/
theorem misused_iff_trips (env : Environment) (s : Schema) (payload : Entries) (limit : Value) :
    (∀ fault, decode env s (.dict payload) limit = .error fault → fault.OfConstruction ∨ ∃ m, fault = .misuse m) ∧
    (∀ m, decode env s (.dict payload) limit = .error (.misuse m) ↔ Trips env s limit payload m) ∧
    (WellShaped payload → s.Reportable → limit.legible = true →
      (limit = .null → ∃ tables, readTables env = .ok tables) →
      ∀ m, decode env s (.dict payload) limit ≠ .error (.misuse m)) := by
  have hdecode : MisusedBy (decode env s (.dict payload) limit) (Trips env s limit payload) := misusedBy_decode
  refine ⟨hdecode.faults, hdecode.misused, fun hshaped hs hlimit htables m h => ?_⟩
  exact hshaped.not_trips hs hlimit htables ((hdecode.misused m).mp h)

/-- A payload of bars over a column, which is given by a value. -/
def barsOver (column : Value) : Entries :=
  [(.text "kind", .text "bar"),
    (.text "bindings", .list [.dict [(.text "role", .text "x"), (.text "column", column)]])]

/-- Bars over a column that is given as a list are a misuse, and so are bars over one given as a number of too many
digits; bars over a column that is given as a small number are refused. -/
theorem misused_iff_trips_regions :
    let s : Schema := ⟨[⟨"Region", .categorical, none⟩]⟩
    let long := Value.int Text.leastTooLong
    Trips {} s .null (barsOver (.list [.text "Region"])) .unhashable ∧
      decode {} s (.dict (barsOver (.list [.text "Region"]))) .null = .error (.misuse .unhashable) ∧
      decode {} s (.dict (barsOver long)) .null = .error (.misuse .tooLong) ∧
      WellShaped (barsOver (.int 1)) ∧ s.Reportable ∧
      ∃ f, decode {} s (.dict (barsOver (.int 1))) .null = .error (.construction f) := by
  intro s long
  let blank : Chart := { kind := .bar, facetLimit := 12 }
  have hreplays (column : Value) : Replays {} s .null (barsOver column) []
      [.dict [(.text "role", .text "x"), (.text "column", column)]] blank := ⟨blank, rfl, rfl, rfl⟩
  have htrips {column : Value} {m : Misuse} (hname : NameTrips column m) :
      Trips {} s .null (barsOver column) m := by
    refine .binding (hreplays column) (.column rfl ?_)
    exact .name (r := .x) rfl nofun rfl hname
  have hlong : NameTrips long .tooLong := .illegible rfl Value.legible_leastTooLong
  have hlist : NameTrips (.list [.text "Region"]) .unhashable := .unhashable rfl
  have hshaped : WellShaped (barsOver (.int 1)) := by
    refine ⟨by decide, fun _ => ⟨_, rfl, List.forall_mem_singleton.mpr ⟨_, rfl, fun _ => rfl⟩⟩, ?_⟩
    intro htruthy
    cases htruthy
  have hs : s.Reportable := List.forall_mem_singleton.mpr rfl
  have hrefused : decode {} s (.dict (barsOver (.int 1))) .null = .error (.construction (.unknownColumn (.int 1))) := by
    have hwritten : (Value.int 1).legible = true := by decide
    have habout : Fault.about (.int 1) (.construction (.unknownColumn (.int 1))) = _ := Fault.about_of_legible hwritten
    exact congrArg Except.error habout
  refine ⟨htrips hlist, ((misused_iff_trips {} s _ .null).2.1 _).mpr (htrips hlist),
    ((misused_iff_trips {} s _ .null).2.1 _).mpr (htrips hlong), hshaped, hs, ?_⟩
  obtain hconstruction | ⟨m, hm⟩ := (misused_iff_trips {} s _ .null).1 _ hrefused
  · obtain ⟨f, hf⟩ := hconstruction
    rw [hrefused, hf]
    exact ⟨f, rfl⟩
  · rw [hm] at hrefused
    exact absurd hrefused ((misused_iff_trips {} s _ .null).2.2 hshaped hs rfl (fun _ => ⟨_, rfl⟩) m)

theorem isJson_barsOver {column : Value} (h : column.IsJson) : (Value.dict (barsOver column)).IsJson := by
  have hbinding : (Value.dict [(.text "role", .text "x"), (.text "column", column)]).IsJson := by
    refine .dict (by simp) ?_
    simp only [List.forall_mem_cons]
    exact ⟨.text _, h, List.forall_mem_nil _⟩
  refine .dict (by simp [barsOver]) ?_
  simp only [barsOver, List.forall_mem_cons]
  exact ⟨.text _, .list (List.forall_mem_singleton.mpr hbinding), List.forall_mem_nil _⟩

/-- A payload of plain data may be a misuse. -/
theorem not_decoded_or_refused_list : ¬ ∀ (env : Environment) (s : Schema) (payload : Entries) (limit : Value),
    (Value.dict payload).IsJson → (∃ c, decode env s (.dict payload) limit = .ok c) ∨
      ∃ f, decode env s (.dict payload) limit = .error (.construction f) := by
  intro h
  have hdata := isJson_barsOver (.list (List.forall_mem_singleton.mpr (.text "Region")))
  obtain ⟨c, hc⟩ | ⟨f, hf⟩ := h {} .empty _ .null hdata
  · cases hc
  · cases hf

end Chart

end ChartGrammar
