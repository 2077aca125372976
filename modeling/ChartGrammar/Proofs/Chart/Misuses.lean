import ChartGrammar.Proofs.Chart.History
import ChartGrammar.Proofs.Chart.Limit

/-! Operations on a chart that are misused. Values that are wrong are refused by faults of construction, with these
exceptions: lists and dictionaries cannot be looked up as the names of columns, a message cannot show an integer of too
many digits, and a home directory that is not known stands in the way of the settings. For each operation it is said
exactly when it is such a misuse. -/

namespace ChartGrammar

/-- The fault is one in building a schema or a chart. -/
def Fault.OfConstruction (fault : Fault) : Prop :=
  ∃ f, fault = .construction f

/-- An operation fails for faults of construction and is misused, and `trips` tells exactly how it can be misused. -/
structure MisusedBy {α : Type} (outcome : Except Fault α) (trips : Misuse → Prop) : Prop where
  faults : ∀ fault, outcome = .error fault → fault.OfConstruction ∨ ∃ m, fault = .misuse m
  misused : ∀ m, outcome = .error (.misuse m) ↔ trips m

namespace MisusedBy

variable {α β : Type} {outcome : Except Fault α} {trips : Misuse → Prop}

theorem congr {others : Misuse → Prop} (h : MisusedBy outcome trips) (hiff : ∀ m, trips m ↔ others m) :
    MisusedBy outcome others :=
  ⟨h.faults, fun m => (h.misused m).trans (hiff m)⟩

theorem ok (a : α) : MisusedBy (.ok a) fun _ => False :=
  ⟨fun _ h => (by cases h), fun _ => iff_of_false nofun id⟩

theorem construction (f : ConstructionFault) : MisusedBy (.error (.construction f) : Except Fault α) fun _ => False := by
  refine ⟨fun fault h => ?_, fun _ => iff_of_false nofun id⟩
  cases h
  exact .inl ⟨f, rfl⟩

theorem misuse (m : Misuse) : MisusedBy (.error (.misuse m) : Except Fault α) fun other => other = m := by
  refine ⟨fun fault h => ?_, fun other => by rw [Except.error.injEq, Fault.misuse.injEq, eq_comm]⟩
  cases h
  exact .inr ⟨m, rfl⟩

/-- A message that shows a value fails if the value cannot be written. -/
theorem about (v : Value) (f : ConstructionFault) :
    MisusedBy (.error (.about v (.construction f)) : Except Fault α) fun m => m = .tooLong ∧ v.legible = false := by
  cases hlegible : v.legible with
  | true =>
      rw [Fault.about_of_legible hlegible]
      exact (construction f).congr fun _ => iff_of_false id nofun
  | false =>
      rw [Fault.about_of_not_legible hlegible]
      exact (misuse .tooLong).congr fun _ => (and_iff_left rfl).symm

theorem map (h : MisusedBy outcome trips) (f : α → β) : MisusedBy (f <$> outcome) trips := by
  have herror (fault : Fault) : f <$> outcome = .error fault ↔ outcome = .error fault := by
    cases outcome <;> simp [Functor.map, Except.map]
  exact ⟨fun fault hfault => h.faults fault ((herror fault).mp hfault), fun m => (herror _).trans (h.misused m)⟩

theorem bind {next : α → Except Fault β} {further : α → Misuse → Prop} (h : MisusedBy outcome trips)
    (hnext : ∀ a, MisusedBy (next a) (further a)) :
    MisusedBy (outcome >>= next) fun m => trips m ∨ ∃ a, outcome = .ok a ∧ further a m := by
  refine ⟨fun fault hfault => ?_, fun m => ?_⟩
  · obtain hfirst | ⟨a, -, hsecond⟩ := bind_eq_error_iff.mp hfault
    · exact h.faults fault hfirst
    · exact (hnext a).faults fault hsecond
  · rw [bind_eq_error_iff, h.misused m]
    simp only [(hnext _).misused m]

/-- What follows and cannot fail changes nothing. -/
theorem bind_pure (h : MisusedBy outcome trips) (f : α → β) : MisusedBy (outcome >>= fun a => pure (f a)) trips :=
  h.map f

/-- A fold is misused as one of its steps is, after those before it. -/
theorem foldlM {step : α → β → Except Fault α} {each : α → β → Misuse → Prop}
    (hstep : ∀ a b, MisusedBy (step a b) (each a b)) (items : List β) (first : α) :
    MisusedBy (items.foldlM step first) fun m => ∃ before item after middle, items = before ++ item :: after ∧
      before.foldlM step first = .ok middle ∧ each middle item m := by
  refine ⟨fun fault hfault => ?_, fun m => ?_⟩
  · obtain ⟨_, item, _, middle, -, -, hitem⟩ := foldlM_eq_error_iff.mp hfault
    exact (hstep middle item).faults fault hitem
  · simp only [foldlM_eq_error_iff, (hstep _ _).misused m]

end MisusedBy

/-- The number of distinct values of each column of the schema, where it is known, can be written. -/
def Schema.Reportable (s : Schema) : Prop :=
  ∀ column ∈ s.columns, (Value.ofOption (column.cardinality.map Value.ofNumber)).legible = true

namespace Chart

open Settings (Misgiven readLimit readTables)

variable {s : Schema} {c : Chart} {role reference v : Value} {m : Misuse}

/-! ### What the operations trip over -/

/-- A new chart trips over a kind or a limit that is wrong and cannot be written, and over a home directory that is not
known where the environment has to be asked for the limit. -/
inductive StartTrips (env : Environment) (kind limit : Value) : Misuse → Prop where
  | kind (hillegible : kind.legible = false) : StartTrips env kind limit .tooLong
  | limit {k : Kind} (hkind : kind = .text k.name) (hmisgiven : Misgiven readLimit env limit)
      (hillegible : limit.legible = false) : StartTrips env kind limit .tooLong
  | home {k : Kind} (hkind : kind = .text k.name) (hnull : limit = .null) (hgiven : ¬Misgiven readLimit env .null)
      (htables : readTables env = .error .homeless) : StartTrips env kind limit .homeless

/-- A name under which a column is looked up trips if it cannot be a key, or if it cannot be written. -/
inductive NameTrips (name : Value) : Misuse → Prop where
  | unhashable (hkey : name.isKey = false) : NameTrips name .unhashable
  | illegible (hkey : name.isKey = true) (hillegible : name.legible = false) : NameTrips name .tooLong

/-- Where there is no facet yet, it trips over the name of the column, and over a number of distinct values that the
finding would have to show and cannot. -/
inductive FacetTrips (s : Schema) (c : Chart) (reference : Value) : Misuse → Prop where
  | name {m : Misuse} (hfree : c.facet? = none) (hname : NameTrips (Schema.referredName reference) m) :
      FacetTrips s c reference m
  | finding {column : Column} (hfree : c.facet? = none) (hfound : s.resolve reference = .ok column)
      (hreport : c.canReport column = false) : FacetTrips s c reference .tooLong

/-- A constant trips if what it is bound to, or the constant where it does not suit, cannot be written. -/
inductive LiteralTrips (c : Chart) (role v : Value) : Misuse → Prop where
  | role (hillegible : role.legible = false) : LiteralTrips c role v .tooLong
  | value {r : Role} {shape : Shape} (hrole : c.readRole role = .ok r) (hfree : c.source? r = none)
      (hshape : r.literalShape? = some shape) (hmismatch : shape.normalize? v = none) (hillegible : v.legible = false) :
      LiteralTrips c role v .tooLong

/-- A column trips if what it is bound to cannot be written, and if the role is free, over its name. -/
inductive ColumnTrips (s : Schema) (c : Chart) (role v : Value) : Misuse → Prop where
  | role (hillegible : role.legible = false) : ColumnTrips s c role v .tooLong
  | facet {m : Misuse} (hrole : c.readRole role = .ok .facet) (htrips : FacetTrips s c (.column v) m) :
      ColumnTrips s c role v m
  | name {r : Role} {m : Misuse} (hrole : c.readRole role = .ok r) (hfacet : r ≠ .facet) (hfree : c.source? r = none)
      (hname : NameTrips v m) : ColumnTrips s c role v m

/-- A style key trips if it cannot be written, and a value that does not suit its key, if it cannot. -/
inductive StyleTrips (key v : Value) : Misuse → Prop where
  | key (hillegible : key.legible = false) : StyleTrips key v .tooLong
  | value {k : StyleKey} (hkey : key = .text k.name) (hmismatch : k.shape.normalize? v = none)
      (hillegible : v.legible = false) : StyleTrips key v .tooLong

theorem misusedBy_create (env : Environment) (kind limit : Value) :
    MisusedBy (create env kind limit) (StartTrips env kind limit) := by
  unfold create
  split
  · next hnone =>
      refine (MisusedBy.about _ _).congr fun m => ⟨?_, fun h => ?_⟩
      · rintro ⟨rfl, hillegible⟩
        exact .kind hillegible
      · have hother (k : Kind) : kind ≠ .text k.name := by
          intro hkind
          rw [Vocabulary.ofValue?_eq_some_iff.mpr hkind] at hnone
          cases hnone
        cases h with
        | kind hillegible => exact ⟨rfl, hillegible⟩
        | limit hkind | home hkind => exact absurd hkind (hother _)
  · next k hk =>
      obtain rfl := Vocabulary.ofValue?_eq_some_iff.mp hk
      suffices MisusedBy (readFacetLimit env limit) (StartTrips env (.text k.name) limit) from this.bind_pure _
      cases Settings.limitCase env limit with
      | fixed n _ hgiven htables hread =>
          rw [hread]
          refine (MisusedBy.ok n).congr fun m => iff_of_false id fun h => ?_
          cases h with
          | kind hillegible => cases hillegible
          | limit _ hmisgiven _ => exact hgiven hmisgiven
          | home _ hnull _ hhomeless =>
              obtain ⟨tables, hok⟩ := htables hnull
              rw [hhomeless] at hok
              cases hok
      | refused f hmisgiven hlegible _ hread =>
          rw [hread]
          refine (MisusedBy.construction f).congr fun m => iff_of_false id fun h => ?_
          cases h with
          | kind hillegible => cases hillegible
          | limit _ _ hillegible =>
              rw [hlegible] at hillegible
              cases hillegible
          | home _ hnull hgiven _ => exact hgiven (hnull ▸ hmisgiven)
      | illegible hmisgiven hillegible hread =>
          rw [hread]
          refine (MisusedBy.misuse .tooLong).congr fun m => ⟨?_, fun h => ?_⟩
          · rintro rfl
            exact .limit rfl hmisgiven hillegible
          · cases h with
            | kind | limit => rfl
            | home _ hnull hgiven _ => exact absurd (hnull ▸ hmisgiven) hgiven
      | homeless hnull hgiven htables hread =>
          rw [hread]
          refine (MisusedBy.misuse .homeless).congr fun m => ⟨?_, fun h => ?_⟩
          · rintro rfl
            exact .home rfl hnull hgiven htables
          · subst hnull
            cases h with
            | kind hillegible | limit _ _ hillegible => cases hillegible
            | home => rfl

theorem misusedBy_resolve : MisusedBy (s.resolve reference) (NameTrips (Schema.referredName reference)) := by
  unfold Schema.resolve
  dsimp only
  split
  · next hkey =>
      split
      · next name hname =>
          have hnever (m : Misuse) : ¬NameTrips (Schema.referredName reference) m := by
            intro h
            rw [hname] at h
            cases h with
            | unhashable hkey => cases hkey
            | illegible _ hillegible => cases hillegible
          split
          · exact (MisusedBy.ok _).congr fun m => iff_of_false id (hnever m)
          · exact (MisusedBy.construction _).congr fun m => iff_of_false id (hnever m)
      · refine (MisusedBy.about _ _).congr fun m => ⟨?_, fun h => ?_⟩
        · rintro ⟨rfl, hillegible⟩
          exact .illegible hkey hillegible
        · cases h with
          | unhashable hother =>
              rw [hkey] at hother
              cases hother
          | illegible _ hillegible => exact ⟨rfl, hillegible⟩
  · next hkey =>
      rw [Bool.not_eq_true] at hkey
      refine (MisusedBy.misuse .unhashable).congr fun m => ⟨?_, fun h => ?_⟩
      · rintro rfl
        exact .unhashable hkey
      · cases h with
        | unhashable => rfl
        | illegible hother =>
            rw [hkey] at hother
            cases hother

theorem misusedBy_readFacet : MisusedBy (c.readFacet s reference) (FacetTrips s c reference) := by
  unfold readFacet
  split
  · next htaken =>
      refine (MisusedBy.construction _).congr fun m => iff_of_false id fun h => ?_
      cases h with
      | name hfree | finding hfree =>
          rw [hfree] at htaken
          cases htaken
  · next hfree =>
      rw [Bool.not_eq_true, Option.isSome_eq_false_iff, Option.isNone_iff_eq_none] at hfree
      have hreport (column : Column) :
          MisusedBy (if c.canReport column then (pure column : Except Fault Column) else throw (.misuse .tooLong))
            fun m => m = .tooLong ∧ c.canReport column = false := by
        cases c.canReport column with
        | true => exact (MisusedBy.ok column).congr fun _ => iff_of_false id nofun
        | false => exact (MisusedBy.misuse .tooLong).congr fun _ => (and_iff_left rfl).symm
      refine (misusedBy_resolve.bind hreport).congr fun m => ⟨?_, fun h => ?_⟩
      · rintro (hname | ⟨column, hfound, rfl, hreport⟩)
        · exact .name hfree hname
        · exact .finding hfree hfound hreport
      · cases h with
        | name _ hname => exact .inl hname
        | finding _ hfound hreport => exact .inr ⟨_, hfound, rfl, hreport⟩

theorem misusedBy_readRole :
    MisusedBy (c.readRole role) fun m => m = .tooLong ∧ role.legible = false := by
  unfold readRole
  split
  · exact MisusedBy.about _ _
  · next r hr =>
      obtain rfl := Vocabulary.ofValue?_eq_some_iff.mp hr
      split
      · exact (MisusedBy.ok r).congr fun _ => iff_of_false id nofun
      · exact (MisusedBy.construction _).congr fun _ => iff_of_false id nofun

theorem misusedBy_readLiteral {r : Role} : MisusedBy (readLiteral r v) fun m => m = .tooLong ∧ v.legible = false ∧
    ∃ shape, r.literalShape? = some shape ∧ shape.normalize? v = none := by
  unfold readLiteral
  split
  · next hshape => exact (MisusedBy.construction _).congr fun _ => iff_of_false id (by simp [hshape])
  · next shape hshape =>
      split
      · next hmismatch => exact (MisusedBy.about _ _).congr fun _ => by simp [hshape, hmismatch]
      · next u hnormal => exact (MisusedBy.ok _).congr fun _ => iff_of_false id (by simp [hshape, hnormal])

theorem misusedBy_readColumn {r : Role} :
    MisusedBy (c.readColumn s r reference) (NameTrips (Schema.referredName reference)) := by
  have htype (column : Column) : MisusedBy
      (if ((c.kind.columnTypes? r).getD []).contains column.type then (pure (.column column.name) : Except Fault Source)
        else throw (.construction (.typeMismatch r
          (.columnType column.name column.type ((c.kind.columnTypes? r).getD []))))) fun _ => False := by
    split
    · exact .ok _
    · exact .construction _
  exact (misusedBy_resolve.bind htype).congr fun m => or_iff_left (by simp)

theorem misusedBy_bindFree {r : Role} {source : Value} {trips : Misuse → Prop}
    (h : MisusedBy (c.readSource s r source) trips) :
    MisusedBy (c.bindFree s r source) fun m => c.source? r = none ∧ trips m := by
  unfold bindFree
  cases hfree : c.source? r with
  | some bound => exact (MisusedBy.construction _).congr fun _ => iff_of_false id nofun
  | none => exact (h.bind_pure _).congr fun _ => (and_iff_right rfl).symm

theorem misusedBy_bind_literal : MisusedBy (c.bind s role (.literal v)) (LiteralTrips c role v) := by
  have hbind (r : Role) : MisusedBy (if r = .facet then c.bindFacet s (.literal v) else c.bindFree s r (.literal v))
      fun m => r ≠ .facet ∧ c.source? r = none ∧ m = .tooLong ∧ v.legible = false ∧
        ∃ shape, r.literalShape? = some shape ∧ shape.normalize? v = none := by
    split
    · next hfacet => exact (MisusedBy.construction _).congr fun _ => iff_of_false id fun h => h.1 hfacet
    · next hfacet =>
        have hread : MisusedBy (c.readSource s r (.literal v)) _ := misusedBy_readLiteral
        exact (misusedBy_bindFree hread).congr fun _ => (and_iff_right hfacet).symm
  refine (misusedBy_readRole.bind hbind).congr fun m => ⟨?_, fun h => ?_⟩
  · rintro (⟨rfl, hillegible⟩ | ⟨r, hrole, -, hfree, rfl, hillegible, shape, hshape, hmismatch⟩)
    · exact .role hillegible
    · exact .value hrole hfree hshape hmismatch hillegible
  · cases h with
    | role hillegible => exact .inl ⟨rfl, hillegible⟩
    | @value r shape hrole hfree hshape hmismatch hillegible =>
        -- The facet takes no constants.
        have hfacet : r ≠ .facet := by
          rintro rfl
          cases hshape
        exact .inr ⟨r, hrole, hfacet, hfree, rfl, hillegible, shape, hshape, hmismatch⟩

theorem misusedBy_bind_column : MisusedBy (c.bind s role (.column v)) (ColumnTrips s c role v) := by
  have hbind (r : Role) : MisusedBy (if r = .facet then c.bindFacet s (.column v) else c.bindFree s r (.column v))
      fun m => r = .facet ∧ FacetTrips s c (.column v) m ∨ r ≠ .facet ∧ c.source? r = none ∧ NameTrips v m := by
    split
    · next hfacet =>
        have hread : MisusedBy (c.bindFacet s (.column v)) (FacetTrips s c (.column v)) :=
          misusedBy_readFacet.bind_pure _
        exact hread.congr fun _ => by simp [hfacet]
    · next hfacet =>
        have hread : MisusedBy (c.readSource s r (.column v)) (NameTrips v) := misusedBy_readColumn
        exact (misusedBy_bindFree hread).congr fun _ => by simp [hfacet]
  refine (misusedBy_readRole.bind hbind).congr fun m => ⟨?_, fun h => ?_⟩
  · rintro (⟨rfl, hillegible⟩ | ⟨r, hrole, ⟨rfl, htrips⟩ | ⟨hfacet, hfree, hname⟩⟩)
    · exact .role hillegible
    · exact .facet hrole htrips
    · exact .name hrole hfacet hfree hname
  · cases h with
    | role hillegible => exact .inl ⟨rfl, hillegible⟩
    | facet hrole htrips => exact .inr ⟨_, hrole, .inl ⟨rfl, htrips⟩⟩
    | name hrole hfacet hfree hname => exact .inr ⟨_, hrole, .inr ⟨hfacet, hfree, hname⟩⟩

theorem misusedBy_setStyle (c : Chart) (key v : Value) : MisusedBy (c.setStyle key v) (StyleTrips key v) := by
  cases styleCase c key v with
  | unknown hkey hresult =>
      rw [hresult]
      refine (MisusedBy.about _ _).congr fun m => ⟨?_, fun h => ?_⟩
      · rintro ⟨rfl, hillegible⟩
        exact .key hillegible
      · cases h with
        | key hillegible => exact ⟨rfl, hillegible⟩
        | value hother => exact absurd hother (hkey _)
  | cleared hkey hvalue hresult =>
      rw [hresult]
      refine (MisusedBy.ok _).congr fun m => iff_of_false id fun h => ?_
      subst hkey hvalue
      cases h with
      | key hillegible | value _ _ hillegible => cases hillegible
  | invalid hkey hvalue hnormal hresult =>
      rw [hresult]
      refine (MisusedBy.about _ _).congr fun m => ⟨?_, fun h => ?_⟩
      · rintro ⟨rfl, hillegible⟩
        exact .value hkey hnormal hillegible
      · subst hkey
        cases h with
        | key hillegible => cases hillegible
        | value _ _ hillegible => exact ⟨rfl, hillegible⟩
  | @set q u hkey hnormal hresult =>
      rw [hresult]
      refine (MisusedBy.ok _).congr fun m => iff_of_false id fun h => ?_
      subst hkey
      cases h with
      | key hillegible => cases hillegible
      | value hother hmismatch =>
          rw [← Call.text_name_inj.mp hother, hnormal] at hmismatch
          cases hmismatch

/-! ### What does not trip -/

theorem canReport_of_reportable (hs : s.Reportable) (hlimit : (Value.int c.facetLimit).legible = true)
    {column : Column} (hcolumn : column ∈ s.columns) : c.canReport column = true := by
  have hboth : (Value.tuple [Value.ofOption (column.cardinality.map Value.ofNumber), .int c.facetLimit]).legible =
      true := Value.areLegible_iff.mpr (by simpa using ⟨hs column hcolumn, hlimit⟩)
  rw [canReport, hboth, Bool.or_true]

theorem not_nameTrips {name : Value} (hkey : name.isKey = true) (hlegible : name.legible = true) :
    ¬NameTrips name m := by
  intro h
  cases h with
  | unhashable hother =>
      rw [hkey] at hother
      cases hother
  | illegible _ hillegible =>
      rw [hlegible] at hillegible
      cases hillegible

theorem not_facetTrips (hs : s.Reportable) (hlimit : (Value.int c.facetLimit).legible = true)
    (hkey : (Schema.referredName reference).isKey = true) (hlegible : (Schema.referredName reference).legible = true) :
    ¬FacetTrips s c reference m := by
  intro h
  cases h with
  | name _ hname => exact not_nameTrips hkey hlegible hname
  | finding _ hfound hreport =>
      rw [canReport_of_reportable hs hlimit (Schema.mem_of_find? (Schema.resolve_eq_ok_iff.mp hfound).2).1] at hreport
      cases hreport

theorem not_literalTrips (hrole : role.legible = true) (hlegible : v.legible = true) : ¬LiteralTrips c role v m := by
  intro h
  cases h with
  | role hillegible =>
      rw [hrole] at hillegible
      cases hillegible
  | value _ _ _ _ hillegible =>
      rw [hlegible] at hillegible
      cases hillegible

theorem not_columnTrips (hs : s.Reportable) (hlimit : (Value.int c.facetLimit).legible = true)
    (hrole : role.legible = true) (hkey : v.isKey = true) (hlegible : v.legible = true) :
    ¬ColumnTrips s c role v m := by
  intro h
  cases h with
  | role hillegible =>
      rw [hrole] at hillegible
      cases hillegible
  | facet _ htrips =>
      have hnot : ¬FacetTrips s c (.column v) m := not_facetTrips hs hlimit hkey hlegible
      exact hnot htrips
  | name _ _ _ hname => exact not_nameTrips hkey hlegible hname

end Chart

end ChartGrammar
