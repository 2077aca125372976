import ChartGrammar.Proofs.Chart.Soundness
import ChartGrammar.Rendering.Basic
import ChartGrammar.Snapshot

/-! A chart survives its payload. Decoding replays every binding, the facet and every style value through the
checks of the calls; since a sound chart holds nothing but normal forms, and the plain form of a normal form
has that normal form, each replayed call is accepted and sets what stood in the chart. -/

namespace ChartGrammar.Chart

open Vocabulary (all)

variable {s : Schema} {c : Chart}

/-! ### One call replayed -/

theorem readRole_name {r : Role} (h : (c.kind.columnTypes? r).isSome = true) :
    c.readRole (.text r.name) = .ok r :=
  readRole_eq_ok_iff.mpr ⟨rfl, h⟩

/-- A free role can be bound to anything that fits. -/
theorem bind_source {r : Role} {source : Source} {reference : Value} (hrole : r ∈ c.kind.roles)
    (hfacet : r ≠ .facet) (hfree : c.source? r = none) (hread : c.readSource s r reference = .ok source) :
    c.bind s (.text r.name) reference = .ok (c.withSource r source, ⟨r, source⟩) := by
  have hnamed := readRole_name (mem_roles_iff.mp hrole)
  simp only [bind, hnamed, bindFree, if_neg hfacet, hfree, hread, Option.isSome_none, Bool.false_eq_true,
    ↓reduceIte, Bind.bind, Except.bind, pure, Except.pure]

/-- Decoding the entry of a binding that fits binds the role to the very source. -/
theorem decodeBinding_encodeBinding {r : Role} {source : Source} (hrole : r ∈ c.kind.roles)
    (hfacet : r ≠ .facet) (hfree : c.source? r = none) (hfits : Fits s c.kind r source) :
    decodeBinding s c (encodeBinding ⟨r, source⟩) = .ok (c.withSource r source) := by
  cases hfits with
  | @column name column types hresolve htypes htype =>
      have hread : c.readSource s r (.column (.text name)) = .ok (.column name) := by
        refine readColumn_eq_ok_iff.mpr ⟨column, hresolve, ?_, ?_⟩
        · rw [htypes]
          exact htype
        · rw [((resolve_iff rfl).mp hresolve).1]
      have hbind := bind_source hrole hfacet hfree hread
      show Except.bind (c.bind s (.text r.name) (.column (.text name))) _ = _
      rw [hbind]
      rfl
  | @literal v _ hnormal =>
      have hread : c.readSource s r (.literal v.plain) = .ok (.literal v) := by
        obtain ⟨shape, u, hshape, hu, heq⟩ := readLiteral_eq_ok_iff.mp hnormal
        cases heq
        exact readLiteral_eq_ok_iff.mpr ⟨shape, v, hshape, Shape.normalize?_plain hu, rfl⟩
      have hbind := bind_source hrole hfacet hfree hread
      show Except.bind (c.bind s (.text r.name) (.literal v.plain)) _ = _
      rw [hbind]
      rfl

/-- A style key that is set to the plain form of a normal form gets the normal form. -/
theorem setStyle_plain {k : StyleKey} {v : Value} (h : normalizeStyle k v = .ok v) :
    c.setStyle (.text k.name) v.plain = .ok (c.withStyle k v) := by
  have hplain := Shape.normalize?_plain (normalizeStyle_eq_ok_iff.mp h)
  have hnormal : normalizeStyle k v.plain = .ok v := normalizeStyle_eq_ok_iff.mpr hplain
  refine bind_eq_ok_iff.mpr ⟨k, readStyleKey_eq_ok_iff.mpr rfl, ?_⟩
  split
  · -- The unset mark has no normal form, so it is not what is being set.
    next hunset =>
      rw [hunset, Shape.normalize?_unset] at hplain
      cases hplain
  · rw [hnormal]
    rfl

/-! ### All calls replayed -/

/-- A chart with some of its bindings and nothing else. -/
def onlyRoles (c : Chart) (roles : List Role) : Chart where
  kind := c.kind
  facetLimit := c.facetLimit
  source? r := if r ∈ roles then c.source? r else none

/-- A chart with all its bindings and some of its style values. -/
def onlyKeys (c : Chart) (keys : List StyleKey) : Chart :=
  { c with style? := fun k => if k ∈ keys then c.style? k else none }

theorem onlyRoles_of_unbound {roles : List Role} {r : Role} (h : c.source? r = none) :
    c.onlyRoles (roles ++ [r]) = c.onlyRoles roles := by
  unfold onlyRoles
  congr 1
  funext q
  by_cases hq : q = r
  · rw [hq, h, ite_self, ite_self]
  · simp [hq]

theorem withSource_onlyRoles {roles : List Role} {r : Role} {source : Source} (h : c.source? r = some source) :
    (c.onlyRoles roles).withSource r source = c.onlyRoles (roles ++ [r]) := by
  unfold onlyRoles withSource
  congr 1
  funext q
  by_cases hq : q = r
  · simp [hq, h]
  · simp [hq]

theorem onlyKeys_of_unset {keys : List StyleKey} {k : StyleKey} (h : c.style? k = none) :
    c.onlyKeys (keys ++ [k]) = c.onlyKeys keys := by
  unfold onlyKeys
  congr 1
  funext q
  by_cases hq : q = k
  · rw [hq, h, ite_self, ite_self]
  · simp [hq]

/-- The key that gives way to one that is set is not set itself. -/
theorem Sound.none_of_exclusive? (h : Sound s c) {k other : StyleKey} {v : Value} (hset : c.style? k = some v)
    (hother : k.exclusive? = some other) : c.style? other = none := by
  have hpair := h.exclusive
  cases k <;> cases hother <;> rw [hset] at hpair <;> simpa using hpair

theorem withStyle_onlyKeys (h : Sound s c) {keys : List StyleKey} {k : StyleKey} {v : Value}
    (hset : c.style? k = some v) : (c.onlyKeys keys).withStyle k v = c.onlyKeys (keys ++ [k]) := by
  unfold onlyKeys withStyle
  congr 1
  funext q
  by_cases hq : q = k
  · simp [hq, hset]
  by_cases hother : k.exclusive? = some q
  · simp [hq, hother, h.none_of_exclusive? hset hother]
  · simp [hq, hother]

/-- Decoding the bindings of some roles puts them beside those that are there. -/
theorem foldlM_decodeBinding (h : Sound s c) {done rest : List Role} (hdistinct : (done ++ rest).Nodup) :
    ((rest.filterMap fun r => (c.source? r).map fun source => ⟨r, source⟩).map encodeBinding).foldlM
      (decodeBinding s) (c.onlyRoles done) = .ok (c.onlyRoles (done ++ rest)) := by
  induction rest generalizing done with
  | nil =>
      rw [List.append_nil]
      rfl
  | cons r rest ih =>
      rw [List.append_cons] at hdistinct ⊢
      rw [List.filterMap_cons]
      cases hbound : c.source? r with
      | none =>
          rw [Option.map_none, ← onlyRoles_of_unbound hbound]
          exact ih hdistinct
      | some source =>
          obtain ⟨hrole, hfacet, hfits⟩ := h.source r source hbound
          -- The roles are distinct, so this one has not been bound by the entries before.
          have hnew : r ∉ done := by
            have hfirst := (List.nodup_append.mp hdistinct).1
            exact fun hr => (List.nodup_append.mp hfirst).2.2 r hr r List.mem_cons_self rfl
          have hfree : (c.onlyRoles done).source? r = none := if_neg hnew
          have hstep : decodeBinding s (c.onlyRoles done) (encodeBinding ⟨r, source⟩) =
              .ok (c.onlyRoles (done ++ [r])) := by
            rw [decodeBinding_encodeBinding (c := c.onlyRoles done) hrole hfacet hfree hfits,
              withSource_onlyRoles hbound]
          rw [Option.map_some, List.map_cons, List.foldlM_cons, hstep]
          exact ih hdistinct

/-- Setting some style keys to the plain forms of their values puts the values beside those that are there. -/
theorem foldlM_setStyle (h : Sound s c) (done rest : List StyleKey) :
    ((rest.filterMap fun k => (c.style? k).map fun v => (k, v)).map fun e =>
      (Value.text e.1.name, e.2.plain)).foldlM (fun d e => d.setStyle e.1 e.2) (c.onlyKeys done) =
        .ok (c.onlyKeys (done ++ rest)) := by
  induction rest generalizing done with
  | nil =>
      rw [List.append_nil]
      rfl
  | cons k rest ih =>
      rw [List.append_cons, List.filterMap_cons]
      cases hset : c.style? k with
      | none =>
          rw [Option.map_none, ← onlyKeys_of_unset hset]
          exact ih (done ++ [k])
      | some v =>
          have hstep : (c.onlyKeys done).setStyle (.text k.name) v.plain = .ok (c.onlyKeys (done ++ [k])) := by
            rw [setStyle_plain (h.style k v hset), withStyle_onlyKeys h hset]
          rw [Option.map_some, List.map_cons, List.foldlM_cons, hstep]
          exact ih (done ++ [k])

theorem onlyKeys_all (c : Chart) : c.onlyKeys all = c := by
  have hstyle : (fun k => if k ∈ (all : List StyleKey) then c.style? k else none) = c.style? := by
    funext k
    rw [if_pos (Vocabulary.mem_all k)]
  unfold onlyKeys
  rw [hstyle]

/-- A chart created anew has the kind and the limit, and nothing is bound. -/
theorem create_name (env : Environment) (h : 1 ≤ c.facetLimit) :
    create env (.text c.kind.name) (.int c.facetLimit) = .ok (c.onlyRoles []) := by
  have hkind : Vocabulary.ofValue? (.text c.kind.name) = some c.kind := Vocabulary.ofValue?_eq_some_iff.mpr rfl
  have hlimit : readFacetLimit env (.int c.facetLimit) = .ok c.facetLimit := if_neg (by omega)
  unfold create
  rw [hkind]
  exact bind_eq_ok_iff.mpr ⟨c.facetLimit, hlimit, rfl⟩

/-- A name that is not blank counts as true. -/
theorem text_truthy {name : String} (h : Text.blank name = false) : (Value.text name).truthy = true := by
  by_cases hempty : name = ""
  · rw [hempty] at h
    cases h
  · simpa [Value.truthy] using hempty

/-- With all its bindings a chart lacks the facet, the findings and the style values. -/
theorem onlyRoles_all (c : Chart) :
    { c.onlyRoles all with facet? := c.facet?, diagnostics := c.diagnostics } = c.onlyKeys [] := by
  have hsource : (fun r => if r ∈ (all : List Role) then c.source? r else none) = c.source? := by
    funext r
    exact if_pos (Vocabulary.mem_all r)
  unfold onlyRoles
  rw [hsource]
  rfl

/-- Decoding the facet chooses it again, with the finding about it. -/
theorem decodeFacet_ofOption (hsound : Sound s c) (hsettled : Desk.Settled ⟨s, c⟩) :
    decodeFacet s (c.onlyRoles all) (.ofOption (c.facet?.map .text)) = .ok (c.onlyKeys []) := by
  have hfindings := hsettled.findings
  have hreported := hsettled.reported
  dsimp only at hfindings hreported
  rw [← onlyRoles_all]
  cases hset : c.facet? with
  | none =>
      rw [hset] at hfindings
      rw [hfindings]
      rfl
  | some name =>
      obtain ⟨⟨column, hresolve⟩, -⟩ := hsound.facet name hset
      obtain ⟨rfl, hfound⟩ := (resolve_iff rfl).mp hresolve
      have hvisible := hsettled.visible column (Schema.mem_of_find? hfound).1
      have hread : (c.onlyRoles all).readFacet s (.text column.name) = .ok column :=
        readFacet_eq_ok_iff.mpr ⟨rfl, hresolve, hreported column (by rw [hset]; exact hfound)⟩
      rw [hset, Option.bind_some, hfound, Option.bind_some] at hfindings
      calc decodeFacet s (c.onlyRoles all) (.text column.name)
          = (c.onlyRoles all).setFacet s (.text column.name) := if_pos (text_truthy hvisible)
        _ = .ok ((c.onlyRoles all).withFacet column) := by
            rw [setFacet, hread]
            rfl
        _ = .ok { c.onlyRoles all with facet? := some column.name, diagnostics := c.diagnostics } := by
            rw [hfindings]
            rfl

/-- Decoding its payload gives a sound chart back, whatever the environment says. -/
theorem decode_encode (hsound : Sound s c) (hsettled : Desk.Settled ⟨s, c⟩) (env : Environment) :
    decode env s c.encode (.int c.facetLimit) = .ok c := by
  have hbindings : (c.bindings.map encodeBinding).foldlM (decodeBinding s) (c.onlyRoles []) =
      .ok (c.onlyRoles all) := foldlM_decodeBinding hsound (by decide)
  have hstyles : (c.styles.map fun e => (Value.text e.1.name, e.2.plain)).foldlM
      (fun d e => d.setStyle e.1 e.2) (c.onlyKeys []) = .ok (c.onlyKeys all) := foldlM_setStyle hsound [] all
  rw [onlyKeys_all] at hstyles
  refine bind_eq_ok_iff.mpr ⟨_, rfl, ?_⟩
  refine bind_eq_ok_iff.mpr ⟨c.onlyRoles [], create_name env hsettled.limit, ?_⟩
  refine bind_eq_ok_iff.mpr ⟨_, Value.optionalElements_list _, ?_⟩
  refine bind_eq_ok_iff.mpr ⟨c.onlyRoles all, hbindings, ?_⟩
  refine bind_eq_ok_iff.mpr ⟨c.onlyKeys [], decodeFacet_ofOption hsound hsettled, ?_⟩
  exact bind_eq_ok_iff.mpr ⟨_, Value.optionalEntries_dict _, hstyles⟩

end ChartGrammar.Chart

namespace ChartGrammar.Desk

theorem Change.facetLimit_eq {k next : Desk} (h : Change k next) : next.chart.facetLimit = k.chart.facetLimit := by
  cases h <;> rfl

theorem facetLimit_run (k : Desk) (calls : List Call) : (k.run calls).chart.facetLimit = k.chart.facetLimit :=
  keeps_run (fun next => next.chart.facetLimit = k.chart.facetLimit)
    (fun _ _ hkept hchange => hchange.facetLimit_eq.trans hkept) rfl calls

end ChartGrammar.Desk
