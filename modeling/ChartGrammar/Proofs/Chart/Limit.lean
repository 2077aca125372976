import ChartGrammar.Chart.Basic

/-! The limit of a chart. It is given, or set by the environment, or the default; and it is misgiven if it is no integer
from one on, in the one place or in the other. What is misgiven is a fault of construction as long as the message can
show it. Reading the environment for a limit reads all settings, so a home directory that is not known fails as well. -/

namespace ChartGrammar

namespace Settings

/-- The limit that a text of the environment sets. Blanks around it are dropped first. -/
def readLimit (text : String) : Option Int :=
  Text.integer? (Text.strip text)

/-- A limit is fixed: the one that is given, or that of the environment if there is none, or else the default. -/
inductive FixesLimit (env : Environment) : Value → Int → Prop where
  | given {n : Int} (hpos : 1 ≤ n) : FixesLimit env (.int n) n
  | set {text : String} {n : Int} (hset : env.get? limitVariable = some text) (hread : readLimit text = some n)
      (hpos : 1 ≤ n) : FixesLimit env .null n
  | default (hunset : env.get? limitVariable = none) : FixesLimit env .null defaultFacetLimit

/-- No limit is fixed: something is given that is no integer from one on, or nothing is given and the text of the
environment is not read as one. -/
inductive Misgiven (read : String → Option Int) (env : Environment) : Value → Prop where
  | given {v : Value} (hnull : v ≠ .null) (hbelow : ∀ n, v = .int n → n < 1) : Misgiven read env v
  | set {text : String} (hset : env.get? limitVariable = some text) (hbelow : ∀ n, read text = some n → n < 1) :
      Misgiven read env .null

variable {env : Environment} {limit : Value}

/-- No limit below one is fixed. -/
theorem FixesLimit.one_le {n : Int} (h : FixesLimit env limit n) : 1 ≤ n := by
  cases h with
  | given hpos | set _ _ hpos => exact hpos
  | default => decide

theorem misgiven_null_iff {read : String → Option Int} : Misgiven read env .null ↔
    ∃ text, env.get? limitVariable = some text ∧ ∀ n, read text = some n → n < 1 := by
  constructor
  · intro h
    cases h with
    | given hnull => exact absurd rfl hnull
    | set hset hbelow => exact ⟨_, hset, hbelow⟩
  · exact fun ⟨_, hset, hbelow⟩ => .set hset hbelow

/-- A text of the environment is read, and then it is checked. -/
theorem readFacetLimit_of_set {text : String} (h : env.get? limitVariable = some text) :
    readFacetLimit env = match readLimit text with
      | none => .error (.notInteger limitVariable text)
      | some n => if n < 1 then .error (.belowOne limitVariable n) else .ok n := by
  cases hread : Text.integer? (Text.strip text) <;> simp only [readFacetLimit, readLimit, h, hread]

/-- The place of the tables cannot be read only where a home directory is not known. -/
theorem homeless_of_readTables {m : Misuse} (h : readTables env = .error m) : m = .homeless := by
  have hhome {home : String} {m : Misuse} (h : homePath home = .error m) : m = .homeless := by
    unfold homePath at h
    dsimp only at h
    split at h <;> cases h
    rfl
  have hexpand {path : String} {m : Misuse} (h : expandHome env path = .error m) : m = .homeless := by
    unfold expandHome at h
    split at h
    · split at h
      · split at h
        · next home _ =>
            cases hpath : homePath home with
            | error m' =>
                rw [hpath] at h
                cases h
                exact hhome hpath
            | ok path =>
                rw [hpath] at h
                cases h
        · cases h
          rfl
      · cases h
    · cases h
  unfold readTables at h
  split at h
  · cases h
  · split at h
    · cases h
    · next text _ _ =>
        cases hpath : expandHome env (normalizePath (Text.strip text)) with
        | error m' =>
            rw [hpath] at h
            cases h
            exact hexpand hpath
        | ok path =>
            rw [hpath] at h
            cases h

/-- What comes of the limit of a chart. -/
inductive LimitCase (env : Environment) (limit : Value) : Prop
  | fixed (n : Int) (hfixes : FixesLimit env limit n) (hgiven : ¬Misgiven readLimit env limit)
      (htables : limit = .null → ∃ tables, readTables env = .ok tables)
      (hread : Chart.readFacetLimit env limit = .ok n)
  | refused (fault : ConstructionFault) (hmisgiven : Misgiven readLimit env limit) (hlegible : limit.legible = true)
      (hfault : fault = .facetLimitNotPositive limit ∨ ∃ f, fault = .settings f)
      (hread : Chart.readFacetLimit env limit = .error (.construction fault))
  | illegible (hmisgiven : Misgiven readLimit env limit) (hillegible : limit.legible = false)
      (hread : Chart.readFacetLimit env limit = .error (.misuse .tooLong))
  | homeless (hnull : limit = .null) (hgiven : ¬Misgiven readLimit env .null)
      (htables : readTables env = .error .homeless)
      (hread : Chart.readFacetLimit env limit = .error (.misuse .homeless))

/-- Where no limit is given, one that the environment fixes is taken if the other settings can be read. -/
theorem limitCase_of_readFacetLimit {n : Int} (hfixes : FixesLimit env .null n)
    (hgiven : ¬Misgiven readLimit env .null) (hlimit : readFacetLimit env = .ok n) : LimitCase env .null := by
  have hread : Chart.readFacetLimit env .null = Settings.facetLimit <$> (do
      return { facetLimit := n, tables := ← Fault.ofMisuse (readTables env) }) := by
    rw [Chart.readFacetLimit, read, hlimit]
    cases readTables env <;> rfl
  cases htables : readTables env with
  | ok tables =>
      rw [htables] at hread
      exact .fixed n hfixes hgiven (fun _ => ⟨tables, htables⟩) hread
  | error m =>
      obtain rfl := homeless_of_readTables htables
      rw [htables] at hread
      exact .homeless rfl hgiven htables hread

/-- Where no limit is given, the environment decides. -/
theorem limitCase_null (env : Environment) : LimitCase env .null := by
  have hrefused {fault : SettingsFault} (h : readFacetLimit env = .error fault) :
      Chart.readFacetLimit env .null = .error (.construction (.settings fault)) := by
    rw [Chart.readFacetLimit, read, h]
  cases hset : env.get? limitVariable with
  | none =>
      refine limitCase_of_readFacetLimit (.default hset) ?_ (by rw [readFacetLimit, hset])
      rw [misgiven_null_iff, hset]
      exact fun ⟨_, hsome, _⟩ => nomatch hsome
  | some text =>
      have hread := readFacetLimit_of_set hset
      have hmisgiven : Misgiven readLimit env .null ↔ ∀ n, readLimit text = some n → n < 1 := by
        rw [misgiven_null_iff, hset]
        refine ⟨fun ⟨other, hsame, hall⟩ => ?_, fun hall => ⟨text, rfl, hall⟩⟩
        rw [Option.some.inj hsame]
        exact hall
      cases hlimit : readLimit text with
      | none =>
          rw [hlimit] at hread hmisgiven
          exact .refused _ (hmisgiven.mpr nofun) rfl (.inr ⟨_, rfl⟩) (hrefused hread)
      | some n =>
          rw [hlimit] at hread hmisgiven
          by_cases hbelow : n < 1
          · refine .refused _ (hmisgiven.mpr ?_) rfl (.inr ⟨_, rfl⟩) (hrefused (hread.trans (if_pos hbelow)))
            intro m hm
            cases hm
            exact hbelow
          · refine limitCase_of_readFacetLimit (.set hset hlimit (Int.not_lt.mp hbelow)) ?_
              (hread.trans (if_neg hbelow))
            exact fun h => hbelow (hmisgiven.mp h n rfl)

/-- A limit that is given and misgiven is refused, unless the message cannot show it. -/
theorem limitCase_of_misgiven (hmisgiven : Misgiven readLimit env limit)
    (hread : Chart.readFacetLimit env limit = .error (.about limit (.construction (.facetLimitNotPositive limit)))) :
    LimitCase env limit := by
  cases hlegible : limit.legible with
  | true => exact .refused _ hmisgiven hlegible (.inl rfl) (by rw [hread, Fault.about, if_pos hlegible])
  | false => exact .illegible hmisgiven hlegible (by rw [hread, Fault.about, hlegible]; rfl)

theorem limitCase (env : Environment) (limit : Value) : LimitCase env limit := by
  cases limit with
  | null => exact limitCase_null env
  | int n =>
      have hread : Chart.readFacetLimit env (.int n) =
        if n < 1 then .error (.about (.int n) (.construction (.facetLimitNotPositive (.int n)))) else .ok n := rfl
      by_cases hbelow : n < 1
      · rw [if_pos hbelow] at hread
        refine limitCase_of_misgiven (.given nofun ?_) hread
        intro m hm
        cases hm
        exact hbelow
      · rw [if_neg hbelow] at hread
        refine .fixed n (.given (Int.not_lt.mp hbelow)) ?_ nofun hread
        intro hmisgiven
        cases hmisgiven with
        | given _ hall => exact hbelow (hall n rfl)
  | _ => exact limitCase_of_misgiven (.given nofun nofun) rfl

end Settings

end ChartGrammar
