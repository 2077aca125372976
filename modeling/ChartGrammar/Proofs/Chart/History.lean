import ChartGrammar.Proofs.Chart.Sketches
import ChartGrammar.Proofs.Style.NormalForm
import Mathlib.Data.List.Induction

/-! Style keys by what was called. What is set in the end is read off the calls alone: it is what the last call set that
set the key, unless a later call cleared the key or set the one that excludes it. Calls that are refused, and calls of
other sorts, may stand anywhere among them. -/

namespace ChartGrammar

theorem StyleKey.exclusive?_symm {k l : StyleKey} (h : k.exclusive? = some l) : l.exclusive? = some k := by
  cases k <;> cases h <;> rfl

theorem Work.Mirrors.exists_ok_iff {σ α ρ : Type} {R : ρ → α → σ → Prop} {s : σ} {outcome : Except Fault ρ}
    {result : EStateM.Result Fault σ α} (h : Mirrors R s outcome result) :
    (∃ a t, result = .ok a t) ↔ ∃ r, outcome = .ok r := by
  cases h with
  | ok => exact iff_of_true ⟨_, _, rfl⟩ ⟨_, rfl⟩
  | error fault => exact iff_of_false (fun ⟨_, _, h⟩ => nomatch h) fun ⟨_, h⟩ => nomatch h

namespace Call

/-- The call sets the style key, to the normal form of the value that it is given. -/
def Sets (k : StyleKey) (u : Value) (c : Call) : Prop :=
  ∃ v, c = .setStyle (.text k.name) v ∧ k.shape.normalize? v = some u

/-- The call clears the style key, by name or with the unset mark. -/
def Clears (k : StyleKey) (c : Call) : Prop :=
  c = .clearStyle (.text k.name) ∨ c = .setStyle (.text k.name) .unset

/-- The call sets the key that excludes the style key. -/
def Excludes (k : StyleKey) (c : Call) : Prop :=
  ∃ other u, k.exclusive? = some other ∧ c.Sets other u

/-- The call decides on the style key. -/
def Decides (k : StyleKey) (c : Call) : Prop :=
  (∃ u, c.Sets k u) ∨ c.Clears k ∨ c.Excludes k

/-- One of some calls set the style key to the value, and no later one decided on it. -/
def Survives (calls : List Call) (k : StyleKey) (u : Value) : Prop :=
  ∃ before c after, calls = before ++ c :: after ∧ c.Sets k u ∧ ∀ later ∈ after, ¬later.Decides k

variable {k q : StyleKey} {u v : Value}

/-! ### What a single call decides -/

theorem text_name_inj : Value.text q.name = .text k.name ↔ q = k := by
  rw [Value.text.injEq]
  exact ⟨fun h => Vocabulary.name_injective h, congrArg StyleKey.name⟩

theorem sets_setStyle_iff : Sets k u (.setStyle (.text q.name) v) ↔ q = k ∧ q.shape.normalize? v = some u := by
  simp only [Sets, setStyle.injEq, text_name_inj]
  constructor
  · rintro ⟨v, ⟨rfl, rfl⟩, hnormal⟩
    exact ⟨rfl, hnormal⟩
  · rintro ⟨rfl, hnormal⟩
    exact ⟨v, ⟨rfl, rfl⟩, hnormal⟩

theorem clears_setStyle_iff : Clears k (.setStyle (.text q.name) v) ↔ q = k ∧ v = .unset := by
  simp only [Clears, reduceCtorEq, false_or, setStyle.injEq, text_name_inj]

theorem Sets.unique {c : Call} (hu : c.Sets k u) (hv : c.Sets k v) : u = v := by
  obtain ⟨given, rfl, hnormal⟩ := hu
  rw [(sets_setStyle_iff.mp hv).2, Option.some.injEq] at hnormal
  exact hnormal.symm

/-- A call that clears a key, or sets the one that excludes it, does not set the key as well. -/
theorem Sets.not_ends {c : Call} (h : c.Sets k u) : ¬(c.Clears k ∨ c.Excludes k) := by
  obtain ⟨given, rfl, hnormal⟩ := h
  rintro (hclears | ⟨other, v, hexclusive, hother⟩)
  · obtain ⟨-, rfl⟩ := clears_setStyle_iff.mp hclears
    rw [Shape.normalize?_unset] at hnormal
    cases hnormal
  · obtain ⟨rfl, -⟩ := sets_setStyle_iff.mp hother
    cases k <;> cases hexclusive

theorem exists_key_of_decides {c : Call} (h : c.Decides k) :
    ∃ q : StyleKey, (∃ v, c = .setStyle (.text q.name) v) ∨ c = .clearStyle (.text q.name) := by
  rcases h with ⟨u, v, rfl, -⟩ | (rfl | rfl) | ⟨other, u, -, v, rfl, -⟩
  · exact ⟨k, .inl ⟨v, rfl⟩⟩
  · exact ⟨k, .inr rfl⟩
  · exact ⟨k, .inl ⟨.unset, rfl⟩⟩
  · exact ⟨other, .inl ⟨v, rfl⟩⟩

theorem not_sets_unset {key : Value} : ¬Sets k u (.setStyle key .unset) := by
  rintro ⟨v, hcall, hnormal⟩
  obtain ⟨-, rfl⟩ := setStyle.inj hcall
  rw [Shape.normalize?_unset] at hnormal
  cases hnormal

theorem decides_unset_iff {key : Value} : Decides k (.setStyle key .unset) ↔ key = .text k.name := by
  constructor
  · rintro (⟨u, hsets⟩ | hclears | ⟨other, u, -, hsets⟩)
    · exact absurd hsets not_sets_unset
    · rcases hclears with hcall | hcall
      · cases hcall
      · exact (setStyle.inj hcall).1
    · exact absurd hsets not_sets_unset
  · rintro rfl
    exact .inr (.inl (.inr rfl))

theorem decides_clearStyle_iff {key : Value} : Decides k (.clearStyle key) ↔ key = .text k.name := by
  constructor
  · rintro (⟨u, v, hcall, -⟩ | hclears | ⟨other, u, -, v, hcall, -⟩)
    · cases hcall
    · rcases hclears with hcall | hcall
      · exact clearStyle.inj hcall
      · cases hcall
    · cases hcall
  · rintro rfl
    exact .inr (.inl (.inl rfl))

/-- A value that the key does not take decides on nothing, unless it is the unset mark. -/
theorem not_decides_of_refused (hvalue : v ≠ .unset) (hnormal : q.shape.normalize? v = none) :
    ¬Decides k (.setStyle (.text q.name) v) := by
  rintro (⟨u, hset⟩ | hclears | ⟨other, u, -, hset⟩)
  · rw [sets_setStyle_iff, hnormal] at hset
    cases hset.2
  · exact hvalue (clears_setStyle_iff.mp hclears).2
  · rw [sets_setStyle_iff, hnormal] at hset
    cases hset.2

/-- A key is decided on by the calls on itself and on the key that it excludes, and by no others. -/
theorem not_decides_of_other (hother : q ≠ k) (hexclusive : q.exclusive? ≠ some k) :
    ¬Decides k (.setStyle (.text q.name) v) := by
  rintro (⟨u, hset⟩ | hclears | ⟨other, u, hmutual, hset⟩)
  · exact hother (sets_setStyle_iff.mp hset).1
  · exact hother (clears_setStyle_iff.mp hclears).1
  · obtain ⟨rfl, -⟩ := sets_setStyle_iff.mp hset
    exact hexclusive (StyleKey.exclusive?_symm hmutual)

end Call

namespace Chart

/-- The ways in which a chart deals with a value that is offered for a style key. -/
inductive StyleCase (c : Chart) (key v : Value) : Prop
  | unknown (hkey : ∀ q : StyleKey, key ≠ .text q.name)
      (hresult : c.setStyle key v = .error (.about key (.construction (.unknownStyleKey key.display))))
  | cleared {q : StyleKey} (hkey : key = .text q.name) (hvalue : v = .unset)
      (hresult : c.setStyle key v = .ok (c.withoutStyle q))
  | invalid {q : StyleKey} (hkey : key = .text q.name) (hvalue : v ≠ .unset) (hnormal : q.shape.normalize? v = none)
      (hresult : c.setStyle key v = .error (.about v (.construction (.invalidStyleValue q v))))
  | set {q : StyleKey} {u : Value} (hkey : key = .text q.name) (hnormal : q.shape.normalize? v = some u)
      (hresult : c.setStyle key v = .ok (c.withStyle q u))

theorem setStyle_of_ne_unset {q : StyleKey} {v : Value} (hvalue : v ≠ .unset) (c : Chart) :
    c.setStyle (.text q.name) v = normalizeStyle q v >>= fun u => pure (c.withStyle q u) := by
  rw [setStyle, readStyleKey_eq_ok_iff.mpr rfl]
  cases v with
  | unset => exact absurd rfl hvalue
  | _ => rfl

theorem styleCase (c : Chart) (key v : Value) : StyleCase c key v := by
  by_cases hkey : ∃ q : StyleKey, key = .text q.name
  · obtain ⟨q, rfl⟩ := hkey
    by_cases hvalue : v = .unset
    · subst hvalue
      refine .cleared rfl rfl ?_
      rw [setStyle, readStyleKey_eq_ok_iff.mpr rfl]
      rfl
    · have hread := setStyle_of_ne_unset hvalue c (q := q)
      cases hnormal : q.shape.normalize? v with
      | none =>
          rw [normalizeStyle, hnormal] at hread
          exact .invalid rfl hvalue hnormal hread
      | some u =>
          rw [normalizeStyle_eq_ok_iff.mpr hnormal] at hread
          exact .set rfl hnormal hread
  · have hnone : (Vocabulary.ofValue? key : Option StyleKey) = none := by
      rw [Option.eq_none_iff_forall_ne_some]
      exact fun q hq => hkey ⟨q, Vocabulary.ofValue?_eq_some_iff.mp hq⟩
    refine .unknown (not_exists.mp hkey) ?_
    rw [setStyle, readStyleKey, hnone]
    rfl

theorem style?_of_bind {c next : Chart} {s : Schema} {role source : Value} {b : Binding}
    (h : c.bind s role source = .ok (next, b)) : next.style? = c.style? := by
  unfold bind at h
  obtain ⟨r, -, h⟩ := bind_eq_ok_iff.mp h
  have hfacet {reference : Value} (h : (do
      let column ← c.readFacet s reference
      return (c.withFacet column, Binding.mk .facet (.column column.name))) = .ok (next, b)) :
      next.style? = c.style? := by
    obtain ⟨column, -, h⟩ := bind_eq_ok_iff.mp h
    cases h
    rfl
  split at h
  · unfold bindFacet at h
    split at h
    · exact hfacet h
    · exact hfacet h
    · cases h
  · unfold bindFree at h
    split at h
    · cases h
    · obtain ⟨bound, -, h⟩ := bind_eq_ok_iff.mp h
      cases h
      rfl

theorem exists_setStyle_iff {c : Chart} {key v : Value} : (∃ next, c.setStyle key v = .ok next) ↔
    ∃ q, (∃ u, Call.Sets q u (.setStyle key v)) ∨ Call.Clears q (.setStyle key v) := by
  cases styleCase c key v with
  | unknown hkey hresult =>
      refine iff_of_false (by rw [hresult]; exact nofun) ?_
      rintro ⟨q, hq⟩
      obtain ⟨other, ⟨w, hcall⟩ | hcall⟩ := Call.exists_key_of_decides (hq.imp_right .inl)
      · exact hkey other (Call.setStyle.inj hcall).1
      · cases hcall
  | @cleared q hkey hvalue hresult =>
      exact iff_of_true ⟨_, hresult⟩ ⟨q, .inr (.inr (by rw [hkey, hvalue]))⟩
  | invalid hkey hvalue hnormal hresult =>
      refine iff_of_false (by rw [hresult]; exact nofun) ?_
      rintro ⟨q, hq⟩
      rw [hkey] at hq
      exact Call.not_decides_of_refused hvalue hnormal (hq.imp_right .inl)
  | @set q u hkey hnormal hresult => exact iff_of_true ⟨_, hresult⟩ ⟨q, .inl ⟨u, v, by rw [hkey], hnormal⟩⟩

end Chart

namespace Desk

variable {k : StyleKey}

theorem after_of_ok {d next : Desk} {c : Call} (h : d.call c = .ok next) : d.after c = next := by
  rw [after, h]

theorem after_of_error {d : Desk} {c : Call} {fault : Fault} (h : d.call c = .error fault) : d.after c = d := by
  rw [after, h]

/-- What a call, accepted or refused, does to a style key. -/
inductive Leaves (d : Desk) (c : Call) (k : StyleKey) : Prop
  | set {u : Value} (hsets : c.Sets k u) (hstyle : (d.after c).chart.style? k = some u)
  | cleared (hends : c.Clears k ∨ c.Excludes k) (hstyle : (d.after c).chart.style? k = none)
  | kept (hidle : ¬c.Decides k) (hstyle : (d.after c).chart.style? k = d.chart.style? k)

theorem leaves_of_refused {d : Desk} {c : Call} {fault : Fault} (hcall : d.call c = .error fault)
    (hidle : ¬c.Decides k) : Leaves d c k :=
  .kept hidle (by rw [after_of_error hcall])

theorem leaves_of_unstyled {d : Desk} {c : Call} (hidle : ¬c.Decides k)
    (hstyle : ∀ next, d.call c = .ok next → next.chart.style? = d.chart.style?) : Leaves d c k := by
  cases hcall : d.call c with
  | error fault => exact leaves_of_refused hcall hidle
  | ok next => exact .kept hidle (by rw [after_of_ok hcall, hstyle next hcall])

theorem chart_after_setStyle {d : Desk} {key v : Value} {c : Chart} (h : d.chart.setStyle key v = .ok c) :
    (d.after (.setStyle key v)).chart = c := by
  have hcall : d.call (.setStyle key v) = .ok { d with chart := c } := bind_eq_ok_iff.mpr ⟨c, h, rfl⟩
  rw [after_of_ok hcall]

theorem call_setStyle_of_error {d : Desk} {key v : Value} {fault : Fault} (h : d.chart.setStyle key v = .error fault) :
    d.call (.setStyle key v) = .error fault := by
  show (d.chart.setStyle key v >>= _) = _
  rw [h]
  rfl

theorem leaves_setStyle (d : Desk) (key v : Value) (k : StyleKey) : Leaves d (.setStyle key v) k := by
  cases Chart.styleCase d.chart key v with
  | unknown hkey hresult =>
      refine leaves_of_refused (call_setStyle_of_error hresult) fun hdecides => ?_
      obtain ⟨q, ⟨w, hcall⟩ | hcall⟩ := Call.exists_key_of_decides hdecides
      · exact hkey q (Call.setStyle.inj hcall).1
      · cases hcall
  | @cleared q hkey hvalue hresult =>
      subst hkey hvalue
      have hstyle := Chart.style?_withoutStyle d.chart q k
      rw [← chart_after_setStyle hresult] at hstyle
      by_cases hsame : q = k
      · rw [if_pos hsame.symm] at hstyle
        exact .cleared (.inl (Call.clears_setStyle_iff.mpr ⟨hsame, rfl⟩)) hstyle
      · rw [if_neg (Ne.symm hsame)] at hstyle
        exact .kept (fun hdecides => hsame (Call.text_name_inj.mp (Call.decides_unset_iff.mp hdecides))) hstyle
  | invalid hkey hvalue hnormal hresult =>
      subst hkey
      exact leaves_of_refused (call_setStyle_of_error hresult) (Call.not_decides_of_refused hvalue hnormal)
  | @set q u hkey hnormal hresult =>
      subst hkey
      have hstyle := Chart.style?_withStyle d.chart q k u
      rw [← chart_after_setStyle hresult] at hstyle
      by_cases hsame : q = k
      · rw [if_pos hsame.symm] at hstyle
        exact .set (Call.sets_setStyle_iff.mpr ⟨hsame, hnormal⟩) hstyle
      · rw [if_neg (Ne.symm hsame)] at hstyle
        by_cases hexclusive : q.exclusive? = some k
        · rw [if_pos hexclusive] at hstyle
          have hsets : Call.Sets q u (.setStyle (.text q.name) v) := Call.sets_setStyle_iff.mpr ⟨rfl, hnormal⟩
          exact .cleared (.inr ⟨q, u, StyleKey.exclusive?_symm hexclusive, hsets⟩) hstyle
        · rw [if_neg hexclusive] at hstyle
          exact .kept (Call.not_decides_of_other hsame hexclusive) hstyle

theorem leaves_clearStyle (d : Desk) (key : Value) (k : StyleKey) : Leaves d (.clearStyle key) k := by
  -- Clearing a style key is setting it to the unset mark.
  cases leaves_setStyle d key .unset k with
  | set hsets _ => exact absurd hsets Call.not_sets_unset
  | cleared hends hstyle =>
      obtain rfl := Call.decides_unset_iff.mp (.inr hends)
      exact .cleared (.inl (.inl rfl)) hstyle
  | kept hidle hstyle =>
      exact .kept (fun hdecides => hidle (Call.decides_unset_iff.mpr (Call.decides_clearStyle_iff.mp hdecides))) hstyle

/-- Every call sets a style key, clears it, or leaves it as it was. -/
theorem leaves (d : Desk) (c : Call) (k : StyleKey) : Leaves d c k := by
  have hidle (hother : ∀ key v, c ≠ .setStyle key v ∧ c ≠ .clearStyle key) : ¬c.Decides k := by
    intro hdecides
    obtain ⟨q, ⟨v, hcall⟩ | hcall⟩ := Call.exists_key_of_decides hdecides
    · exact (hother _ v).1 hcall
    · exact (hother _ .unset).2 hcall
  cases c with
  | setStyle key v => exact leaves_setStyle d key v k
  | clearStyle key => exact leaves_clearStyle d key k
  | define name type cardinality =>
      refine leaves_of_unstyled (hidle fun _ _ => ⟨nofun, nofun⟩) fun next hcall => ?_
      obtain ⟨grown, -, hcall⟩ := bind_eq_ok_iff.mp hcall
      cases hcall
      rfl
  | bind role source =>
      refine leaves_of_unstyled (hidle fun _ _ => ⟨nofun, nofun⟩) fun next hcall => ?_
      obtain ⟨bound, hbind, hcall⟩ := bind_eq_ok_iff.mp hcall
      cases hcall
      exact Chart.style?_of_bind hbind
  | setFacet reference =>
      refine leaves_of_unstyled (hidle fun _ _ => ⟨nofun, nofun⟩) fun next hcall => ?_
      obtain ⟨chart, hset, hcall⟩ := bind_eq_ok_iff.mp hcall
      cases hcall
      obtain ⟨column, -, rfl⟩ := Chart.exists_readFacet hset
      rfl

end Desk

/-! ### What a history leaves -/

namespace Call

variable {k : StyleKey} {u : Value}

theorem not_survives_nil : ¬Survives [] k u := by
  rintro ⟨before, c, after, hsplit, -⟩
  exact List.append_ne_nil_of_right_ne_nil before (List.cons_ne_nil c after) hsplit.symm

/-- After one more call a value survives if the call set it, or if it survived before and the call does not decide. -/
theorem survives_append_iff {calls : List Call} {c : Call} :
    Survives (calls ++ [c]) k u ↔ c.Sets k u ∨ ¬c.Decides k ∧ Survives calls k u := by
  constructor
  · rintro ⟨before, set, after, hsplit, hsets, hidle⟩
    rcases List.eq_nil_or_concat after with rfl | ⟨rest, last, rfl⟩
    · obtain ⟨-, rfl⟩ := List.append_singleton_inj.mp hsplit
      exact .inl hsets
    · rw [List.concat_eq_append, ← List.cons_append, ← List.append_assoc] at hsplit
      obtain ⟨rfl, rfl⟩ := List.append_singleton_inj.mp hsplit
      rw [List.concat_eq_append, List.forall_mem_append, List.forall_mem_singleton] at hidle
      exact .inr ⟨hidle.2, before, set, rest, rfl, hsets, hidle.1⟩
  · rintro (hsets | ⟨hidle, before, set, after, rfl, hsets, hlater⟩)
    · exact ⟨calls, c, [], rfl, hsets, fun _ hmem => absurd hmem List.not_mem_nil⟩
    · refine ⟨before, set, after ++ [c], by rw [List.append_assoc]; rfl, hsets, ?_⟩
      rw [List.forall_mem_append, List.forall_mem_singleton]
      exact ⟨hlater, hidle⟩

end Call

/-- Where a style key is not set at first, calls leave it set to what survives them, and to nothing else. -/
theorem Desk.style?_run_iff {d : Desk} {k : StyleKey} (hnew : d.chart.style? k = none) (calls : List Call) (u : Value) :
    (d.run calls).chart.style? k = some u ↔ Call.Survives calls k u := by
  -- By induction from the end: the last call decides on the key, or leaves what the others left.
  induction calls using List.reverseRecOn with
  | nil => exact iff_of_false (by rw [run, List.foldl_nil, hnew]; exact nofun) Call.not_survives_nil
  | append_singleton calls c ih =>
      have hrun : d.run (calls ++ [c]) = (d.run calls).after c := List.foldl_append
      rw [hrun, Call.survives_append_iff, ← ih]
      cases leaves (d.run calls) c k with
      | set hsets hstyle =>
          have hdecides : c.Decides k := .inl ⟨_, hsets⟩
          rw [hstyle, Option.some.injEq, or_iff_left fun h => h.1 hdecides]
          exact ⟨fun hsame => hsame ▸ hsets, hsets.unique⟩
      | cleared hends hstyle =>
          refine iff_of_false (by rw [hstyle]; exact nofun) ?_
          rintro (hsets | ⟨hidle, -⟩)
          · exact hsets.not_ends hends
          · exact hidle (.inr hends)
      | kept hidle hstyle =>
          rw [hstyle, and_iff_right hidle, or_iff_right fun hsets => hidle (.inl ⟨u, hsets⟩)]

namespace Easel

open Work

variable {e : Easel} {k : StyleKey}

/-- The easel after a call. What a refused call did before its fault is not undone. -/
def after (e : Easel) (c : Call) : Easel :=
  match (perform c).run e with
  | .ok _ next => next
  | .error _ next => next

def run (e : Easel) (calls : List Call) : Easel :=
  calls.foldl after e

theorem desk_after (e : Easel) (c : Call) : (e.after c).desk = e.desk.after c := by
  have hmirrors := perform_mirrors e c
  rw [after, Desk.after]
  generalize e.desk.call c = outcome at hmirrors ⊢
  generalize (perform c).run e = result at hmirrors ⊢
  cases hmirrors with
  | ok h => exact h
  | error fault => rfl

theorem desk_run (e : Easel) (calls : List Call) : (e.run calls).desk = e.desk.run calls := by
  induction calls generalizing e with
  | nil => rfl
  | cons c calls ih => exact (ih (e.after c)).trans (by rw [desk_after]; rfl)

theorem accepted_setStyle_iff {key v : Value} : (∃ next, (perform (.setStyle key v)).run e = .ok () next) ↔
    ∃ q, (∃ u, Call.Sets q u (.setStyle key v)) ∨ Call.Clears q (.setStyle key v) := by
  have haccepted := (perform_mirrors e (.setStyle key v)).exists_ok_iff
  rw [show e.desk.call (.setStyle key v) = (e.sketch.chart.setStyle key v >>= fun chart => pure { e.desk with chart })
    from rfl, exists_bind_pure_iff] at haccepted
  rw [← Chart.exists_setStyle_iff (c := e.sketch.chart), ← haccepted]
  exact ⟨fun ⟨next, h⟩ => ⟨(), next, h⟩, fun ⟨(), next, h⟩ => ⟨next, h⟩⟩

end Easel

/-- A sketch that was just created amounts to a chart that was, with no style key set. -/
theorem Sketch.chart_of_create {env : Environment} {kind limit : Value} {k : Sketch}
    (h : Sketch.create env kind limit = .ok k) :
    Chart.create env kind limit = .ok k.chart ∧ ∀ q, k.chart.style? q = none := by
  unfold Sketch.create at h
  obtain ⟨chart, hcreate, h⟩ := bind_eq_ok_iff.mp h
  cases h
  refine ⟨?_, fun q => rfl⟩
  rw [hcreate]
  unfold Chart.create at hcreate
  split at hcreate
  · cases hcreate
  · obtain ⟨limit, -, hcreate⟩ := bind_eq_ok_iff.mp hcreate
    cases hcreate
    rfl

/-- On a chart that was just created, calls set a style key to what survives them, and to nothing else. -/
theorem Easel.style?_run_iff (s : Schema) {env : Environment} {kind limit : Value} {sketch : Sketch}
    (hcreate : Sketch.create env kind limit = .ok sketch) (calls : List Call) (k : StyleKey) (u : Value) :
    (run ⟨s, sketch⟩ calls).sketch.chart.style? k = some u ↔ Call.Survives calls k u := by
  have hnew : (desk ⟨s, sketch⟩).chart.style? k = none := (Sketch.chart_of_create hcreate).2 k
  rw [← Desk.style?_run_iff hnew calls u, ← desk_run]
  rfl

/-- The value that is given for a style key is the one that survives the calls, or else the unset mark. -/
theorem Easel.styleValue_run (s : Schema) {env : Environment} {kind limit : Value} {sketch : Sketch}
    (hcreate : Sketch.create env kind limit = .ok sketch) (calls : List Call) (k : StyleKey) :
    let value := (run ⟨s, sketch⟩ calls).sketch.chart.styleValue (.text k.name)
    (∀ u, Call.Survives calls k u → value = .ok u) ∧ ((∀ u, ¬Call.Survives calls k u) → value = .ok .unset) := by
  intro value
  have hvalue : value = .ok (((run ⟨s, sketch⟩ calls).sketch.chart.style? k).getD .unset) := by
    show Chart.styleValue _ _ = _
    rw [Chart.styleValue, Chart.readStyleKey_eq_ok_iff.mpr rfl]
    rfl
  constructor
  · intro u hsurvives
    rw [hvalue, (style?_run_iff s hcreate calls k u).mpr hsurvives]
    rfl
  · intro hnone
    have hunset : (run ⟨s, sketch⟩ calls).sketch.chart.style? k = none := by
      rw [Option.eq_none_iff_forall_ne_some]
      exact fun u hset => hnone u ((style?_run_iff s hcreate calls k u).mp hset)
    rw [hvalue, hunset]
    rfl

end ChartGrammar
