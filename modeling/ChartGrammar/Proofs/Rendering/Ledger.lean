import ChartGrammar.Proofs.Rendering.Writes
import Mathlib.Data.List.Induction

/-! Lists of writes read as a ledger: the names in the order in which they first occur, the last write to a
name, the write whose value stands at a name, and the writes that override a standing value. A write of the value
that stands already sets nothing, so that the write that set the standing value need not be the last one. -/

namespace ChartGrammar

/-- Names that count as the same are matched by the same values. -/
theorem Value.same_congr_right {a b : Value} (ha : a.regular = true) (hab : a.same b = true) (v : Value) :
    v.same a = v.same b := by
  rw [Bool.eq_iff_iff]
  constructor
  · exact fun h => same_trans h hab
  · exact fun h => same_trans h (same_symm ha hab)

namespace Ledger

/-- The names written to, in the order in which they first occur. -/
def names (ws : List Parameter) : List Value :=
  (ws.map Parameter.name).eraseDupsBy fun later earlier => earlier.same later

/-- The last write to a name. -/
def last? (param : Value) (ws : List Parameter) : Option Parameter :=
  ws.reverse.find? fun w => w.name.same param

/-- What stands at a name after one more write. -/
def settle (param : Value) (standing : Option Parameter) (w : Parameter) : Option Parameter :=
  if w.name.same param then
    match standing with
    | some previous => if previous.value.same w.value then some previous else some w
    | none => some w
  else standing

/-- The write whose value stands at a name after some writes. -/
def standing? (param : Value) (ws : List Parameter) : Option Parameter :=
  ws.foldl (settle param) none

/-- The write whose value another one overrides when it comes after some writes, and the other one. -/
def override? (before : List Parameter) (w : Parameter) : Option (Parameter × Parameter) :=
  (standing? w.name before).bind fun previous =>
    if previous.value.same w.value then none else some (previous, w)

/-- The overrides among some writes that come after others. -/
def overridesFrom (before : List Parameter) : List Parameter → List (Parameter × Parameter)
  | [] => []
  | w :: rest => (override? before w).toList ++ overridesFrom (before ++ [w]) rest

/-- The overrides among some writes, in order. -/
def overrides (ws : List Parameter) : List (Parameter × Parameter) :=
  overridesFrom [] ws

/-! ### One more write -/

variable {param : Value} {ws : List Parameter} {w : Parameter}

theorem eraseDupsBy_loop_append {α : Type} {r : α → α → Bool} (as bs : List α) (a : α) :
    List.eraseDupsBy.loop r (as ++ [a]) bs =
      if (List.eraseDupsBy.loop r as bs).any (r a) then List.eraseDupsBy.loop r as bs
      else List.eraseDupsBy.loop r as bs ++ [a] := by
  induction as generalizing bs with
  | nil =>
      simp only [List.nil_append, List.eraseDupsBy.loop, List.any_reverse]
      cases bs.any (r a) <;> simp
  | cons b as ih =>
      simp only [List.cons_append, List.eraseDupsBy.loop]
      by_cases hseen : bs.any (r b) = true
      · simp only [hseen]
        exact ih bs
      · simp only [hseen]
        exact ih (b :: bs)

/-- A further write adds its name if the name has not occurred yet. -/
theorem names_append (ws : List Parameter) (w : Parameter) : names (ws ++ [w]) =
    if (names ws).any fun name => name.same w.name then names ws else names ws ++ [w.name] := by
  rw [names, List.map_append, List.map_singleton]
  exact eraseDupsBy_loop_append _ _ _

/-- No name occurs twice, not even in another form. -/
theorem names_pairwise (ws : List Parameter) : (names ws).Pairwise fun a b => a.same b = false := by
  induction ws using List.reverseRecOn with
  | nil => exact List.Pairwise.nil
  | append_singleton ws w ih =>
      rw [names_append]
      split
      · exact ih
      · next hnew =>
          rw [List.pairwise_append]
          refine ⟨ih, List.pairwise_singleton _ _, ?_⟩
          intro a ha b hb
          rw [List.mem_singleton.mp hb, ← Bool.not_eq_true]
          exact fun hsame => hnew (List.any_eq_true.mpr ⟨a, ha, hsame⟩)

theorem last?_append (param : Value) (ws : List Parameter) (w : Parameter) :
    last? param (ws ++ [w]) = if w.name.same param then some w else last? param ws := by
  rw [last?, List.reverse_append, List.reverse_singleton, List.singleton_append, List.find?_cons]
  cases w.name.same param <;> rfl

theorem standing?_append (param : Value) (ws : List Parameter) (w : Parameter) :
    standing? param (ws ++ [w]) = settle param (standing? param ws) w :=
  List.foldl_append

theorem overridesFrom_append (before ws : List Parameter) (w : Parameter) :
    overridesFrom before (ws ++ [w]) = overridesFrom before ws ++ (override? (before ++ ws) w).toList := by
  induction ws generalizing before with
  | nil => simp [overridesFrom]
  | cons u ws ih => rw [List.cons_append, overridesFrom, overridesFrom, ih, ← List.append_cons, List.append_assoc]

theorem overrides_append (ws : List Parameter) (w : Parameter) :
    overrides (ws ++ [w]) = overrides ws ++ (override? ws w).toList :=
  overridesFrom_append [] ws w

/-! ### What stands -/

theorem settle_other {standing : Option Parameter} (h : w.name.same param = false) :
    settle param standing w = standing :=
  if_neg (Bool.eq_false_iff.mp h)

theorem settle_none (h : w.name.same param = true) : settle param none w = some w :=
  if_pos h

theorem settle_same {previous : Parameter} (h : w.name.same param = true)
    (hvalue : previous.value.same w.value = true) : settle param (some previous) w = some previous := by
  simp only [settle, if_pos h, if_pos hvalue]

theorem settle_override {previous : Parameter} (h : w.name.same param = true)
    (hvalue : previous.value.same w.value = false) : settle param (some previous) w = some w := by
  simp only [settle, if_pos h, hvalue, Bool.false_eq_true, ↓reduceIte]

/-- What stands at a name after one more write is what stood there before, or the write itself. -/
theorem settle_eq_or {standing : Option Parameter} :
    settle param standing w = standing ∨ w.name.same param = true ∧ settle param standing w = some w := by
  cases hname : w.name.same param with
  | false => exact .inl (settle_other hname)
  | true =>
      cases standing with
      | none => exact .inr ⟨rfl, settle_none hname⟩
      | some previous =>
          cases hvalue : previous.value.same w.value with
          | false => exact .inr ⟨rfl, settle_override hname hvalue⟩
          | true => exact .inl (settle_same hname hvalue)

/-- What stands at a name is a write to the name. -/
theorem mem_of_standing? {q : Parameter} (h : standing? param ws = some q) :
    q ∈ ws ∧ q.name.same param = true := by
  induction ws using List.reverseRecOn with
  | nil => cases h
  | append_singleton ws w ih =>
      rw [standing?_append] at h
      rcases settle_eq_or with hsettle | ⟨hname, hsettle⟩
      · rw [hsettle] at h
        obtain ⟨hmem, hname⟩ := ih h
        exact ⟨List.mem_append_left _ hmem, hname⟩
      · rw [hsettle] at h
        cases h
        exact ⟨List.mem_append_right _ List.mem_cons_self, hname⟩

/-- What stands at a name was set by a write of another value than the one that stood before, and every later
write to the name repeats the value. -/
theorem standing?_spec {q : Parameter} (h : standing? param ws = some q) :
    ∃ before after, ws = before ++ q :: after ∧ q.name.same param = true ∧
      (∀ p, standing? param before = some p → p.value.same q.value = false) ∧
      ∀ w ∈ after, w.name.same param = true → q.value.same w.value = true := by
  induction ws using List.reverseRecOn with
  | nil => cases h
  | append_singleton ws w ih =>
      rw [standing?_append] at h
      -- A write that sets nothing comes after the one that set what stands.
      have hlater : standing? param ws = some q → (w.name.same param = true → q.value.same w.value = true) →
          ∃ before after, ws ++ [w] = before ++ q :: after ∧ q.name.same param = true ∧
            (∀ p, standing? param before = some p → p.value.same q.value = false) ∧
            ∀ u ∈ after, u.name.same param = true → q.value.same u.value = true := by
        intro hq hw
        obtain ⟨before, after, rfl, hname, hset, hrest⟩ := ih hq
        refine ⟨before, after ++ [w], by simp, hname, hset, ?_⟩
        rw [List.forall_mem_append, List.forall_mem_singleton]
        exact ⟨hrest, hw⟩
      have hnow : w.name.same param = true →
          (∀ p, standing? param ws = some p → p.value.same w.value = false) →
          ∃ before after, ws ++ [w] = before ++ w :: after ∧ w.name.same param = true ∧
            (∀ p, standing? param before = some p → p.value.same w.value = false) ∧
            ∀ u ∈ after, u.name.same param = true → w.value.same u.value = true :=
        fun hname hset => ⟨ws, [], rfl, hname, hset, fun _ hu => absurd hu List.not_mem_nil⟩
      cases hname : w.name.same param with
      | false =>
          rw [settle_other hname] at h
          exact hlater h fun hsame => absurd hsame (Bool.eq_false_iff.mp hname)
      | true =>
          cases hstanding : standing? param ws with
          | none =>
              rw [hstanding, settle_none hname] at h
              cases h
              exact hnow hname fun p hp => by rw [hstanding] at hp; cases hp
          | some previous =>
              cases hvalue : previous.value.same w.value with
              | false =>
                  rw [hstanding, settle_override hname hvalue] at h
                  cases h
                  refine hnow hname fun p hp => ?_
                  rw [hstanding] at hp
                  cases hp
                  exact hvalue
              | true =>
                  rw [hstanding, settle_same hname hvalue] at h
                  cases h
                  exact hlater hstanding fun _ => hvalue

/-- Where something was written a value stands, and it counts as the same as the one written last. -/
theorem standing?_rel_last? (hregular : ∀ w ∈ ws, w.Regular) :
    Option.Rel (fun q l => q.value.same l.value = true) (standing? param ws) (last? param ws) := by
  induction ws using List.reverseRecOn with
  | nil => exact .none
  | append_singleton ws w ih =>
      rw [List.forall_mem_append, List.forall_mem_singleton] at hregular
      have hrel := ih hregular.1
      rw [standing?_append, last?_append]
      cases hname : w.name.same param with
      | false => rwa [settle_other hname]
      | true =>
          have hself := Value.same_self hregular.2.2
          cases hstanding : standing? param ws with
          | none =>
              rw [settle_none hname]
              exact .some hself
          | some previous =>
              cases hvalue : previous.value.same w.value with
              | false =>
                  rw [settle_override hname hvalue]
                  exact .some hself
              | true =>
                  rw [settle_same hname hvalue]
                  exact .some hvalue

/-- A name at which nothing stands has not been written to. -/
theorem not_same_of_standing? (h : standing? param ws = none) : ∀ w ∈ ws, w.name.same param = false := by
  induction ws using List.reverseRecOn with
  | nil => exact fun _ hw => absurd hw List.not_mem_nil
  | append_singleton ws w ih =>
      rw [standing?_append] at h
      rcases settle_eq_or with hsettle | ⟨-, hsettle⟩
      · rw [hsettle] at h
        rw [List.forall_mem_append, List.forall_mem_singleton]
        refine ⟨ih h, ?_⟩
        cases hname : w.name.same param with
        | false => rfl
        | true =>
            rw [h, settle_none hname] at hsettle
            cases hsettle
      · rw [hsettle] at h
        cases h

theorem standing?_congr {other : Value} (hparam : param.regular = true) (hsame : param.same other = true) :
    standing? param ws = standing? other ws := by
  have hsettle : settle param = settle other := by
    funext standing w
    unfold settle
    rw [Value.same_congr_right hparam hsame]
  rw [standing?, standing?, hsettle]

/-! ### When a value is overridden -/

theorem override?_eq_some_iff {q u : Parameter} : override? ws w = some (q, u) ↔
    standing? w.name ws = some q ∧ q.value.same w.value = false ∧ u = w := by
  unfold override?
  cases standing? w.name ws with
  | none => simp
  | some previous =>
      cases hvalue : previous.value.same w.value with
      | false =>
          simp only [Option.bind_some, hvalue, Bool.false_eq_true, ↓reduceIte, Option.some.injEq, Prod.mk.injEq]
          constructor
          · rintro ⟨rfl, rfl⟩
            exact ⟨rfl, hvalue, rfl⟩
          · rintro ⟨rfl, -, rfl⟩
            exact ⟨rfl, rfl⟩
      | true =>
          simp only [Option.bind_some, hvalue, ↓reduceIte, reduceCtorEq, Option.some.injEq, false_iff]
          rintro ⟨rfl, hdiffer, -⟩
          rw [hvalue] at hdiffer
          cases hdiffer

/-- An override has an overridden write and a later one among the writes, to the same name, of unequal values. -/
theorem mem_of_override {e : Parameter × Parameter} (he : e ∈ overrides ws) : e.1 ∈ ws ∧ e.2 ∈ ws ∧
    e.1.name.same e.2.name = true ∧ e.1.value.same e.2.value = false := by
  induction ws using List.reverseRecOn with
  | nil => exact absurd he List.not_mem_nil
  | append_singleton ws w ih =>
      rw [overrides_append] at he
      rcases List.mem_append.mp he with he | he
      · obtain ⟨hfirst, hsecond, hunequal⟩ := ih he
        exact ⟨List.mem_append_left _ hfirst, List.mem_append_left _ hsecond, hunequal⟩
      · obtain ⟨hstanding, hvalue, hlater⟩ := override?_eq_some_iff.mp (Option.mem_toList.mp he)
        obtain ⟨hmem, hname⟩ := mem_of_standing? hstanding
        rw [hlater]
        exact ⟨List.mem_append_left _ hmem, List.mem_append_right _ List.mem_cons_self, hname, hvalue⟩

/-- An override stands among the writes where it was made: what stood at its name before is the write that it
overrides. -/
theorem exists_of_mem_overrides {e : Parameter × Parameter} (he : e ∈ overrides ws) :
    ∃ before after, ws = before ++ e.2 :: after ∧ standing? e.2.name before = some e.1 ∧
      e.1.value.same e.2.value = false := by
  induction ws using List.reverseRecOn with
  | nil => exact absurd he List.not_mem_nil
  | append_singleton ws w ih =>
      rw [overrides_append] at he
      rcases List.mem_append.mp he with he | he
      · obtain ⟨before, after, rfl, hstanding, hvalue⟩ := ih he
        exact ⟨before, after ++ [w], by simp, hstanding, hvalue⟩
      · obtain ⟨hstanding, hvalue, hlater⟩ := override?_eq_some_iff.mp (Option.mem_toList.mp he)
        rw [hlater]
        exact ⟨ws, [], rfl, hstanding, hvalue⟩

/-- Of two writes to a name the first set another value than the one that stood there, it was only repeated up to the
second, and the second writes another value again. -/
def StoodUntil (ws : List Parameter) (e : Parameter × Parameter) : Prop :=
  ∃ before between after, ws = before ++ e.1 :: (between ++ e.2 :: after) ∧ e.1.name.same e.2.name = true ∧
    (∀ p, standing? e.2.name before = some p → p.value.same e.1.value = false) ∧
    (∀ w ∈ between, w.name.same e.2.name = true → e.1.value.same w.value = true) ∧ e.1.value.same e.2.value = false

/-- What is overridden had stood until then. -/
theorem stoodUntil_of_mem_overrides {e : Parameter × Parameter} (he : e ∈ overrides ws) : StoodUntil ws e := by
  obtain ⟨before, after, rfl, hstanding, hvalue⟩ := exists_of_mem_overrides he
  obtain ⟨earlier, between, rfl, hname, hset, hrepeated⟩ := standing?_spec hstanding
  exact ⟨earlier, between, after, by simp, hname, hset, hrepeated, hvalue⟩

/-- Where nothing is overridden, all writes to a name write the value that stands in the end. -/
theorem same_of_no_override (hregular : ∀ w ∈ ws, w.Regular)
    (hnone : ¬∃ e ∈ overrides ws, e.2.name.same param = true) :
    ∀ w ∈ ws, w.name.same param = true → ∃ q, standing? param ws = some q ∧ q.value.same w.value = true := by
  induction ws using List.reverseRecOn with
  | nil => exact fun _ hw => absurd hw List.not_mem_nil
  | append_singleton ws u ih =>
      rw [List.forall_mem_append, List.forall_mem_singleton] at hregular
      rw [overrides_append] at hnone
      have hbefore : ¬∃ e ∈ overrides ws, e.2.name.same param = true := by
        rintro ⟨e, he, hsame⟩
        exact hnone ⟨e, List.mem_append_left _ he, hsame⟩
      have hearlier := ih hregular.1 hbefore
      rw [standing?_append, List.forall_mem_append, List.forall_mem_singleton]
      cases hname : u.name.same param with
      | false =>
          rw [settle_other hname]
          exact ⟨hearlier, fun h => nomatch h⟩
      | true =>
          cases hstanding : standing? param ws with
          | none =>
              have hnew := not_same_of_standing? hstanding
              rw [settle_none hname]
              refine ⟨fun w hw hsame => ?_, fun _ => ⟨u, rfl, Value.same_self hregular.2.2⟩⟩
              rw [hnew w hw] at hsame
              cases hsame
          | some q =>
              have hthere : standing? u.name ws = some q := by
                rw [standing?_congr hregular.2.1 hname, hstanding]
              -- An unequal value would be an override of what stands.
              have hvalue : q.value.same u.value = true := by
                rw [← Bool.not_eq_false]
                intro hdiffer
                have hoverride := override?_eq_some_iff.mpr ⟨hthere, hdiffer, rfl⟩
                exact hnone ⟨(q, u), List.mem_append_right _ (Option.mem_toList.mpr hoverride), hname⟩
              rw [settle_same hname hvalue, ← hstanding]
              exact ⟨hearlier, fun _ => ⟨q, hstanding, hvalue⟩⟩

/-- Something is overridden at a name exactly if two unequal values are written to it. -/
theorem exists_override_iff (hregular : ∀ w ∈ ws, w.Regular) :
    (∃ e ∈ overrides ws, e.2.name.same param = true) ↔ ∃ first ∈ ws, ∃ second ∈ ws,
      first.name.same param = true ∧ second.name.same param = true ∧ first.value.same second.value = false := by
  constructor
  · rintro ⟨e, he, hname⟩
    obtain ⟨hfirst, hsecond, hnames, hvalues⟩ := mem_of_override he
    exact ⟨e.1, hfirst, e.2, hsecond, Value.same_trans hnames hname, hname, hvalues⟩
  · rintro ⟨first, hfirst, second, hsecond, hname, hname', hdiffer⟩
    by_contra hnone
    obtain ⟨q, hq, hvalue⟩ := same_of_no_override hregular hnone first hfirst hname
    obtain ⟨q', hq', hvalue'⟩ := same_of_no_override hregular hnone second hsecond hname'
    rw [hq, Option.some.injEq] at hq'
    subst hq'
    have hq : q.Regular := hregular q (mem_of_standing? hq).1
    rw [Value.same_trans (Value.same_symm hq.2 hvalue) hvalue'] at hdiffer
    cases hdiffer

end Ledger

end ChartGrammar
