import ChartGrammar.Proofs.Text.Integer
import ChartGrammar.Value.Json
import ChartGrammar.Value.JsonReader
import Mathlib.Data.List.Forall2
import Mathlib.Data.Nat.Digits.Defs

/-! Reading gives back what was written. A character outside printable ASCII is written as four hexadecimal digits, or
as two surrogates if its code point needs more, and no surrogate alone is the code point of a character; so a text is
read back up to its closing quote. An integer is read back if no digit follows it, and a list or a dictionary is read
back if its parts are, whatever blanks stand between them. -/

namespace ChartGrammar

/-! ### Hexadecimal digits -/

/-- Four digits, filled with zeros, are the four places of a code unit. -/
theorem Text.toList_hex_four {n : Nat} (h : n < 0x10000) :
    (Text.hex 4 n).toList =
      [Nat.digitChar (n / 4096), Nat.digitChar (n / 256 % 16), Nat.digitChar (n / 16 % 16), Nat.digitChar (n % 16)] := by
  have hplace {m : Nat} (hm : 16 ≤ m) : Nat.toDigits 16 m = Nat.toDigits 16 (m / 16) ++ [Nat.digitChar (m % 16)] :=
    Nat.toDigits_of_base_le (by decide) hm
  have hzero : Nat.digitChar 0 = '0' := rfl
  rw [Text.hex, String.toList_ofList]
  by_cases h1 : n < 16
  · rw [Nat.toDigits_of_lt_base h1]
    simp [show n / 4096 = 0 by omega, show n / 256 = 0 by omega, show n / 16 = 0 by omega,
      Nat.mod_eq_of_lt h1, List.replicate]
  by_cases h2 : n < 256
  · rw [hplace (by omega), Nat.toDigits_of_lt_base (by omega)]
    simp [show n / 4096 = 0 by omega, show n / 256 = 0 by omega, show n / 16 % 16 = n / 16 by omega,
      List.replicate]
  by_cases h3 : n < 4096
  · rw [hplace (by omega), hplace (by omega), Nat.toDigits_of_lt_base (by omega)]
    simp [show n / 4096 = 0 by omega, show n / 16 / 16 = n / 256 by omega,
      show n / 256 % 16 = n / 256 by omega]
  · rw [hplace (by omega), hplace (by omega), hplace (by omega), Nat.toDigits_of_lt_base (by omega)]
    simp [show n / 16 / 16 = n / 256 by omega, show n / 256 / 16 = n / 4096 by omega]

namespace JsonReader

theorem hexDigit?_digitChar {d : Nat} (h : d < 16) : hexDigit? (Nat.digitChar d) = some d := by
  have hall : ∀ d, d < 16 → hexDigit? (Nat.digitChar d) = some d := by decide
  exact hall d h

/-- Four hexadecimal digits are read as the number that they write. -/
theorem unit?_digits {n : Nat} (h : n < 0x10000) :
    unit? (Nat.digitChar (n / 4096)) (Nat.digitChar (n / 256 % 16)) (Nat.digitChar (n / 16 % 16))
      (Nat.digitChar (n % 16)) = some n := by
  simp only [unit?, hexDigit?_digitChar (show n / 4096 < 16 by omega),
    hexDigit?_digitChar (Nat.mod_lt _ (show 0 < 16 by decide)), Option.pure_def, Option.bind_eq_bind,
    Option.bind_some, Option.some.injEq]
  omega

theorem scalar?_toNat (c : Char) : scalar? c.toNat = some c := by
  have hvalid : c.toNat.isValidChar := c.valid
  rw [scalar?, if_pos hvalid, Char.ofNat_toNat]

/-! ### Characters -/

/-- The characters of a text with one more in front. -/
def prepend (c : Char) (read : Option (List Char × List Char)) : Option (List Char × List Char) :=
  read.map fun r => (c :: r.1, r.2)

theorem characters_unit {c : Char} {n : Nat} (h : n < 0x10000) (hhigh : ¬(0xd800 ≤ n ∧ n < 0xdc00))
    (hscalar : scalar? n = some c) (rest : List Char) :
    characters ("\\u".toList ++ (Text.hex 4 n).toList ++ rest) = prepend c (characters rest) := by
  rw [Text.toList_hex_four h]
  simp only [String.reduceToList, List.cons_append, List.nil_append]
  rw [characters, unit?_digits h]
  simp only [Option.bind_eq_bind, Option.bind_some, Bool.and_eq_true, decide_eq_true_eq, if_neg hhigh, hscalar]
  cases characters rest <;> rfl

theorem characters_pair {c : Char} (high low : Nat) (hhigh : 0xd800 ≤ high ∧ high < 0xdc00)
    (hlow : 0xdc00 ≤ low ∧ low < 0xe000)
    (hscalar : scalar? (0x10000 + (high - 0xd800) * 0x400 + (low - 0xdc00)) = some c) (rest : List Char) :
    characters ("\\u".toList ++ (Text.hex 4 high).toList ++ ("\\u".toList ++ (Text.hex 4 low).toList) ++ rest) =
      prepend c (characters rest) := by
  have hhigh' : (decide (0xd800 ≤ high) && decide (high < 0xdc00)) = true := by simpa using hhigh
  have hlow' : (decide (0xdc00 ≤ low) && decide (low < 0xe000)) = true := by simpa using hlow
  rw [Text.toList_hex_four (by omega), Text.toList_hex_four (by omega)]
  simp only [String.reduceToList, List.cons_append, List.nil_append]
  rw [characters, unit?_digits (by omega)]
  simp only [Option.bind_eq_bind, Option.bind_some]
  rw [if_pos hhigh']
  simp only [unit?_digits (show low < 0x10000 by omega), Option.bind_some, hlow', guard_true]
  simp only [hscalar, Option.bind_some]
  cases characters rest <;> rfl

/-- An escaped character is read as the character. -/
theorem characters_jsonEscape (c : Char) (rest : List Char) :
    characters ((Value.jsonEscape c.toNat).toList ++ rest) = prepend c (characters rest) := by
  have hvalid : c.toNat < 0xd800 ∨ 0xdfff < c.toNat ∧ c.toNat < 0x110000 := c.valid
  unfold Value.jsonEscape
  by_cases hsmall : c.toNat < 0x10000
  · simp only [hsmall, if_true, String.toList_append]
    exact characters_unit hsmall (by omega) (scalar?_toNat c) rest
  · simp only [hsmall, if_false, String.toList_append, List.append_assoc]
    have hcode : 0x10000 + (0xd800 + (c.toNat - 0x10000) / 0x400 - 0xd800) * 0x400 +
        (0xdc00 + (c.toNat - 0x10000) % 0x400 - 0xdc00) = c.toNat := by omega
    have hpair := characters_pair (0xd800 + (c.toNat - 0x10000) / 0x400) (0xdc00 + (c.toNat - 0x10000) % 0x400)
      (by omega) (by omega) (by rw [hcode]; exact scalar?_toNat c) rest
    simpa only [List.append_assoc] using hpair

/-- A character of a text is read as itself, however it is written. -/
theorem characters_jsonChar (c : Char) (rest : List Char) :
    characters ((Value.jsonChar c).toList ++ rest) = prepend c (characters rest) := by
  have hletter {c letter : Char} (hescape : escape? letter = some c) (hu : letter ≠ 'u') :
      characters ('\\' :: letter :: rest) = prepend c (characters rest) := by
    rw [characters, hescape]
    · cases characters rest <;> rfl
    · intro a b d e more hletter
      exact absurd hletter hu
  unfold Value.jsonChar
  split
  · exact hletter rfl (by decide)
  · exact hletter rfl (by decide)
  · exact hletter rfl (by decide)
  · exact hletter rfl (by decide)
  · exact hletter rfl (by decide)
  · exact hletter rfl (by decide)
  · exact hletter rfl (by decide)
  · split
    · rw [String.toList_singleton, List.singleton_append, characters]
      · cases characters rest <;> rfl
      all_goals simp_all
    · exact characters_jsonEscape c rest

/-- A text is read back up to its closing quote. -/
theorem characters_jsonChars (cs rest : List Char) :
    characters (cs.flatMap (fun c => (Value.jsonChar c).toList) ++ '\x22' :: rest) = some (cs, rest) := by
  induction cs with
  | nil => rfl
  | cons c cs ih =>
      rw [List.flatMap_cons, List.append_assoc, characters_jsonChar, ih]
      rfl

/-! ### Words -/

theorem natural?_toDigits (n : Nat) : natural? (Nat.toDigits 10 n) = some n := by
  have hne : (Nat.toDigits 10 n).isEmpty = false := by
    rw [List.isEmpty_eq_false_iff]
    exact Nat.toDigits_ne_nil
  have hdigits : (Nat.toDigits 10 n).all Char.isDigit = true :=
    List.all_eq_true.mpr fun c hc => Nat.isDigit_of_mem_toDigits (by decide) (by decide) hc
  rw [natural?, hne, hdigits, Bool.not_true, Bool.or_false, if_neg Bool.false_ne_true]
  exact congrArg some Nat.ofDigitChars_ten_toDigits

theorem size?_toDigits (n : Nat) : size? (Nat.toDigits 10 n) = some (.whole n) := by
  have hall : (Nat.toDigits 10 n).takeWhile Char.isDigit = Nat.toDigits 10 n := by
    rw [← List.append_nil (Nat.toDigits 10 n), List.takeWhile_append_of_pos, List.takeWhile_nil]
    exact fun c hc => Nat.isDigit_of_mem_toDigits (by decide) (by decide) hc
  rw [size?, hall, natural?_toDigits, List.drop_length]
  rfl

theorem isDigit_or_eq_of_mem_text {n : Int} {c : Char} (h : c ∈ (Number.whole n).text.toList) :
    c.isDigit = true ∨ c = '-' := by
  have hdigit {m : Nat} (hc : c ∈ Nat.toDigits 10 m) : c.isDigit = true :=
    Nat.isDigit_of_mem_toDigits (by decide) (by decide) hc
  rw [Number.toList_text_whole] at h
  split at h
  · exact .inl (hdigit h)
  · obtain rfl | h := List.mem_cons.mp h
    · exact .inr rfl
    · exact .inl (hdigit h)

theorem text_ne_nil (n : Int) : (Number.whole n).text.toList ≠ [] := by
  rw [Number.toList_text_whole]
  split
  · exact Nat.toDigits_ne_nil
  · exact List.cons_ne_nil _ _

theorem isWord_of_mem_text {n : Int} {c : Char} (h : c ∈ (Number.whole n).text.toList) : isWord c = true := by
  obtain hdigit | rfl := isDigit_or_eq_of_mem_text h
  · simp [isWord, Char.isAlphanum, hdigit]
  · rfl

theorem number?_text (n : Int) : number? (Number.whole n).text.toList = some (.int n) := by
  rw [Number.toList_text_whole]
  split
  next h =>
    have hsign : ∀ word, Nat.toDigits 10 n.toNat ≠ '-' :: word := by
      intro word heq
      have hminus : '-' ∈ Nat.toDigits 10 n.toNat := heq ▸ List.mem_cons_self
      exact absurd (Nat.isDigit_of_mem_toDigits (by decide) (by decide) hminus) (by decide)
    rw [number?]
    · rw [size?_toDigits, Option.map_some, Value.ofNumber, Int.toNat_of_nonneg h]
    · exact hsign
  next h =>
    rw [number?, size?_toDigits, Option.map_some]
    simp only [Option.some.injEq, Value.int.injEq]
    omega

/-- An integer is read back from its digits. -/
theorem word?_text (n : Int) : word? (Number.whole n).text.toList = some (.int n) := by
  -- A name has a letter in it, and no letter stands in the text of an integer.
  have hname {c : Char} {name : List Char} (hc : c ∈ name) (hletter : ¬(c.isDigit = true ∨ c = '-')) :
      (Number.whole n).text.toList ≠ name := by
    rintro rfl
    exact hletter (isDigit_or_eq_of_mem_text hc)
  rw [word?, if_neg (hname (c := 'n') (by decide) (by decide)), if_neg (hname (c := 't') (by decide) (by decide)),
    if_neg (hname (c := 'f') (by decide) (by decide)), number?_text]

/-! ### Values -/

variable {word rest blank : List Char} {v : Value} {fuel : Nat}

/-- A word does not go on into what follows it. -/
def Stops (rest : List Char) : Prop :=
  rest.takeWhile isWord = []

/-- Reading takes a value off the front of a text. More fuel than the text is long is enough. -/
def ReadsAs (text : List Char) (v : Value) : Prop :=
  ∀ rest fuel, Stops rest → text.length < fuel → value fuel (text ++ rest) = some (v, rest)

theorem skip_append (hblank : ∀ c ∈ blank, isSpace c = true) : skip (blank ++ rest) = skip rest := by
  rw [skip, List.dropWhile_append_of_pos hblank, skip]

theorem skip_cons {c : Char} (hc : isSpace c = false) : skip (c :: rest) = c :: rest := by
  rw [skip, List.dropWhile_cons, hc, if_neg Bool.false_ne_true]

/-- Blanks in front of a value are passed over. -/
theorem value_append (hblank : ∀ c ∈ blank, isSpace c = true) : value fuel (blank ++ rest) = value fuel rest := by
  cases fuel with
  | zero => rfl
  | succ fuel => rw [value, value, skip_append hblank]

theorem stops_cons {c : Char} (hc : isWord c = false) : Stops (c :: rest) := by
  rw [Stops, List.takeWhile_cons, hc, if_neg Bool.false_ne_true]

theorem stops_blank {c : Char} (hblank : ∀ c ∈ blank, isSpace c = true) (hc : isWord c = false) :
    Stops (blank ++ c :: rest) := by
  cases blank with
  | nil => exact stops_cons hc
  | cons b blank =>
      have hspace := hblank b List.mem_cons_self
      simp only [isSpace, Bool.or_eq_true, beq_iff_eq] at hspace
      refine stops_cons ?_
      obtain ((rfl | rfl) | rfl) | rfl := hspace <;> rfl

/-- A word that stands for a value is read as the value. -/
theorem readsAs_word (hne : word ≠ []) (hword : ∀ c ∈ word, isWord c = true) (hv : word? word = some v) :
    ReadsAs word v := by
  intro rest fuel hstops hfuel
  obtain ⟨fuel, rfl⟩ := Nat.exists_eq_add_of_le' (Nat.one_le_of_lt hfuel)
  obtain ⟨c, word, rfl⟩ := List.exists_cons_of_ne_nil hne
  have hother {d : Char} (hd : isWord d = false) : c ≠ d := by
    rintro rfl
    rw [hword c List.mem_cons_self] at hd
    cases hd
  have hspace : isSpace c = false := by
    simp [isSpace, hother (d := ' ') rfl, hother (d := '\n') rfl, hother (d := '\t') rfl, hother (d := '\r') rfl]
  have hdrop : rest.dropWhile isWord = rest := by
    have hboth := List.takeWhile_append_dropWhile (p := isWord) (l := rest)
    rwa [show rest.takeWhile isWord = [] from hstops] at hboth
  have hskip : skip (c :: word ++ rest) = c :: word ++ rest := skip_cons hspace
  rw [value, hskip]
  split
  next hquote => exact absurd (List.cons.inj hquote).1 (hother rfl)
  next hbracket => exact absurd (List.cons.inj hbracket).1 (hother rfl)
  next hbrace => exact absurd (List.cons.inj hbrace).1 (hother rfl)
  · rw [List.takeWhile_append_of_pos hword, List.dropWhile_append_of_pos hword, hstops, hdrop, List.append_nil, hv]
    rfl

theorem readsAs_null : ReadsAs "null".toList .null :=
  readsAs_word (by decide) (List.all_eq_true.mp rfl) rfl

theorem readsAs_bool (b : Bool) : ReadsAs (if b then "true" else "false").toList (.bool b) := by
  cases b with
  | true => exact readsAs_word (by decide) (List.all_eq_true.mp rfl) rfl
  | false => exact readsAs_word (by decide) (List.all_eq_true.mp rfl) rfl

/-- A text is read back up to its closing quote. -/
theorem readsAs_text (s : String) : ReadsAs (Value.jsonText s).toList (.text s) := by
  intro rest fuel _ hfuel
  obtain ⟨fuel, rfl⟩ := Nat.exists_eq_add_of_le' (Nat.one_le_of_lt hfuel)
  have htext : (Value.jsonText s).toList ++ rest =
      '\x22' :: (s.toList.flatMap (fun c => (Value.jsonChar c).toList) ++ '\x22' :: rest) := by
    simp [Value.jsonText, String.toList_join, List.flatMap_map]
  rw [htext, value, skip_cons rfl]
  simp [characters_jsonChars]

/-- An integer is read back from its digits. -/
theorem readsAs_int (n : Int) : ReadsAs (Number.whole n).text.toList (.int n) :=
  readsAs_word (text_ne_nil n) (fun _ hc => isWord_of_mem_text hc) (word?_text n)

/-! ### Lists and dictionaries -/

/-- What is read of items once the first is read back. -/
theorem items_of_readsAs {inner text after : List Char} (hinner : ∀ c ∈ inner, isSpace c = true)
    (hread : ReadsAs text v) (hstops : Stops after) (hfuel : text.length < fuel) :
    (∀ more, skip after = ',' :: more →
      items (fuel + 1) (inner ++ (text ++ after)) = (items fuel more).map fun r => (v :: r.1, r.2)) ∧
    ∀ more, skip after = ']' :: more → items (fuel + 1) (inner ++ (text ++ after)) = some ([v], more) := by
  rw [items, value_append hinner, hread after fuel hstops hfuel]
  simp only [Option.bind_eq_bind, Option.bind_some]
  refine ⟨fun more hskip => ?_, fun more hskip => ?_⟩
  · rw [hskip]
    change ((items fuel more).bind fun r => pure _) = _
    cases items fuel more <;> rfl
  · rw [hskip]
    rfl

/-- Items that are read back one by one are read back as the items of a list. -/
theorem items_intercalate {inner outer : List Char} (hinner : ∀ c ∈ inner, isSpace c = true)
    (houter : ∀ c ∈ outer, isSpace c = true) {texts : List (List Char)} {vs : List Value}
    (h : List.Forall₂ ReadsAs texts vs) (hne : vs ≠ []) (rest : List Char)
    (hfuel : ((',' :: inner).intercalate texts).length + 1 < fuel) :
    items fuel (inner ++ ((',' :: inner).intercalate texts ++ (outer ++ ']' :: rest))) = some (vs, rest) := by
  induction h generalizing fuel with
  | nil => exact absurd rfl hne
  | @cons text v texts vs hread hreads ih =>
      obtain ⟨fuel, rfl⟩ := Nat.exists_eq_add_of_le' (Nat.one_le_of_lt hfuel)
      cases hreads with
      | nil =>
          rw [List.intercalate_singleton] at hfuel ⊢
          exact (items_of_readsAs hinner hread (stops_blank houter rfl) (by omega)).2 rest
            (by rw [skip_append houter, skip_cons rfl])
      | cons =>
          rw [List.intercalate_cons_cons] at hfuel ⊢
          simp only [List.append_assoc, List.cons_append, List.length_append, List.length_cons] at hfuel ⊢
          rw [(items_of_readsAs hinner hread (stops_cons rfl) (by omega)).1 _ (skip_cons rfl),
            ih (List.cons_ne_nil _ _) (by omega)]
          rfl

/-- An entry that is a text, a colon and what is read back as the entry's value. -/
def ReadsAsEntry (text : List Char) (e : Value × Value) : Prop :=
  ∃ s written, e.1 = .text s ∧ text = (Value.jsonText s).toList ++ ':' :: ' ' :: written ∧ ReadsAs written e.2

/-- What is read of entries once the first is read back. -/
theorem entries_of_readsAs {inner text after : List Char} {e : Value × Value} (hinner : ∀ c ∈ inner, isSpace c = true)
    (hread : ReadsAsEntry text e) (hstops : Stops after) (hfuel : text.length < fuel) :
    (∀ more, skip after = ',' :: more →
      entries (fuel + 1) (inner ++ (text ++ after)) = (entries fuel more).map fun r => (e :: r.1, r.2)) ∧
    ∀ more, skip after = '\x7d' :: more → entries (fuel + 1) (inner ++ (text ++ after)) = some ([e], more) := by
  obtain ⟨s, written, hk, rfl, hread⟩ := hread
  obtain ⟨k, v⟩ := e
  cases hk
  have hspace : ∀ c ∈ [' '], isSpace c = true := List.forall_mem_singleton.mpr rfl
  have htext : (Value.jsonText s).toList ++ ':' :: ' ' :: written ++ after =
      (Value.jsonText s).toList ++ (':' :: ([' '] ++ (written ++ after))) := by simp
  have hstr : guard ((Value.text s).typeName == "str") = some () := rfl
  rw [List.length_append, List.length_cons, List.length_cons] at hfuel
  rw [htext, entries, value_append hinner, readsAs_text s _ fuel (stops_cons rfl) (by omega)]
  simp only [Option.bind_eq_bind, Option.bind_some, hstr, skip_cons (show isSpace ':' = false from rfl)]
  rw [value_append hspace, hread after fuel hstops (by omega), Option.bind_some]
  refine ⟨fun more hskip => ?_, fun more hskip => ?_⟩
  · rw [hskip]
    change ((entries fuel more).bind fun r => pure _) = _
    cases entries fuel more <;> rfl
  · rw [hskip]
    rfl

/-- Entries that are read back one by one are read back as the entries of a dictionary. -/
theorem entries_intercalate {inner outer : List Char} (hinner : ∀ c ∈ inner, isSpace c = true)
    (houter : ∀ c ∈ outer, isSpace c = true) {texts : List (List Char)} {es : Entries}
    (h : List.Forall₂ ReadsAsEntry texts es) (hne : es ≠ []) (rest : List Char)
    (hfuel : ((',' :: inner).intercalate texts).length + 1 < fuel) :
    entries fuel (inner ++ ((',' :: inner).intercalate texts ++ (outer ++ '\x7d' :: rest))) = some (es, rest) := by
  induction h generalizing fuel with
  | nil => exact absurd rfl hne
  | @cons text e texts es hread hreads ih =>
      obtain ⟨fuel, rfl⟩ := Nat.exists_eq_add_of_le' (Nat.one_le_of_lt hfuel)
      cases hreads with
      | nil =>
          rw [List.intercalate_singleton] at hfuel ⊢
          exact (entries_of_readsAs hinner hread (stops_blank houter rfl) (by omega)).2 rest
            (by rw [skip_append houter, skip_cons rfl])
      | cons =>
          rw [List.intercalate_cons_cons] at hfuel ⊢
          simp only [List.append_assoc, List.cons_append, List.length_append, List.length_cons] at hfuel ⊢
          rw [(entries_of_readsAs hinner hread (stops_cons rfl) (by omega)).1 _ (skip_cons rfl),
            ih (List.cons_ne_nil _ _) (by omega)]
          rfl

/-- No value begins with a character that is neither part of a word nor an opening one. -/
theorem value_eq_none {c : Char} (hc : c = ']' ∨ c = '\x7d') (h : skip word = c :: rest) : value fuel word = none := by
  cases fuel with
  | zero => rfl
  | succ fuel => obtain rfl | rfl := hc <;> rw [value, h] <;> rfl

theorem value_bracket : value (fuel + 1) ('[' :: word) =
    match skip word with
    | ']' :: after => some (.list [], after)
    | _ => (items fuel word).map fun r => (.list r.1, r.2) := by
  rw [value, skip_cons rfl]
  rfl

theorem value_brace : value (fuel + 1) ('\x7b' :: word) =
    match skip word with
    | '\x7d' :: after => some (.dict [], after)
    | _ => (entries fuel word).map fun r => (.dict (Entries.ofList r.1), r.2) := by
  rw [value, skip_cons rfl]
  rfl

theorem value_list {vs : List Value} (h : items fuel word = some (vs, rest)) :
    value (fuel + 1) ('[' :: word) = some (.list vs, rest) := by
  rw [value_bracket]
  split
  next after hclose =>
    cases fuel with
    | zero => cases h
    | succ fuel =>
        rw [items, value_eq_none (.inl rfl) hclose] at h
        cases h
  · rw [h]
    rfl

theorem value_dict {es : Entries} (h : entries fuel word = some (es, rest)) :
    value (fuel + 1) ('\x7b' :: word) = some (.dict (Entries.ofList es), rest) := by
  rw [value_brace]
  split
  next after hclose =>
    cases fuel with
    | zero => cases h
    | succ fuel =>
        rw [entries, value_eq_none (.inr rfl) hclose] at h
        cases h
  · rw [h]
    rfl

end JsonReader

end ChartGrammar
