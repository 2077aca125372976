import ChartGrammar.Value.Basic

/-! Closed vocabularies: finite types whose members have names that tables and payloads write, in a fixed
order. -/

namespace ChartGrammar

/-- A closed vocabulary. `title` names the vocabulary as a whole in messages. -/
class Vocabulary (α : Type) where
  all : List α
  name : α → String
  title : String

namespace Vocabulary

variable {α : Type} [Vocabulary α]

/-- The names of all members, in order. -/
def names (α : Type) [Vocabulary α] : List String :=
  (all : List α).map name

/-- The member with a name. Names are compared letter by letter. -/
def ofName? (s : String) : Option α :=
  all.find? fun a => name a == s

/-- The member that a value names: only a text names one. -/
def ofValue? : Value → Option α
  | .text s => ofName? s
  | _ => none

end Vocabulary

/-- A vocabulary that lists each of its members, under a name of its own. -/
class LawfulVocabulary (α : Type) [Vocabulary α] : Prop where
  ofName?_name (a : α) : Vocabulary.ofName? (Vocabulary.name a) = some a

namespace Vocabulary

variable {α : Type} [Vocabulary α]

/-- A member is found under no other name than its own. -/
theorem name_of_ofName? {s : String} {a : α} (h : ofName? s = some a) : name a = s := by
  simpa using List.find?_some h

theorem mem_all [LawfulVocabulary α] (a : α) : a ∈ (all : List α) :=
  List.mem_of_find?_eq_some (LawfulVocabulary.ofName?_name a)

/-- What is said of all members is decided by going through them. -/
instance decidableForall [LawfulVocabulary α] (p : α → Prop) [DecidablePred p] : Decidable (∀ a, p a) :=
  decidable_of_iff (∀ a ∈ (all : List α), p a) ⟨fun h a => h a (mem_all a), fun h a _ => h a⟩

theorem ofName?_eq_some_iff [LawfulVocabulary α] {s : String} {a : α} :
    ofName? s = some a ↔ s = name a :=
  ⟨fun h => (name_of_ofName? h).symm, fun h => h ▸ LawfulVocabulary.ofName?_name a⟩

theorem name_injective [LawfulVocabulary α] {a b : α} (h : name a = name b) : a = b := by
  have hfound := LawfulVocabulary.ofName?_name a
  rw [h, LawfulVocabulary.ofName?_name] at hfound
  exact (Option.some.inj hfound).symm

/-- A value names a member exactly if it is the member's name as a text. -/
theorem ofValue?_eq_some_iff [LawfulVocabulary α] {v : Value} {a : α} :
    ofValue? v = some a ↔ v = .text (name a) := by
  cases v <;> simp [ofValue?, ofName?_eq_some_iff]

end Vocabulary

end ChartGrammar
