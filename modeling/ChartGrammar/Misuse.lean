/-! The ways in which a value can fail to serve an operation that took it for something else. They are apart
from the faults that the library reports with a message: a misuse says only what was asked of the value in
vain. -/

namespace ChartGrammar

/-- What was asked of a value in vain. -/
inductive Misuse where
  /-- The value is used as a key, or in a set, and holds a list or a dictionary. -/
  | unhashable
  /-- The elements of a value are asked for, and it has none. -/
  | notIterable
  /-- Two values are put in order that have no order between them. -/
  | incomparable
  /-- The value, or a key in it, has no written form in a document. -/
  | unwritable
  /-- A value is taken apart into another number of elements than it has. -/
  | wrongCount
  /-- A value is taken for a member of a closed vocabulary. -/
  | notMember
  /-- An item is asked for of a value that has no items of that sort. -/
  | notIndexable
  /-- A layout is asked for of a value that has none. -/
  | unformattable
  /-- A pattern has a brace, a form or a layout out of place, or a layout that does not suit its value. -/
  | badPattern
  /-- An integer is laid out as a character or as a datum of double precision, and there is none for it. -/
  | outOfRange
  /-- A layout is asked for that there is no room for. -/
  | exhausted
  /-- An integer is to be written that has more digits than are written. -/
  | tooLong
  /-- A level of the log is asked for that does not exist. -/
  | unknownLevel
  /-- An entry or a named field is asked for that does not exist. -/
  | missingEntry
  /-- A field is asked for by its position, or an item beyond the last. -/
  | missingPosition
  /-- An operation or a part is asked for that the value does not have. -/
  | missingAttribute
  /-- A part is asked for that the value has and that is not modelled: one of its operations, or a name of the
  language's own. -/
  | uncharted
  /-- A home directory is asked for that is not known. -/
  | homeless
  deriving DecidableEq, Repr

end ChartGrammar
