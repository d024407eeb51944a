/-!
# Job names

A job, and each sidecar of one, is named by a label: lower-case letters, digits and hyphens, no
hyphen at either end, at most sixty-three bytes. `nameFault?` gives the first fault of a name in a
fixed order, and `IsJobName` is the language of the names without one.
-/

namespace EventWorker

def maxJobNameLength : Nat := 63

def isLabelLetter (c : Char) : Bool :=
  ('a' ≤ c && c ≤ 'z') || c.isDigit

def isLabelChar (c : Char) : Bool :=
  isLabelLetter c || c == '-'

inductive NameFault where
  | empty
  | tooLong
  | disallowed (c : Char)
  | hyphenAtEnd
  deriving DecidableEq

def NameFault.reason : NameFault → String
  | empty => "name is empty"
  | tooLong => "name is longer than " ++ toString maxJobNameLength ++ " characters"
  | disallowed c => "character '" ++ c.toString ++ "' is not allowed"
  | hyphenAtEnd => "name must start and end with a letter or digit"

/-- The first fault of a name. -/
def nameFault? (name : String) : Option NameFault :=
  let cs := name.toList
  if cs.isEmpty then some .empty
  else if name.utf8ByteSize > maxJobNameLength then some .tooLong
  else
    match cs.find? fun c => !isLabelChar c with
    | some c => some (.disallowed c)
    | none =>
      if cs.head? = some '-' || cs.getLast? = some '-' then some .hyphenAtEnd else none

/-- A letter or digit, or two of them with up to sixty-one letters, digits and hyphens in between. -/
def IsJobName (name : String) : Prop :=
  (∃ c, name.toList = [c] ∧ isLabelLetter c) ∨
    ∃ first inner last, name.toList = first :: (inner ++ [last]) ∧ isLabelLetter first ∧
      isLabelLetter last ∧ inner.all isLabelChar ∧ inner.length + 2 ≤ maxJobNameLength

end EventWorker
