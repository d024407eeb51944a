/-!
# Blank characters

The white space of free text: the twenty-five characters with the Unicode property
`White_Space`. Settings, secrets and log lines are trimmed by it, and a text all of whose
characters are blank counts as not given.
-/

namespace EventWorker.Text

/-- The Unicode property `White_Space`. -/
def isBlank (c : Char) : Bool :=
  let n := c.toNat
  (0x09 ≤ n && n ≤ 0x0D) || n == 0x20 || n == 0x85 || n == 0xA0 || n == 0x1680 ||
    (0x2000 ≤ n && n ≤ 0x200A) || n == 0x2028 || n == 0x2029 || n == 0x202F ||
    n == 0x205F || n == 0x3000

def trimChars (cs : List Char) : List Char :=
  ((cs.dropWhile isBlank).reverse.dropWhile isBlank).reverse

/-- The text without the blanks at its two ends. -/
def trim (s : String) : String :=
  String.ofList (trimChars s.toList)

/-- Every character is blank, as in the empty text. -/
def isBlankText (s : String) : Bool :=
  s.toList.all isBlank

/-- The trimmed text, where a blank one counts as not given. -/
def trimmed? (s : String) : Option String :=
  let t := trim s
  if t.isEmpty then none else some t

end EventWorker.Text
