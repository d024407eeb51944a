import EventWorker.Text.CaseTable

/-!
# Lower case

The full lower-casing of a text. Every character has a lower-case form of its own, found in
`lowerRuns`, but for two: `İ` becomes an `i` followed by a combining dot, and `Σ` becomes `ς`
at the end of a word and `σ` elsewhere. A word ends at a sigma when, ignorable characters apart,
a cased character stands before it and none after it.

ASCII text is lowered by `lowerChar` letter by letter, which is what names of jobs and units
rely on.
-/

namespace EventWorker.Text

def inRanges (ranges : List (Nat × Nat)) (c : Char) : Bool :=
  ranges.any fun r => r.1 ≤ c.toNat && c.toNat ≤ r.2

def isCased (c : Char) : Bool :=
  inRanges casedRanges c

def isCaseIgnorable (c : Char) : Bool :=
  inRanges caseIgnorableRanges c

def lowerByTable (c : Char) : Char :=
  let n := c.toNat
  match lowerRuns.find? fun (first, last, step, _) =>
      first ≤ n && n ≤ last && (n - first) % step == 0 with
  | some (_, _, _, shift) => Char.ofNat ((n : Int) + shift).toNat
  | none => c

/-- The lower-case form of a single character, ASCII letters by arithmetic. -/
def lowerChar (c : Char) : Char :=
  if c.toNat < 0x80 then c.toLower else lowerByTable c

/-- A cased character comes first once ignorable ones are skipped. -/
def startsCased (cs : List Char) : Bool :=
  match cs.dropWhile isCaseIgnorable with
  | [] => false
  | c :: _ => isCased c

/-- Lowers the characters of `rest`, which follow those of `before` (nearest first). -/
def lowerAfter (before : List Char) : (rest : List Char) → List Char
  | [] => []
  | c :: cs =>
    let here :=
      if c = 'İ' then ['i', Char.ofNat 0x307]
      else if c = 'Σ' then
        [if startsCased before && !startsCased cs then 'ς' else 'σ']
      else [lowerChar c]
    here ++ lowerAfter (c :: before) cs

/-- The text in lower case. -/
def lower (s : String) : String :=
  String.ofList (lowerAfter [] s.toList)

/-- Lowers the ASCII capitals and leaves every other character as it is. -/
def lowerAscii (s : String) : String :=
  String.ofList (s.toList.map Char.toLower)

end EventWorker.Text
