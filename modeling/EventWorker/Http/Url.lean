import EventWorker.Text.LowerCase
import EventWorker.Text.Utf8

/-!
# Addresses

The parts of an absolute HTTP address, and how they are written in a request. `Url.target` is what a
request asks the host for: the path with its dot segments resolved, and the query. A character that
may not stand in its part is written as the bytes of its UTF-8 form, each as a percent sign and two
hexadecimal digits; a percent sign that is there already is left alone. The fragment is not sent.

`Url.formValue` writes a value that is put into a query as one of its pairs.
-/

namespace EventWorker.Url

def hexDigit (n : Nat) : Char :=
  (Nat.digitChar n).toUpper

def percentByte (b : UInt8) : List Char :=
  ['%', hexDigit (b.toNat / 16), hexDigit (b.toNat % 16)]

def percentChar (c : Char) : List Char :=
  (String.utf8EncodeChar c).flatMap percentByte

/-- Writes every character that is not kept by its bytes. -/
def encode (kept : Char → Bool) (cs : List Char) : List Char :=
  cs.flatMap fun c => if kept c then [c] else percentChar c

/-- A visible character of ASCII. -/
def isVisible (c : Char) : Bool :=
  0x20 < c.toNat && c.toNat < 0x7F

def keptInPath (c : Char) : Bool :=
  isVisible c && ! ['"', '#', '<', '>', '?', '\x60', '\x7b', '\x7d'].contains c

def keptInQuery (c : Char) : Bool :=
  isVisible c && ! ['"', '#', '<', '>'].contains c

def keptInForm (c : Char) : Bool :=
  c.isAlphanum || ['*', '-', '.', '_'].contains c

/-- A value of a query: a blank is written as a plus sign. -/
def formValue (s : String) : String :=
  String.ofList (s.toList.flatMap fun c =>
    if c = ' ' then ['+'] else encode keptInForm [c])

/-! ## Parts -/

structure Parts where
  scheme : List Char
  /-- The host with what may stand before and after it. -/
  authority : List Char
  path : List Char
  query : Option (List Char)

/-- The characters that end the authority. -/
def endsAuthority (c : Char) : Bool :=
  c = '/' || c = '\\' || c = '?' || c = '#'

def isSlash (c : Char) : Bool :=
  c = '/' || c = '\\'

/-- A line end or a tab: they count for nothing wherever they stand. -/
def isSkipped (c : Char) : Bool :=
  c = '\t' || c = '\n' || c = '\r'

/-- A blank or a control: they count for nothing at the two ends. -/
def isOuter (c : Char) : Bool :=
  c.toNat ≤ 0x20

def clean (cs : List Char) : List Char :=
  ((cs.dropWhile isOuter).reverse.dropWhile isOuter).reverse.filter (!isSkipped ·)

/-- What stands before the first of a mark, and what stands after it if it is there. -/
def cut (mark : Char) (cs : List Char) : List Char × Option (List Char) :=
  (cs.takeWhile (· ≠ mark),
    match cs.dropWhile (· ≠ mark) with
    | [] => none
    | _ :: rest => some rest)

/-- What stands before the query and the fragment. -/
def pathPart (cs : List Char) : List Char :=
  (cut '?' (cut '#' cs).1).1

/-- The query, which ends where the fragment begins. -/
def queryPart (cs : List Char) : Option (List Char) :=
  (cut '?' (cut '#' cs).1).2

def parts (url : String) : Parts :=
  let (scheme, afterScheme) := cut ':' (clean url.toList)
  let afterSlashes := (afterScheme.getD []).dropWhile isSlash
  let afterAuthority := afterSlashes.dropWhile (!endsAuthority ·)
  { scheme
    authority := afterSlashes.takeWhile (!endsAuthority ·)
    path := pathPart afterAuthority
    query := queryPart afterAuthority }

/-- An address that a request can be sent to: its scheme is that of HTTP, plain or secured, and it
names a host. -/
def isUsable (url : String) : Bool :=
  let p := parts url
  let scheme := Text.lowerAscii (String.ofList p.scheme)
  let host := ((p.authority.reverse.takeWhile (· ≠ '@')).reverse).takeWhile (· ≠ ':')
  (scheme == "http" || scheme == "https") && !host.isEmpty && host.all fun c =>
    c.toNat > 0x20 && ! ['<', '>', '^', '|', '%', '\x7f'].contains c

/-! ## Paths -/

/-- What follows each slash of a path. -/
def segments (path : List Char) : List (List Char) :=
  (path.splitOnP isSlash).tail

/-- A segment in which a dot is written in one way only. -/
def plainDots : (segment : List Char) → List Char
  | c :: d :: e :: cs =>
    if c = '%' ∧ d = '2' ∧ (e = 'e' ∨ e = 'E') then '.' :: plainDots cs
    else c :: plainDots (d :: e :: cs)
  | cs => cs

/-- Resolves the dot segments; `before` are the segments so far, the last one first. -/
def resolve (before : List (List Char)) : List (List Char) → List (List Char)
  | [] => before.reverse
  | segment :: rest =>
    let shown := plainDots segment
    if shown = ['.', '.'] then
      resolve (if rest.isEmpty then [] :: before.drop 1 else before.drop 1) rest
    else if shown = ['.'] then resolve (if rest.isEmpty then [] :: before else before) rest
    else resolve (encode keptInPath segment :: before) rest

/-- The text of a path and of a query. -/
def written (segments : List (List Char)) (query : Option (List Char)) : List Char :=
  segments.flatMap ('/' :: ·) ++
    match query with
    | none => []
    | some q => '?' :: q

/-- What a request asks the host for. -/
def target (url : String) : String :=
  let p := parts url
  let path := resolve [] (segments p.path)
  String.ofList (written (if path.isEmpty then [[]] else path) (p.query.map (encode keptInQuery)))

end EventWorker.Url
