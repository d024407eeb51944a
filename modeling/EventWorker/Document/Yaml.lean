import EventWorker.Document
import EventWorker.Document.Yaml.Token

/-!
# Reading YAML

The document that the tokens of a text stand for. Collections nest as in the text, an alias is
replaced by what its anchor names, and a tag is written out in full. Reading stops at the first fault
and leaves what it has so far, with `broken` in the place where it stopped, so that a reader of the
document comes across its own complaints in the order of the text.
-/

namespace EventWorker.Document

namespace Yaml

/-- The state of reading. -/
structure Reading where
  tokens : List Token
  /-- What anchors name, the latest first; nothing yet for a value that is still being read. -/
  anchors : List (String × Option Document) := []
  /-- What the handles of tags are short for. -/
  handles : List (String × String) := []
  stopped : Bool := false

namespace Reading

def peek (r : Reading) : Token :=
  r.tokens.head?.getD .fault

def skip (r : Reading) : Reading :=
  { r with tokens := r.tokens.drop 1 }

def stop (r : Reading) : Document × Reading :=
  (.broken, { r with stopped := true })

def note (name : Option String) (d : Option Document) (r : Reading) : Reading :=
  match name with
  | some n => { r with anchors := (n, d) :: r.anchors }
  | none => r

/-- The tag in full, if its handle is known. -/
def fullTag? (r : Reading) (handle stem : String) : Option String :=
  if handle.isEmpty then some stem
  else (r.handles.lookup handle).map (· ++ stem)

end Reading

def nothing : Document :=
  .plain ""

def withTag (tag : Option String) (d : Document) : Document :=
  match tag with
  | some t => .tagged t d
  | none => d

/-- A scalar under a tag; a lone exclamation mark says nothing about it. -/
def scalarOf (tag : Option String) (isPlain : Bool) (s : String) : Document :=
  withTag (tag.filter (· != "!")) (if isPlain then .plain s else .text s)

/-- The anchor and the tag in front of a value, in either order. -/
def properties (r : Reading) : Option String × Option (String × String) × Reading :=
  match r.tokens with
  | .anchor n :: .tag h s :: rest => (some n, some (h, s), { r with tokens := rest })
  | .tag h s :: .anchor n :: rest => (some n, some (h, s), { r with tokens := rest })
  | .anchor n :: rest => (some n, none, { r with tokens := rest })
  | .tag h s :: rest => (none, some (h, s), { r with tokens := rest })
  | _ => (none, none, r)

mutual

/-- A value. Block collections are allowed where `block` is set, and a list at the indentation of its
own key where `loose` is. -/
def value : (bound : Nat) → (block loose : Bool) → Reading → Document × Reading
  | 0, _, _, r => r.stop
  | bound + 1, block, loose, r =>
    match r.peek with
    | .alias n =>
      match r.anchors.lookup n with
      | some (some d) => (d, r.skip)
      | some none => (.endless, r.skip)
      | none => r.stop
    | _ =>
      let (anchor, shortTag, r) := properties r
      let tag := shortTag.map fun (h, s) => r.fullTag? h s
      if tag = some none then r.stop
      else
        let tag := tag.join
        let scalar (isPlain : Bool) (s : String) (r : Reading) : Document × Reading :=
          let d := scalarOf tag isPlain s
          (d, r.note anchor (some d))
        let collection (read : Reading → Document × Reading) : Document × Reading :=
          let (d, r) := read (r.note anchor none)
          let d := withTag tag d
          (d, r.note anchor (some d))
        match r.peek with
        | .scalar isPlain s => scalar isPlain s r.skip
        | .flowList => collection fun r =>
          let (ds, r) := flowItems bound true r.skip
          (.list ds, r)
        | .flowRecord => collection fun r =>
          let (fs, r) := flowFields bound true r.skip
          (.record fs, r)
        | .blockList =>
          if block then collection fun r =>
            let (ds, r) := blockItems bound r.skip
            (.list ds, r)
          else r.stop
        | .blockRecord =>
          if block then collection fun r =>
            let (fs, r) := blockFields bound r.skip
            (.record fs, r)
          else r.stop
        | .item =>
          if loose then collection fun r =>
            let (ds, r) := looseItems bound r
            (.list ds, r)
          else if anchor.isSome || tag.isSome then scalar true "" r
          else r.stop
        | _ => if anchor.isSome || tag.isSome then scalar true "" r else r.stop

/-- A value unless one of the given tokens says that there is none. -/
def valueUnless : (bound : Nat) → (ends : List Token) → (block loose : Bool) → Reading →
    Document × Reading
  | 0, _, _, _, r => r.stop
  | bound + 1, ends, block, loose, r =>
    if ends.contains r.peek then (nothing, r) else value bound block loose r

def blockItems : (bound : Nat) → Reading → List Document × Reading
  | 0, r => (fun (d, r) => ([d], r)) r.stop
  | bound + 1, r =>
    match r.peek with
    | .item =>
      let (d, r) := valueUnless bound [.item, .blockEnd] true false r.skip
      if r.stopped then ([d], r)
      else
        let (ds, r) := blockItems bound r
        (d :: ds, r)
    | .blockEnd => ([], r.skip)
    | _ => (fun (d, r) => ([d], r)) r.stop

/-- The items of a list at the indentation of its key. -/
def looseItems : (bound : Nat) → Reading → List Document × Reading
  | 0, r => (fun (d, r) => ([d], r)) r.stop
  | bound + 1, r =>
    match r.peek with
    | .item =>
      let (d, r) := valueUnless bound [.item, .key, .value, .blockEnd] true false r.skip
      if r.stopped then ([d], r)
      else
        let (ds, r) := looseItems bound r
        (d :: ds, r)
    | _ => ([], r)

def blockFields : (bound : Nat) → Reading → List (Document × Document) × Reading
  | 0, r => (fun (d, r) => ([(d, d)], r)) r.stop
  | bound + 1, r =>
    let ends : List Token := [.key, .value, .blockEnd]
    let field (k : Document) (r : Reading) : List (Document × Document) × Reading :=
      if r.stopped then ([(k, .broken)], r)
      else
        let (v, r) := match r.peek with
          | .value => valueUnless bound ends true true r.skip
          | _ => (nothing, r)
        if r.stopped then ([(k, v)], r)
        else
          let (fs, r) := blockFields bound r
          ((k, v) :: fs, r)
    match r.peek with
    | .key =>
      let (k, r) := valueUnless bound ends true true r.skip
      field k r
    | .value => field nothing r
    | .blockEnd => ([], r.skip)
    | _ => (fun (d, r) => ([(d, d)], r)) r.stop

def flowItems : (bound : Nat) → (isFirst : Bool) → Reading → List Document × Reading
  | 0, _, r => (fun (d, r) => ([d], r)) r.stop
  | bound + 1, isFirst, r =>
    if r.peek = .flowListEnd then ([], r.skip)
    else if !isFirst && r.peek != .comma then (fun (d, r) => ([d], r)) r.stop
    else
      let r := if isFirst then r else r.skip
      match r.peek with
      | .flowListEnd => ([], r.skip)
      | .key =>
        let r := r.skip
        let (k, r) :=
          if [Token.value, .comma, .flowListEnd].contains r.peek then (nothing, r.skip)
          else value bound false false r
        let (v, r) :=
          if r.stopped then (.broken, r)
          else if r.peek = .value then valueUnless bound [.comma, .flowListEnd] false false r.skip
          else (nothing, r)
        if r.stopped then ([.record [(k, v)]], r)
        else
          let (ds, r) := flowItems bound false r
          (.record [(k, v)] :: ds, r)
      | _ =>
        let (d, r) := value bound false false r
        if r.stopped then ([d], r)
        else
          let (ds, r) := flowItems bound false r
          (d :: ds, r)

def flowFields : (bound : Nat) → (isFirst : Bool) → Reading → List (Document × Document) × Reading
  | 0, _, r => (fun (d, r) => ([(d, d)], r)) r.stop
  | bound + 1, isFirst, r =>
    if r.peek = .flowRecordEnd then ([], r.skip)
    else if !isFirst && r.peek != .comma then (fun (d, r) => ([(d, d)], r)) r.stop
    else
      let r := if isFirst then r else r.skip
      if r.peek = .flowRecordEnd then ([], r.skip)
      else
        let ends : List Token := [.comma, .flowRecordEnd]
        let (k, v, r) :=
          if r.peek = .key then
            let (k, r) := valueUnless bound (.value :: ends) false false r.skip
            if r.stopped then (k, .broken, r)
            else if r.peek = .value then
              let (v, r) := valueUnless bound ends false false r.skip
              (k, v, r)
            else (k, nothing, r)
          else if r.peek = .value then
            let (v, r) := valueUnless bound ends false false r.skip
            (nothing, v, r)
          else
            let (k, r) := value bound false false r
            (k, if r.stopped then .broken else nothing, r)
        if r.stopped then ([(k, v)], r)
        else
          let (fs, r) := flowFields bound false r
          ((k, v) :: fs, r)

end

/-- The handles that need no directive. -/
def standardHandles : List (String × String) :=
  [("!", "!"), ("!!", "tag:yaml.org,2002:")]

/-- The directives before a document; none may be given twice. -/
def directives : (seenVersion : Bool) → (handles : List (String × String)) → List Token →
    Option (List (String × String) × List Token)
  | seen, handles, .version major minor :: rest =>
    if seen || major != 1 || !(minor = 1 || minor = 2) then none else directives true handles rest
  | seen, handles, .tagShort handle stem :: rest =>
    if (handles.lookup handle).isSome then none
    else directives seen (handles ++ [(handle, stem)]) rest
  | _, handles, rest => some (handles, rest)

/-- The first document, and the tokens behind it. -/
def first (ts : List Token) : Document × List Token :=
  let content (handles : List (String × String)) (ts : List Token) : Document × List Token :=
    let ends : List Token := [.documentStart, .documentEnd, .textEnd]
    let (d, r) := valueUnless (3 * ts.length + 3) ends true false
      { tokens := ts, handles := handles ++ standardHandles }
    (d, r.tokens)
  match ts with
  | [.textEnd] => (nothing, ts)
  | .version .. :: _ | .tagShort .. :: _ | .documentStart :: _ =>
    match directives false [] ts with
    | some (handles, .documentStart :: rest) => content handles rest
    | _ => (.broken, ts)
  | _ => content [] ts

end Yaml

/-- The first document of a YAML text, and whether there is nothing behind it. -/
def ofYaml (s : String) : Document × Bool :=
  let (d, rest) := Yaml.first (Yaml.tokens s)
  (d, (rest.dropWhile (· = .documentEnd)).head? = some .textEnd)

end EventWorker.Document
