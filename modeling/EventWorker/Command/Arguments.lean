/-!
# Command lines

What the worker is called with. There are two commands: to run an event, and to validate a file of
handlers. An option has a long name and may have its value behind an equals sign or as the next word;
it is given at most once, and a word that begins with a dash is never its value. Words are taken one by
one, and the first that is wrong, or that asks for help, decides.
-/

namespace EventWorker

/-- Where jobs are run. -/
inductive RunMode where
  | pod
  | api
  | idle
  deriving DecidableEq, Inhabited

namespace RunMode

def ofName? (s : String) : Option RunMode :=
  if s = "pod" then some pod
  else if s = "api" then some api
  else if s = "noop" then some idle
  else none

end RunMode

structure RunArguments where
  handlers : String
  descriptor : Option String := none
  mode : RunMode := .pod
  /-- Units are watched by subscribing to their phases. -/
  streaming : Bool := false
  /-- The time between two looks at a unit, in seconds. -/
  pollSeconds : Option Nat := none
  dryRun : Bool := false
  exitOnError : Bool := false
  deriving DecidableEq

inductive Command where
  | run (a : RunArguments)
  | validate (handlers : String) (descriptor : Option String)
  deriving DecidableEq

/-- What a command line asks for. -/
inductive Invocation where
  | command (c : Command)
  | help
  | version
  /-- It makes no sense. -/
  | misuse
  deriving DecidableEq

namespace Arguments

/-- The options that a command knows. -/
structure Options where
  /-- Options with a value, each with a check of it. -/
  valued : List (String × (String → Bool)) := []
  flags : List String := []
  /-- How many words without a name are wanted. -/
  words : Nat := 0

/-- What has been taken from a command line. -/
structure Taken where
  values : List (String × String) := []
  flags : List String := []
  words : List String := []

namespace Taken

def value? (t : Taken) (name : String) : Option String :=
  t.values.lookup name

def has (t : Taken) (name : String) : Bool :=
  t.flags.contains name

end Taken

/-- A word that could be an option. -/
def isDashed (word : String) : Bool :=
  word.startsWith "-" && word != "-"

def takeWord (o : Options) (word : String) (t : Taken) : Option Taken :=
  if t.words.length < o.words && !word.isEmpty then some { t with words := t.words ++ [word] }
  else none

def takeValue (o : Options) (name value : String) (t : Taken) : Option Taken :=
  match o.valued.lookup name with
  | some fits =>
    if (t.value? name).isNone && fits value then some { t with values := (name, value) :: t.values }
    else none
  | none => none

def takeFlag (o : Options) (name : String) (t : Taken) : Option Taken :=
  if o.flags.contains name && !t.has name then some { t with flags := name :: t.flags } else none

/-- The name of a long option, and its value where an equals sign stands behind the name. -/
def splitOption (word : String) : String × Option String :=
  let cs := word.toList
  match cs.dropWhile (· ≠ '=') with
  | [] => (word, none)
  | _ :: value => (String.ofList (cs.takeWhile (· ≠ '=')), some (String.ofList value))

def orMisuse {α : Type} : Option α → Except Invocation α
  | some a => .ok a
  | none => .error .misuse

/-- Takes all words, where `pending` is an option that waits for its value. -/
def take (o : Options) : (pending : Option String) → List String → Taken → Except Invocation Taken
  | none, [], t => .ok t
  | some _, [], _ => .error .misuse
  | some name, word :: rest, t =>
    if isDashed word then .error .misuse
    else do
      let t ← orMisuse (takeValue o name word t)
      take o none rest t
  | none, word :: rest, t =>
    if word = "--" then orMisuse (rest.foldlM (fun t w => takeWord o w t) t)
    else if word = "--help" || (word.startsWith "-h" && word != "-") then .error .help
    else if word.startsWith "--" then
      match splitOption word with
      | (name, some value) => do
        let t ← orMisuse (takeValue o name value t)
        take o none rest t
      | (name, none) =>
        if o.flags.contains name then do
          let t ← orMisuse (takeFlag o name t)
          take o none rest t
        else if (o.valued.lookup name).isSome then take o (some name) rest t
        else .error .misuse
    else if isDashed word then .error .misuse
    else do
      let t ← orMisuse (takeWord o word t)
      take o none rest t

/-- A number without a sign, or with a plus sign, below 2⁶⁴. -/
def number? (s : String) : Option Nat :=
  let digits := match s.toList with
    | '+' :: cs => cs
    | cs => cs
  if digits.isEmpty || !digits.all Char.isDigit then none
  else
    let n := digits.foldl (fun n c => n * 10 + (c.toNat - 48)) 0
    if n < UInt64.size then some n else none

def isGiven (s : String) : Bool :=
  !s.isEmpty

def runOptions : Options where
  valued := [("--handlers", isGiven), ("--descriptor", isGiven),
    ("--mode", fun s => (RunMode.ofName? s).isSome),
    ("--watch", fun s => s = "poll" || s = "stream"),
    ("--poll-interval", fun s => (number? s).isSome)]
  flags := ["--dry-run", "--exit-on-error"]

def validateOptions : Options where
  valued := [("--descriptor", isGiven)]
  words := 1

def runCommand (words : List String) : Except Invocation Command := do
  let t ← take runOptions none words {}
  match t.value? "--handlers" with
  | none => throw .misuse
  | some handlers => return .run {
      handlers
      descriptor := t.value? "--descriptor"
      mode := ((t.value? "--mode").bind RunMode.ofName?).getD .pod
      streaming := t.value? "--watch" = some "stream"
      pollSeconds := (t.value? "--poll-interval").bind number?
      dryRun := t.has "--dry-run"
      exitOnError := t.has "--exit-on-error" }

def validateCommand (words : List String) : Except Invocation Command := do
  let t ← take validateOptions none words {}
  match t.words with
  | [handlers] => return .validate handlers (t.value? "--descriptor")
  | _ => throw .misuse

/-- Help may be asked for about one command. -/
def helpOn : List String → Invocation
  | [] => .help
  | [name] => if ["run", "validate", "help"].contains name then .help else .misuse
  | _ => .misuse

def Invocation.ofResult : Except Invocation Command → Invocation
  | .ok c => .command c
  | .error i => i

end Arguments

open Arguments in
/-- What a command line asks for. -/
def Invocation.ofWords : List String → Invocation
  | "run" :: rest => Invocation.ofResult (runCommand rest)
  | "validate" :: rest => Invocation.ofResult (validateCommand rest)
  | "help" :: rest => helpOn rest
  | word :: _ =>
    if word = "--help" || (word.startsWith "-h" && word != "-") then .help
    else if word = "--version" || word.startsWith "-V" then .version
    else .misuse
  | [] => .misuse

end EventWorker
