import EventWorker.EnvValue
import EventWorker.Resource.Pod
import EventWorker.Text.Utf8

/-!
# The credential carrier

A unit's secret carries the literal values of the environment variables of its containers, so that
they do not stand in the pod. All containers share the one secret: the variables of the first
container are kept under their own names, those of any other container under the container's name,
a dot, and theirs.

`envVars` is what the pod says about a container's environment, and `carried` what the secret has to
hold for it. Where literals are inline the pod says it all and nothing is carried.
-/

namespace EventWorker

open Resource

/-- Where literal values are put. -/
inductive LiteralMode where
  | carried
  | inline
  deriving DecidableEq, Inhabited

/-- The key that a variable's value is carried under. -/
def carrierKey (scope : Option String) (name : String) : String :=
  match scope with
  | some s => s ++ "." ++ name
  | none => name

/-- A variable of a container, as it stands in the pod. -/
def envVar (carrier : String) (mode : LiteralMode) (scope : Option String) (name : String) :
    EnvValue → EnvVar
  | .literal value =>
    match mode with
    | .inline => { name, value := some value }
    | .carried => { name, secretKey := some { name := some carrier, key := carrierKey scope name } }
  | .secretRef secret key => { name, secretKey := some { name := some secret, key } }
  | .configMapRef map key => { name, configMapKey := some { name := some map, key } }

/-- The variables of a container in the order of their names. -/
def envVars (carrier : String) (mode : LiteralMode) (scope : Option String)
    (env : Table EnvValue) : List EnvVar :=
  env.entries.map fun e => envVar carrier mode scope e.1 e.2

/-- The literals of an environment. -/
def literals (env : Table EnvValue) : List (String × String) :=
  env.entries.filterMap fun
    | (name, .literal value) => some (name, value)
    | _ => none

/-- The entries of the secret for an environment. -/
def carried (mode : LiteralMode) (scope : Option String) (env : Table EnvValue) :
    List (String × List UInt8) :=
  match mode with
  | .inline => []
  | .carried => (literals env).map fun (name, value) => (carrierKey scope name, Text.bytesOf value)

end EventWorker
