/-!
# References to execution units

A unit is referred to by four texts, and two references are to the same unit only if all four agree.
-/

namespace EventWorker

structure UnitRef where
  /-- The namespace that the unit lives in. -/
  namespaceName : String
  /-- The name of the unit's resource. -/
  name : String
  /-- The job that the unit runs, which is also the name of its first container. -/
  job : String
  /-- The run that the unit belongs to. -/
  eventId : String
  deriving DecidableEq, Inhabited

def UnitRef.toText (u : UnitRef) : String :=
  u.namespaceName ++ "/" ++ u.name

end EventWorker
