/-!
# Task scripts

The shell script that runs the tasks of a job one after the other. The two shells that are known to
can be told to stop at the first failure.
-/

namespace EventWorker

/-- What a script of the shell begins with, so that it stops at the first failing task. -/
def strictMode (shell : String) : String :=
  if shell = "/bin/sh" then "set -e\n\n"
  else if shell = "/bin/bash" then "set -eo pipefail\n\n"
  else ""

def taskScript (shell : String) (tasks : List String) : String :=
  "#!" ++ shell ++ "\n\n" ++ strictMode shell ++ "\n".intercalate tasks

end EventWorker
