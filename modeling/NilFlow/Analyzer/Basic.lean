import NilFlow.Program.Root
import NilFlow.Report.Diagnostics

/-!
# The analyzer

* `Analysis.program`: a package on its own, as an editor or linter presents it.
* `Analysis.run`: the diagnostics of a package under a configuration.
* `AnalysisError`: why there are none.
-/

namespace NilFlow

/-- What a driver of analyses presents: one checked package with its files and types. The syntax index of the package is
the result of another analysis, which may be missing. -/
structure Analysis where
  typing : Typing
  files : List SourceFile
  package : PackageRef
  indexed : Bool

inductive AnalysisError where
  | indexMissing
  | harvest (e : HarvestError)
deriving DecidableEq, Repr

namespace AnalysisError

def message : AnalysisError → String
  | indexMissing => "nilopt: inspect analyzer result missing"
  | harvest e => "nilopt: " ++ e.message

end AnalysisError

namespace Analysis

/-- The program of the presented package alone, which is writable. -/
def program (a : Analysis) (generated : Bool) : Program :=
  .ofPackages a.typing a.files [⟨a.package, a.files.filter (·.package = a.package.number), false⟩] generated

/-- The diagnostics of a package: everything in it is searched, and findings from the threshold on are reported. -/
def run (a : Analysis) (c : Configuration) : Except AnalysisError (List Diagnostic) :=
  if a.indexed then
    let p := a.program (c.settings.has .generated)
    match (Classifier.mk p c.settings).harvest (p.wholeRoot p.packages) none with
    | .ok h => .ok (p.diagnostics h c.threshold)
    | .error e => .error (.harvest e)
  else .error .indexMissing

end Analysis

end NilFlow
