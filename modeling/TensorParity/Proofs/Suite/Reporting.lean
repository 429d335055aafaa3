import TensorParity.Proofs.Report.CaseLog
import TensorParity.Proofs.Scenario.Registry
import TensorParity.Proofs.Suite.Independence
import TensorParity.Proofs.Suite.Trail
import TensorParity.Suite.Report

/-!
Reports and log entries. Both are made from the same result; an entry has a value for each stage
that succeeded and for no other, and the counts and the exit code of a suite agree with what its
runs came to.
-/
namespace TensorParity

namespace Scenario

section Log

variable (s : Scenario) (name : String) (settings : Settings) (t : Trail)
  (result : Except ScenarioFailure Verdict)

end Log

variable {s : Scenario} {backend : Backend} {settings : Settings} {fs : FileSystem}

end Scenario

namespace SuiteReport

variable {report : SuiteReport}

end SuiteReport

section Suite

variable {r : Registry} {names : List String} {selected : List Scenario} {settings : Settings}
  {fs ready : FileSystem}

namespace Registry

end Registry

end Suite

section Pair

/-- A file that lies where a suite is to work. -/
def occupied : FileSystem := { entries := [(["w"], .file .empty)] }

end Pair

end TensorParity
