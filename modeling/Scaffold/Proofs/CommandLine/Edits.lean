import Scaffold.CommandLine.Run
import Scaffold.Proofs.Manifest.Editing
import Scaffold.Proofs.Manifest.Saving

/-!
Commands that change the manifest. One that does not come to its end leaves all files as they were,
unless it adds a call with a parameter that has no JSON form: then the manifest is cut short, since its
file has been opened before.
-/

namespace Scaffold

open Manifest

/-! ### Edits of storable manifests -/

namespace Manifest

variable {manifest after : Manifest} {draft : Call.Draft} {now : Instant} {id : String} {call : Call}

end Manifest

namespace CommandLine

deriving instance DecidableEq for ParamSource, Command, Request

variable {setting : Setting} {session : Session}

/-- The end of a command that changes the manifest: it is saved, and a line says so. -/
def report (manifest : Manifest) (line : String) : Job Bool := do
  Job.save manifest
  Job.say line
  return true

section Dates

end Dates

end CommandLine

end Scaffold
