import Remedy.Codemod.BuiltIn
import Remedy.Command.Fix
import Remedy.Command.Init
import Remedy.Command.Listing
/-!
# Carrying out a command

`perform` does what an invocation asks for, with the built-in codemods.
-/

namespace Remedy

namespace Command

/-- **Carries out a command.** -/
def perform (disk : Disk) (clock : RunClock) (cancellation : Cancellation) (i : Invocation)
    (host : Host := .willing) (readers : Readers := .standard) : Outcome :=
  match i.request with
  | .fix request => fix disk Catalog.builtIn clock cancellation request i.verbose host readers
  | .codemods true => .done disk (listingDocument Catalog.builtIn)
  | .codemods false => .done disk (listing Catalog.builtIn)
  | .init request => init disk Catalog.builtIn request host

end Command

end Remedy
