import Remedy.Files.Disk
import Remedy.Run.Error
/-!
# What a command comes to

A command leaves a disk and a printed text, and may have failed. What it
did before it failed stays.
-/

namespace Remedy

namespace Command

/-- What a command comes to. -/
structure Outcome where
  disk : Disk
  printed : String
  failure : Option RunError
deriving Repr

namespace Outcome

/-- A command that printed a text. -/
def done (disk : Disk) (printed : String) : Outcome := ⟨disk, printed, none⟩

/-- A command that failed before it printed anything. -/
def failed (disk : Disk) (error : RunError) : Outcome := ⟨disk, "", some error⟩

/-- A command that failed because of a fault of the disk. -/
def faulty (disk : Disk) (fault : FileFault) : Outcome := failed disk (.failed [fault.message])

end Outcome

end Command

end Remedy
