import Remedy.Codemod.HttpMethods
import Remedy.Codemod.JavaCalls
/-!
# The catalog

The codemods that a run has unless it is given others.
-/

namespace Remedy

/-- The built-in codemods, in the order that breaks ties. -/
def Catalog.builtIn : Catalog :=
  [Codemod.secureRandom, Codemod.safeContext, Codemod.checkedParse, Codemod.allMethods]

end Remedy
