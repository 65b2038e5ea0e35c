import Remedy.Codemod.Basic
import Remedy.Json.Printer
/-!
# The listing of a catalog

Codemods are listed for readers, or as a document.
-/

namespace Remedy

namespace Command

/-- How a codemod finds its sites. -/
def modeName (c : Codemod) : String := if c.scans then "pattern" else "findings"

/-- The lines of one codemod. -/
def listingLines (c : Codemod) : List String :=
  [s!"  {c.id} {c.version} ({modeName c}, priority {c.priority})", s!"      {c.summary}"] ++
    (if c.rules.isEmpty then [] else ["      Rules: " ++ ", ".intercalate c.rules]) ++ [""]

/-- **The listing for readers.** -/
def listing (catalog : Catalog) : String :=
  String.join (("" :: catalog.flatMap listingLines).map (· ++ "\n"))

/-- One codemod as a document. -/
def listingEntry (c : Codemod) : Json :=
  .object
    [ ("id", .string c.id),
      ("priority", .number (if 0 ≤ c.priority then .natural c.priority.toNat
        else .negative c.priority.natAbs)),
      ("requires_resolution", .bool c.needsResolution),
      ("rules", .strings c.rules),
      ("scans", .bool c.scans),
      ("summary", .string c.summary),
      ("version", .string c.version) ]

/-- **The listing as a document.** -/
def listingDocument (catalog : Catalog) : String :=
  (Json.array (catalog.map listingEntry)).pretty ++ "\n"

end Command

end Remedy
