import Remedy.Codemod.Basic
import Remedy.Text.Search
/-!
# Codemods by script

A codemod that is given by data: a text to look for and what to do where
it occurs. With these a plan can be tried out under any priorities, rules
and failures.
-/

namespace Remedy

/-- What a script does at a site. -/
inductive ScriptAction where
  /-- It fails. -/
  | refuse (refusal : Refusal)
  /-- It puts a text in place of the site, the ends of which may be moved. -/
  | replace (text : String) (moveStart moveStop : Int)
deriving DecidableEq, Repr

/-- A codemod as data. -/
structure Script where
  id : String
  needle : String
  rules : List String
  priority : Int
  scans : Bool
  /-- Each site is a type name that has to be resolved. -/
  resolves : Bool
  /-- A site has to lie within a region, not only touch it. -/
  contained : Bool
  /-- How the path of a file ends that the script applies to. -/
  ending : String
  action : ScriptAction
  description : Option String
deriving Repr

namespace Script

/-- An offset moved to either side, not below zero. -/
def moved (offset : Nat) (amount : Int) : Nat := ((offset : Int) + amount).toNat

/-- The sites of a text. -/
def sites (s : Script) (text : String) (region : Option Span) : List Site :=
  let inRegion (span : Span) : Bool :=
    region.all fun r => if s.contained then r.contains span else span.touches r
  ((Text.occurrences text s.needle).filter inRegion).map fun span =>
    ⟨span, if s.resolves then [span] else []⟩

/-- What the script makes of a site. -/
def outcome (s : Script) (site : Site) : Except Refusal Replacement :=
  match s.action with
  | .refuse refusal => .error refusal
  | .replace text moveStart moveStop =>
    .ok ⟨⟨moved site.span.start moveStart, moved site.span.stop moveStop⟩, text, s.description⟩

/-- **The codemod of a script.** -/
def toCodemod (s : Script) : Codemod where
  id := s.id
  version := "0.0.1"
  summary := "scripted"
  priority := s.priority
  rules := s.rules
  scans := s.scans
  needsResolution := s.resolves
  appliesTo := fun unit => s.ending.toList.isSuffixOf unit.path.text.toList
  locate := fun ctx region => s.sites ctx.unit.text region
  apply := fun _ site => s.outcome site

end Script

end Remedy
