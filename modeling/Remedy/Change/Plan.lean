import Remedy.Change.Match
import Remedy.Pattern.PathFilter
/-!
# Planning the changes of a file

Findings and scans ask codemods for sites. Every pair of a codemod and a
span is one candidate, however often it is asked for. Candidates that
patterns keep out or whose types are not resolved are turned away. The
others are ranked, by priority first, and accepted one after the other
unless they overlap one that was accepted before.
-/

namespace Remedy

namespace Location

/-- The span between two ends, if it runs forwards between characters of a
text. -/
def textSpan? (text : String) (start stop : Nat) : Option Span :=
  if start ≤ stop ∧ stop ≤ text.utf8ByteSize ∧ Text.isBoundary text start ∧
      Text.isBoundary text stop then some ⟨start, stop⟩
  else none

/-- The span that the bytes of a location give. -/
def byteRegion? (unit : SourceUnit) (l : Location) : Option Span := do
  let bytes ← l.bytes
  let start ← unit.encoding.textOffset? bytes.start
  let stop ← unit.encoding.textOffset? bytes.stop
  textSpan? unit.text start stop

/-- The span that the lines and columns of a location give. An end outside
the file is the end of the file. -/
def lineRegion? (unit : SourceUnit) (l : Location) : Option Span := do
  let lines := unit.lines
  let start ← lines.offset? l.start l.columns
  let stop := (lines.offset? l.stop l.columns).getD unit.text.utf8ByteSize
  some ⟨start, max stop start⟩

/-- **The span of a file that a location means**: by its bytes if they fit,
otherwise by its lines and columns. -/
def region? (unit : SourceUnit) (l : Location) : Option Span :=
  (l.byteRegion? unit).or (l.lineRegion? unit)

end Location

/-- What the planning of a file works with. -/
structure PlanContext where
  unit : SourceUnit
  symbols : SymbolTable
  catalog : Catalog
  active : List Nat
  filter : PathFilter

/-- A codemod asks for a site, for a finding or in a scan. -/
structure Bid where
  codemod : Nat
  site : Site
  finding : Option String
deriving DecidableEq, Repr

/-- All bids for one span by one codemod. -/
structure Candidate where
  codemod : Nat
  site : Site
  findings : List String
deriving DecidableEq, Repr

/-- The matches of a file in the order of their spans, and what was turned
away. -/
structure Plan where
  accepted : List Match
  skipped : List Skip
deriving Repr

namespace Plan

/-- What a codemod sees of the file. -/
def view (ctx : PlanContext) : CodemodContext := ⟨ctx.unit, ctx.symbols⟩

/-- The codemods that take part and apply to the file, with their places. -/
def applicable (ctx : PlanContext) : List (Nat × Codemod) :=
  ctx.active.filterMap fun i =>
    match ctx.catalog[i]? with
    | some c => if c.appliesTo ctx.unit then some (i, c) else none
    | none => none

/-- What a codemod answers to a finding on a region: bids for its sites, or
a skip if there are none. -/
def answer (ctx : PlanContext) (finding : Finding) (region : Span) (i : Nat) (c : Codemod) :
    List Bid × List Skip :=
  match c.locate (view ctx) (some region) with
  | [] => ([], [Skip.ofFinding finding .noTarget (some c.id) none])
  | sites => (sites.map fun s => ⟨i, s, some finding.id⟩, [])

/-- What comes of a finding: bids, or skips that say why there are none. -/
def ofFinding (ctx : PlanContext) (finding : Finding) : List Bid × List Skip :=
  match finding.location.region? ctx.unit with
  | none => ([], [Skip.ofFinding finding .noTarget none (some "location is outside the file")])
  | some region =>
    match (applicable ctx).filter fun (_, c) => c.rules.contains finding.rule with
    | [] => ([], [Skip.ofFinding finding .noCodemod none none])
    | claimants =>
      let answers := claimants.map fun (i, c) => answer ctx finding region i c
      (answers.flatMap (·.1), answers.flatMap (·.2))

/-- The bids of the codemods that look for sites on their own. -/
def scanned (ctx : PlanContext) : List Bid :=
  ((applicable ctx).filter fun (_, c) => c.scans).flatMap fun (i, c) =>
    (c.locate (view ctx) none).map fun s => ⟨i, s, none⟩

/-- The order of candidates: by codemod, then by span. -/
def orderKeys (i : Nat) (s : Span) (j : Nat) (t : Span) : Ordering :=
  (compare i j).then (s.order t)

/-- Enters a bid among candidates in order. The site that was asked for
first stays. -/
def enter (bid : Bid) : List Candidate → List Candidate
  | [] => [⟨bid.codemod, bid.site, bid.finding.toList⟩]
  | c :: rest =>
    match orderKeys bid.codemod bid.site.span c.codemod c.site.span with
    | .eq => { c with findings := c.findings ++ bid.finding.toList } :: rest
    | .lt => ⟨bid.codemod, bid.site, bid.finding.toList⟩ :: c :: rest
    | .gt => c :: enter bid rest

/-- The candidates of all bids. -/
def candidates (bids : List Bid) : List Candidate :=
  bids.foldl (fun done bid => enter bid done) []

/-- Texts in order, each once. -/
def sortedIds (ids : List String) : List String := (ids.mergeSort (· ≤ ·)).eraseReps

/-- The name of the first type that a site needs and that is not
resolved. -/
def unresolvedNeed? (ctx : PlanContext) (site : Site) : Option String :=
  site.needs.findSome? fun need =>
    match ctx.symbols.referenceAt? ctx.unit.path need with
    | some r => if r.resolution.gap?.isSome then some r.name else none
    | none => some ((ctx.unit.slice? need).getD "")

/-- The match of a candidate. -/
def toMatch (ctx : PlanContext) (c : Candidate) : Match :=
  let codemod := (ctx.catalog[c.codemod]?).getD default
  ⟨c.codemod, codemod.id, codemod.priority, c.site, sortedIds c.findings⟩

/-- A candidate as a match, or the skip that it ends in. -/
def sift (ctx : PlanContext) (c : Candidate) : Except Skip Match :=
  let codemod := (ctx.catalog[c.codemod]?).getD default
  let line := (ctx.unit.position c.site.span.start).line + 1
  if !ctx.filter.allowsLine ctx.unit.path line then
    .error (Skip.ofMatch (toMatch ctx c) ctx.unit .excluded none)
  else
    match if codemod.needsResolution then unresolvedNeed? ctx c.site else none with
    | some name => .error (Skip.ofMatch (toMatch ctx c) ctx.unit .resolutionGap (some name))
    | none => .ok (toMatch ctx c)

/-- The order in which matches are considered: higher priority first, then
as they stand in the file. -/
def orderByRank (a b : Match) : Ordering :=
  (compare b.priority a.priority).then (a.order b)

/-- Takes up a match unless it overlaps one that was taken up before. -/
def accept (unit : SourceUnit) (done : List Match × List Skip) (m : Match) :
    List Match × List Skip :=
  match done.1.find? fun a => a.site.span.overlaps m.site.span with
  | some winner =>
    let detail := s!"overlaps change from {winner.codemodId}"
    (done.1, done.2 ++ [Skip.ofMatch m unit .conflict (some detail)])
  | none => (done.1 ++ [m], done.2)

/-- The matches that hold their ground, and the conflicts of the others. -/
def settle (unit : SourceUnit) (found : List Match) : List Match × List Skip :=
  (found.mergeSort fun a b => (orderByRank a b).isLE).foldl (accept unit) ([], [])

/-- All bids for the findings on a file. -/
def bids (ctx : PlanContext) (findings : List Finding) : List Bid :=
  (findings.map (ofFinding ctx)).flatMap (·.1) ++ scanned ctx

/-- All candidates of a file, as matches or as skips. -/
def sifted (ctx : PlanContext) (findings : List Finding) : List (Except Skip Match) :=
  (candidates (bids ctx findings)).map (sift ctx)

/-- The matches that compete for their sites. -/
def found (ctx : PlanContext) (findings : List Finding) : List Match :=
  (sifted ctx findings).filterMap Except.toOption

/-- The candidates that were turned away. -/
def turnedAway (ctx : PlanContext) (findings : List Finding) : List Skip :=
  (sifted ctx findings).filterMap fun
    | .error skip => some skip
    | .ok _ => none

/-- **The plan of a file** for the findings on it. -/
def ofFindings (ctx : PlanContext) (findings : List Finding) : Plan :=
  let (accepted, conflicts) := settle ctx.unit (found ctx findings)
  { accepted := accepted.mergeSort fun a b => (a.order b).isLE
    skipped := Skip.sorted ((findings.map (ofFinding ctx)).flatMap (·.2) ++
      turnedAway ctx findings ++ conflicts) }

end Plan

end Remedy
