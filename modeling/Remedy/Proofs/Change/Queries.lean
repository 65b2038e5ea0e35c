import Mathlib
import Remedy.Change.FileResult
import Remedy.Codemod.BuiltIn
import Remedy.Codemod.Script
import Remedy.Proofs.Change.Bids
import Remedy.Proofs.Symbols.Rearranged
/-!
# What a result asks a table

A table of symbols answers questions, and what becomes of a file depends on
the answers only: tables that are alike lead to the same result
(`FileResult.ofFindings_withSymbols`), as long as the codemods ask their
table too and do not look into it (`Codemod.OnlyAsks`). So neither the order
of the files of a project nor its broken files matter to any file
(`FileResult.same_of_rearranged`).
-/

namespace Remedy

/-! ## Codemods that ask -/

/-- **A codemod only asks its table**: tables that are alike are the same to
it. What a table holds is its own affair, and a codemod learns of it through
`SymbolTable.references`, `SymbolTable.stats` and what is told by these. -/
structure Codemod.OnlyAsks (c : Codemod) : Prop where
  locate : ∀ unit table other, SymbolTable.Alike table other →
    ∀ region, c.locate ⟨unit, table⟩ region = c.locate ⟨unit, other⟩ region
  apply : ∀ unit table other, SymbolTable.Alike table other →
    ∀ site, c.apply ⟨unit, table⟩ site = c.apply ⟨unit, other⟩ site

/-- **Scripts only ask**: they look at nothing but the text. -/
theorem Script.onlyAsks_toCodemod (s : Script) : s.toCodemod.OnlyAsks :=
  ⟨fun _ _ _ _ _ => rfl, fun _ _ _ _ _ => rfl⟩

namespace Codemod

variable {unit : SourceUnit} {table other : SymbolTable}

theorem siteNeeding_congr (h : table.Alike other) (span reference : Span) (fullName : String) :
    siteNeeding ⟨unit, table⟩ span reference fullName =
      siteNeeding ⟨unit, other⟩ span reference fullName := by
  have htype : CodemodContext.typeIs ⟨unit, table⟩ reference fullName =
      CodemodContext.typeIs ⟨unit, other⟩ reference fullName := by
    rw [CodemodContext.typeIs, h.referenceAt?]
    rfl
  rw [siteNeeding, siteNeeding, htype]

theorem weakGenerator?_congr (h : table.Alike other) (t : Java.Tree) :
    weakGenerator? ⟨unit, table⟩ t = weakGenerator? ⟨unit, other⟩ t := by
  simp only [weakGenerator?, siteNeeding_congr h]
  rfl

theorem weakProtocol?_congr (h : table.Alike other) (t : Java.Tree) :
    weakProtocol? ⟨unit, table⟩ t = weakProtocol? ⟨unit, other⟩ t := by
  simp only [weakProtocol?, siteNeeding_congr h]
  rfl

/-- Where a chain of calls starts is told by the text. -/
theorem parserRoot?_congr (fuel : Nat) (t : Java.Tree) :
    parserRoot? ⟨unit, table⟩ fuel t = parserRoot? ⟨unit, other⟩ fuel t := by
  induction fuel generalizing t with
  | zero => rfl
  | succ fuel ih =>
    simp only [parserRoot?, ih]
    rfl

theorem uncheckedParse?_congr (h : table.Alike other) (t : Java.Tree) :
    uncheckedParse? ⟨unit, table⟩ t = uncheckedParse? ⟨unit, other⟩ t := by
  have hroot := @parserRoot?_congr unit table other t.size t
  simp only [uncheckedParse?, hroot, siteNeeding_congr h]
  rfl

/-- **The built-in codemods only ask.** -/
theorem onlyAsks_of_mem_builtIn : ∀ c ∈ Catalog.builtIn, c.OnlyAsks := by
  intro c hc
  simp only [Catalog.builtIn, List.mem_cons, List.not_mem_nil, or_false] at hc
  rcases hc with rfl | rfl | rfl | rfl
  case inl =>
    refine ⟨fun unit table other h region => ?_, fun _ _ _ _ _ => rfl⟩
    exact congrArg (List.filterMap · _) (funext (weakGenerator?_congr h))
  case inr.inl =>
    refine ⟨fun unit table other h region => ?_, fun _ _ _ _ _ => rfl⟩
    exact congrArg (List.filterMap · _) (funext (weakProtocol?_congr h))
  case inr.inr.inl =>
    refine ⟨fun unit table other h region => ?_, fun _ _ _ _ _ => rfl⟩
    exact congrArg (List.filterMap · _) (funext (uncheckedParse?_congr h))
  case inr.inr.inr => exact ⟨fun _ _ _ _ _ => rfl, fun _ _ _ _ _ => rfl⟩

end Codemod

/-! ## Plans and results -/

/-- The context under another table. -/
def PlanContext.withSymbols (ctx : PlanContext) (other : SymbolTable) : PlanContext :=
  { ctx with symbols := other }

namespace Plan

variable {ctx : PlanContext} {other : SymbolTable}

theorem mem_catalog_of_mem_applicable {e : Nat × Codemod} (h : e ∈ applicable ctx) :
    e.2 ∈ ctx.catalog :=
  List.mem_of_getElem? (mem_applicable.1 h).listed

theorem answer_withSymbols (h : ctx.symbols.Alike other) {c : Codemod} (hc : c.OnlyAsks)
    (finding : Finding) (region : Span) (i : Nat) :
    answer (ctx.withSymbols other) finding region i c = answer ctx finding region i c := by
  have hsites : c.locate (view ctx) (some region) =
      c.locate (view (ctx.withSymbols other)) (some region) := hc.locate ctx.unit _ _ h _
  rw [answer, answer, hsites]

theorem ofFinding_withSymbols (h : ctx.symbols.Alike other)
    (hasks : ∀ c ∈ ctx.catalog, c.OnlyAsks) (f : Finding) :
    ofFinding (ctx.withSymbols other) f = ofFinding ctx f := by
  have hregion : f.location.region? (ctx.withSymbols other).unit = f.location.region? ctx.unit :=
    rfl
  have happlicable : applicable (ctx.withSymbols other) = applicable ctx := rfl
  rw [ofFinding, ofFinding, hregion, happlicable]
  cases f.location.region? ctx.unit with
  | none => rfl
  | some region =>
    -- the codemods that claim the finding give the same answers
    have hanswers : ∀ e ∈ (applicable ctx).filter (fun e => e.2.rules.contains f.rule),
        answer (ctx.withSymbols other) f region e.1 e.2 = answer ctx f region e.1 e.2 := by
      intro e he
      exact answer_withSymbols h
        (hasks e.2 (mem_catalog_of_mem_applicable (List.mem_of_mem_filter he))) f region e.1
    simp only
    cases hclaimants : (applicable ctx).filter fun e => e.2.rules.contains f.rule with
    | nil => rfl
    | cons e claimants =>
      rw [hclaimants] at hanswers
      simp only [List.map_congr_left hanswers]

theorem scanned_withSymbols (h : ctx.symbols.Alike other)
    (hasks : ∀ c ∈ ctx.catalog, c.OnlyAsks) :
    scanned (ctx.withSymbols other) = scanned ctx := by
  rw [scanned, scanned]
  refine List.flatMap_congr fun e he => ?_
  have hc := hasks e.2 (mem_catalog_of_mem_applicable (List.mem_of_mem_filter he))
  exact congrArg (List.map _) (hc.locate ctx.unit _ _ h none).symm

theorem sift_withSymbols (h : ctx.symbols.Alike other) (c : Candidate) :
    sift (ctx.withSymbols other) c = sift ctx c := by
  have hneed : unresolvedNeed? (ctx.withSymbols other) c.site = unresolvedNeed? ctx c.site := by
    simp only [unresolvedNeed?, h.referenceAt?]
    rfl
  rw [sift, sift, hneed]
  rfl

/-- **Alike tables lead to one plan.** -/
theorem ofFindings_withSymbols (h : ctx.symbols.Alike other)
    (hasks : ∀ c ∈ ctx.catalog, c.OnlyAsks) (findings : List Finding) :
    ofFindings (ctx.withSymbols other) findings = ofFindings ctx findings := by
  have hunit : (ctx.withSymbols other).unit = ctx.unit := rfl
  exact ofFindings_congr hunit (ofFinding_withSymbols h hasks) (scanned_withSymbols h hasks)
    fun c _ => sift_withSymbols h c

end Plan

namespace FileResult

variable {ctx : PlanContext} {other : SymbolTable}

theorem executed_withSymbols (h : ctx.symbols.Alike other)
    (hasks : ∀ c ∈ ctx.catalog, c.OnlyAsks) (findings : List Finding) :
    executed (ctx.withSymbols other) findings = executed ctx findings := by
  have houtcome : ∀ m, Execution.ofMatch? (Plan.view (ctx.withSymbols other)) ctx.catalog m =
      Execution.ofMatch? (Plan.view ctx) ctx.catalog m := by
    intro m
    rw [Execution.ofMatch?, Execution.ofMatch?]
    cases hlisted : ctx.catalog[m.codemod]? with
    | none => rfl
    | some c =>
      have hc := hasks c (List.mem_of_getElem? hlisted)
      have happly : c.apply (Plan.view (ctx.withSymbols other)) m.site =
          c.apply (Plan.view ctx) m.site := (hc.apply ctx.unit _ _ h m.site).symm
      rw [Option.map_some, Option.map_some, happly]
      rfl
  have hcatalog : (ctx.withSymbols other).catalog = ctx.catalog := rfl
  simp only [executed, Plan.ofFindings_withSymbols h hasks, Execution.ofMatches,
    Execution.outcomes, hcatalog, funext houtcome]

/-- **Alike tables lead to one result.** -/
theorem ofFindings_withSymbols (h : ctx.symbols.Alike other)
    (hasks : ∀ c ∈ ctx.catalog, c.OnlyAsks) (findings : List Finding) :
    ofFindings (ctx.withSymbols other) findings = ofFindings ctx findings := by
  have huntouched : untouched ctx.unit other = untouched ctx.unit ctx.symbols := by
    rw [untouched, untouched, h.gaps]
  have hunit : (ctx.withSymbols other).unit = ctx.unit := rfl
  have hsymbols : (ctx.withSymbols other).symbols = other := rfl
  have htext : newText (ctx.withSymbols other) findings = newText ctx findings := by
    rw [newText, newText, executed_withSymbols h hasks, hunit]
  rw [ofFindings, ofFindings, ofFindingsBy, ofFindingsBy, hunit]
  cases ctx.unit.parseError? with
  | some error => simp only [ofFailed, hunit, hsymbols, huntouched]
  | none =>
    simp only [ofParsed, hunit, hsymbols, huntouched, htext, executed_withSymbols h hasks,
      Plan.ofFindings_withSymbols h hasks]

/-- **Neither the order of files nor broken files matter.** Let the files of
a project come in another order, and let files without a tree come in or go.
Then at every path the table has the same references and gaps as before, and
every unit has the same result for any findings, under any codemods that only
ask their table. -/
theorem same_of_rearranged {units others : List SourceUnit}
    (h : SymbolTable.Rearranged units others) {catalog : Catalog}
    (hasks : ∀ c ∈ catalog, c.OnlyAsks) :
    (∀ path,
      (SymbolTable.build units).references path = (SymbolTable.build others).references path ∧
      (SymbolTable.build units).gaps path = (SymbolTable.build others).gaps path) ∧
    ∀ unit active filter findings,
      ofFindings ⟨unit, SymbolTable.build units, catalog, active, filter⟩ findings =
        ofFindings ⟨unit, SymbolTable.build others, catalog, active, filter⟩ findings := by
  have halike := SymbolTable.alike_of_rearranged h
  refine ⟨fun path => ⟨halike.references path, halike.gaps path⟩, ?_⟩
  intro unit active filter findings
  have hsame := @ofFindings_withSymbols
    ⟨unit, SymbolTable.build units, catalog, active, filter⟩ _ halike hasks findings
  exact hsame.symm

/-- A file that makes a random number generator, -/
def rolling : SourceUnit := .ofJava "Dice.java" "import java.util.*;class Dice\x7b\x7bnew Random();\x7d\x7d"

/-- a file that has nothing to do with it, -/
def besides : SourceUnit := .ofJava "Cup.java" "class Cup\x7b\x7d"

/-- and one that ends too early. -/
def cutShort : SourceUnit := .ofJava "Random.java" "package java.util;class Random\x7b"

/-- The generator is replaced wherever the broken file comes in. -/
theorem same_of_rearranged_rolling :
    SymbolTable.Rearranged [rolling, besides] [cutShort, besides, rolling] ∧
    (ofFindings ⟨rolling, SymbolTable.build [rolling, besides], .builtIn, [0, 1, 2, 3], ⟨[], []⟩⟩
      []).changes.map Change.replacement = ["java.security.SecureRandom"] ∧
    ofFindings ⟨rolling, SymbolTable.build [rolling, besides], .builtIn, [0, 1, 2, 3],
        ⟨[], []⟩⟩ [] =
      ofFindings ⟨rolling, SymbolTable.build [cutShort, besides, rolling], .builtIn,
        [0, 1, 2, 3], ⟨[], []⟩⟩ [] := by
  have hbroken : cutShort.tree? = none := by decide +kernel
  have hrearranged : SymbolTable.Rearranged [rolling, besides] [cutShort, besides, rolling] := by
    refine ⟨by decide +kernel, by decide +kernel, [rolling, besides], [], [cutShort], ?_, ?_, ?_, ?_⟩
    · exact .refl _
    · exact (List.reverse_perm [rolling, besides, cutShort])
    · exact fun u hu => by cases hu
    · exact fun u hu => by rwa [List.mem_singleton.1 hu]
  have hsame := same_of_rearranged hrearranged Codemod.onlyAsks_of_mem_builtIn
  exact ⟨hrearranged, by decide +kernel, hsame.2 rolling [0, 1, 2, 3] ⟨[], []⟩ []⟩

end FileResult

end Remedy
