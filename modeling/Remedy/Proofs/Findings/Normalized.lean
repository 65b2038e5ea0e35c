import Mathlib
import Remedy.Proofs.Findings.Placed
/-!
# Reports are normalized in full

A document that its format accepts is read from its first result to its last
one. Each result comes to one finding with a well-formed location, or it is
void: it is dropped and counted, for one of few reasons
(`Sarif.Result.Void`). Counting the dropped ones step by step never leaves
the range of a number that can hold how many results there are
(`Guarded.gather_eq`).
-/

namespace Remedy

namespace Sarif

variable {root : Path} {run : Run} {result : Result} {rules : List Rule} {f : Finding}
  {columns : ColumnUnit} {tool : String}

/-! ## Results -/

/-- The ways in which a result can name its rule. -/
inductive Route where
  /-- by its own rule id -/
  | id
  /-- by the id of its rule reference -/
  | referenceId
  /-- by its own index among the rules of the tool -/
  | index
  /-- by the index of its rule reference -/
  | referenceIndex
deriving DecidableEq

/-- All four ways. -/
def Route.all : List Route := [.id, .referenceId, .index, .referenceIndex]

/-- The rule id that a result gives on a route. -/
def Route.id? (rules : List Rule) (result : Result) : Route → Option String
  | .id => result.ruleId
  | .referenceId => result.rule.bind RuleReference.id
  | .index => result.ruleIndex.bind fun i => rules[i]?.map Rule.id
  | .referenceIndex => (result.rule.bind RuleReference.index).bind fun i => rules[i]?.map Rule.id

namespace Result

/-- The routes that count for a result: the index of a reference does if the
result has no index of its own. -/
def routes (result : Result) : List Route :=
  [.id, .referenceId, .index] ++ if result.ruleIndex = none then [.referenceIndex] else []

/-- The file that the first place of a result tells. -/
def uri? (result : Result) : Option String := result.places.head?.join.bind Place.uri

/-- The region that the first place of a result tells. -/
def region? (result : Result) : Option Region := result.places.head?.join.bind Place.region

/-- **A result is void**: none of the routes leads to a rule id, or it tells
no file, no region, or a region that means no place. -/
inductive Void (routes : List Route) (rules : List Rule) (result : Result) : Prop where
  | nameless (h : ∀ route ∈ routes, route.id? rules result = none)
  | noUri (h : result.uri? = none)
  | noRegion (h : result.region? = none)
  | noPlace {region : Region} (h : result.region? = some region) (hvoid : region.Void)

/-- The finding of a result of a run. -/
def ofRun? (root : Path) (ran : Run × Result) : Option Finding :=
  ran.2.finding? root (Text.lowerAscii ran.1.driver.name) ran.1.driver.rules ran.1.columns

theorem Fits.of_region? {region : Region} (hfits : result.Fits)
    (h : result.region? = some region) : region.Fits := by
  obtain ⟨place, hplace, hregion⟩ := Option.bind_eq_some_iff.1 h
  exact hfits place (List.mem_of_head? (Option.join_eq_some_iff.1 hplace)) region hregion

/-- **A finding tells a result** of a run. -/
structure Tells (root : Path) (run : Run) (result : Result) (f : Finding) : Prop where
  tool : f.tool = Text.lowerAscii run.driver.name
  rule : result.routes.findSome? (·.id? run.driver.rules result) = some f.rule
  path : ∃ uri, result.uri? = some uri ∧ f.path = ReportPath.normalize uri root
  location : ∃ region, result.region? = some region ∧
    region.location? run.columns = some f.location

/-- **What a result of a run comes to**: a finding that tells it, or nothing if
it is void. -/
inductive Comes (root : Path) : Run × Result → Option Finding → Prop where
  | told {run : Run} {result : Result} {f : Finding}
    (hvoid : ¬ result.Void result.routes run.driver.rules) (h : result.Tells root run f) :
    Comes root (run, result) (some f)
  | dropped {run : Run} {result : Result}
    (hvoid : result.Void result.routes run.driver.rules) : Comes root (run, result) none

theorem rule?_eq (result : Result) (rules : List Rule) :
    result.rule? rules = result.routes.findSome? (·.id? rules result) := by
  have hor (route : Route) (routes : List Route) :
      (route :: routes).findSome? (·.id? rules result) =
        (route.id? rules result).or (routes.findSome? (·.id? rules result)) := by
    rw [List.findSome?_cons]
    cases route.id? rules result <;> rfl
  rw [rule?, routes]
  cases hindex : result.ruleIndex with
  | none =>
    simp only [if_true, List.cons_append, List.nil_append, hor, List.findSome?_nil, Option.or_none]
    simp only [Route.id?, hindex, Option.or_assoc, Option.none_or, Option.bind_none]
  | some i =>
    simp only [reduceCtorEq, if_false, List.append_nil, hor, List.findSome?_nil, Option.or_none]
    simp only [Route.id?, hindex, Option.or_assoc, Option.some_or, Option.bind_some]

/-- The finding of a result, from its parts. -/
theorem finding?_eq (result : Result) (root : Path) (tool : String) (rules : List Rule)
    (columns : ColumnUnit) : result.finding? root tool rules columns =
      (result.rule? rules).bind fun rule => result.uri?.bind fun uri =>
        (result.region?.bind (·.location? columns)).bind fun location =>
          some (ParsedReport.finding tool rule uri root location
            (result.severity (rules.find? (·.id = rule))) result.message
            (result.properties.getD [])) := by
  rw [finding?, uri?, region?]
  cases result.rule? rules with
  | none => rfl
  | some rule =>
    cases result.places.head?.join with
    | none => rfl
    | some place =>
      cases huri : place.uri with
      | none => simp [huri]
      | some uri =>
        simp only [huri, Option.bind_eq_bind, Option.bind_some]
        cases place.region <;> rfl

/-- **A result has no finding** just if it is void. -/
theorem ofRun?_eq_none_iff {ran : Run × Result} :
    ofRun? root ran = none ↔ ran.2.Void ran.2.routes ran.1.driver.rules := by
  rw [ofRun?, finding?_eq, rule?_eq]
  constructor
  · intro h
    -- the parts that a finding needs, one after the other: the first that is missing tells why
    cases hrule : ran.2.routes.findSome? (·.id? ran.1.driver.rules ran.2) with
    | none => exact .nameless (List.findSome?_eq_none_iff.1 hrule)
    | some rule =>
      cases huri : ran.2.uri? with
      | none => exact .noUri huri
      | some uri =>
        cases hregion : ran.2.region? with
        | none => exact .noRegion hregion
        | some region =>
          rw [hrule, huri, hregion] at h
          cases hlocation : region.location? ran.1.columns with
          | none => exact .noPlace hregion (Region.location?_eq_none_iff.1 hlocation)
          | some location =>
            rw [Option.bind_some, Option.bind_some, Option.bind_some, hlocation] at h
            cases h
  · rintro (h | h | h | ⟨h, hvoid⟩)
    · rw [List.findSome?_eq_none_iff.2 h]
      rfl
    · rw [h]
      exact Option.bind_fun_none _
    · rw [h]
      simp
    · rw [h, Option.bind_some, Region.location?_eq_none_iff.2 hvoid]
      simp

/-- **Each result comes to what it is said to come to.** -/
theorem comes_ofRun? (root : Path) (ran : Run × Result) : Comes root ran (ofRun? root ran) := by
  obtain ⟨run, result⟩ := ran
  cases h : ofRun? root (run, result) with
  | none => exact .dropped (ofRun?_eq_none_iff.1 h)
  | some f =>
    refine .told (fun hvoid => ?_) ?_
    · rw [ofRun?_eq_none_iff.2 hvoid] at h
      cases h
    · rw [ofRun?, finding?_eq, rule?_eq] at h
      obtain ⟨rule, hrule, h⟩ := Option.bind_eq_some_iff.1 h
      obtain ⟨uri, huri, h⟩ := Option.bind_eq_some_iff.1 h
      obtain ⟨location, hlocation, h⟩ := Option.bind_eq_some_iff.1 h
      obtain ⟨region, hregion, hlocation⟩ := Option.bind_eq_some_iff.1 hlocation
      obtain rfl := Option.some.inj h
      exact ⟨rfl, hrule, ⟨uri, huri, rfl⟩, ⟨region, hregion, hlocation⟩⟩

end Result

/-- The results of all runs, in order. -/
def results (runs : List Run) : List (Run × Result) :=
  runs.flatMap fun run => (run.results.getD []).map (run, ·)

/-- All results are found or dropped. -/
theorem length_filterMap_add_countP {α β : Type} (f : α → Option β) (as : List α) :
    (as.filterMap f).length + as.countP (fun a => (f a).isNone) = as.length := by
  rw [List.length_filterMap_eq_countP, List.length_eq_countP_add_countP fun a => (f a).isSome]
  congr 2
  funext a
  cases f a <;> rfl

theorem Run.findings_eq (run : Run) (root : Path) : run.findings root =
    ((run.results.getD []).filterMap fun result => Result.ofRun? root (run, result),
      (run.results.getD []).countP fun result => (Result.ofRun? root (run, result)).isNone) := by
  have hlength := length_filterMap_add_countP (fun result => Result.ofRun? root (run, result))
    (run.results.getD [])
  rw [Run.findings]
  refine Prod.ext rfl ?_
  exact Nat.sub_eq_of_eq_add' hlength.symm

/-- A log that is accepted was read, and its results are taken in order. -/
theorem exists_of_parse {doc : Json} {parsed : ParsedReport} (h : parse root doc = .ok parsed) :
    ∃ runs, readLog doc = .ok runs ∧
      parsed.findings = (results runs).filterMap (Result.ofRun? root) ∧
      parsed.dropped = (results runs).countP fun ran => (Result.ofRun? root ran).isNone := by
  obtain ⟨runs, hruns, h⟩ := exists_of_bind_eq_ok h
  refine ⟨runs, Returns.mapError (p := (readLog doc = .ok ·)) (fun _ h => h) runs hruns, ?_⟩
  dsimp only at h
  split at h
  case isTrue => cases h
  case isFalse =>
    obtain rfl := Except.ok.inj h
    simp only [Run.findings_eq, results, List.filterMap_flatMap, List.countP_flatMap,
      List.flatMap_map, List.filterMap_map, List.map_map, List.sum_eq_foldr]
    refine ⟨rfl, ?_⟩
    congr 2
    funext run
    simp only [Function.comp_apply, List.countP_map]
    rfl

end Sarif

/-! ## Step by step -/

namespace Guarded

open Sarif

variable {root : Path} {room : Nat}

/-- The finding of a result of a run, with the location computed step by
step. -/
def ofRun? (root : Path) (ran : Run × Result) : Except Halt (Option Finding) :=
  match ran.2.rule? ran.1.driver.rules with
  | none => .ok none
  | some rule => do
    let location ← match ran.2.region? with
      | none => .ok none
      | some region => location? region ran.1.columns
    .ok <| ran.2.uri?.bind fun uri => location.bind fun location =>
      some (ParsedReport.finding (Text.lowerAscii ran.1.driver.name) rule uri root location
        (ran.2.severity (ran.1.driver.rules.find? (·.id = rule))) ran.2.message
        (ran.2.properties.getD []))

/-- One result, after the findings and the number of dropped results so far. -/
def gatherResult (room : Nat) (root : Path) (seen : List Finding × Nat) (ran : Run × Result) :
    Except Halt (List Finding × Nat) := do
  match ← ofRun? root ran with
  | some f => .ok (seen.1 ++ [f], seen.2)
  | none => do
    let dropped ← add room seen.2 1
    .ok (seen.1, dropped)

/-- The findings of runs and the number of their dropped results. -/
def gather (room : Nat) (root : Path) (runs : List Run) : Except Halt (List Finding × Nat) :=
  (results runs).foldlM (gatherResult room root) ([], 0)

theorem ofRun?_eq {ran : Run × Result} (hfits : ran.2.Fits) :
    ofRun? root ran = .ok (Result.ofRun? root ran) := by
  rw [ofRun?, Result.ofRun?, Result.finding?_eq]
  cases ran.2.rule? ran.1.driver.rules with
  | none => rfl
  | some rule =>
    cases hregion : ran.2.region? with
    | none => rfl
    | some region =>
      simp only [location?_eq (hfits.of_region? hregion)]
      rfl

/-- What is gathered of one result. -/
theorem gatherResult_eq {ran : Run × Result} (hfits : ran.2.Fits) {seen : List Finding × Nat}
    (hroom : seen.2 < room) : gatherResult room root seen ran =
      .ok (seen.1 ++ (Result.ofRun? root ran).toList,
        seen.2 + if (Result.ofRun? root ran).isNone then 1 else 0) := by
  rw [gatherResult, ofRun?_eq hfits]
  cases Result.ofRun? root ran with
  | some f => rfl
  | none =>
    simp only [bind, Except.bind, add, if_pos (Nat.succ_le_of_lt hroom), Option.toList_none,
      List.append_nil, Option.isNone_none, if_true]

/-- What is gathered of results. -/
theorem foldlM_gatherResult_eq {rans : List (Run × Result)} (hfits : ∀ ran ∈ rans, ran.2.Fits)
    {seen : List Finding × Nat} (hroom : seen.2 + rans.length ≤ room) :
    rans.foldlM (gatherResult room root) seen =
      .ok (seen.1 ++ rans.filterMap (Result.ofRun? root),
        seen.2 + rans.countP fun ran => (Result.ofRun? root ran).isNone) := by
  induction rans generalizing seen with
  | nil =>
    rw [List.filterMap_nil, List.append_nil]
    rfl
  | cons ran rans ih =>
    obtain ⟨hran, hrans⟩ := List.forall_mem_cons.1 hfits
    rw [List.length_cons] at hroom
    -- one result drops at most one, so there is room left for the others
    rw [List.foldlM_cons, gatherResult_eq hran (by omega)]
    simp only [bind, Except.bind]
    rw [ih hrans (by dsimp only; split <;> omega)]
    rw [List.filterMap_cons, List.countP_cons, List.append_assoc, Nat.add_assoc]
    cases Result.ofRun? root ran with
    | some f => simp
    | none => simp [Nat.add_comm]

/-- **No step leaves its range** where the regions fit, and there is room for
the number of results. -/
theorem gather_eq {runs : List Run} (hfits : ∀ ran ∈ results runs, ran.2.Fits)
    (hroom : (results runs).length ≤ room) : gather room root runs =
      .ok ((results runs).filterMap (Result.ofRun? root),
        (results runs).countP fun ran => (Result.ofRun? root ran).isNone) := by
  rw [gather, foldlM_gatherResult_eq hfits (by rwa [Nat.zero_add]), List.nil_append, Nat.zero_add]

end Guarded

/-! ## Reports in full -/

/-- **The runs of a log are normalized.** Their regions fit, so that no step of
the reading leaves its range; each result comes in its turn to one finding or
to none, and those that come to none are counted. -/
structure Sarif.Normalized (root : Path) (runs : List Run) (parsed : ParsedReport) : Prop where
  fits : ∀ ran ∈ results runs, ran.2.Fits
  total : ∀ room, (results runs).length ≤ room →
    Guarded.gather room root runs = .ok (parsed.findings, parsed.dropped)
  wellFormed : ∀ f ∈ parsed.findings, f.location.WellFormed
  inOrder : ∃ outcomes, List.Forall₂ (Result.Comes root) (results runs) outcomes ∧
    parsed.findings = outcomes.reduceOption
  counted : parsed.findings.length + parsed.dropped = (results runs).length

/-- A finding tells a result of Semgrep. -/
structure Semgrep.Result.Tells (root : Path) (result : Semgrep.Result) (f : Finding) : Prop where
  tool : f.tool = "semgrep"
  rule : f.rule = result.rule
  path : f.path = ReportPath.normalize result.path root
  location : f.location = result.location

/-- **The results of an output of Semgrep are normalized.** Their marks fit;
they are counted from zero by differences that stop there. Each result comes
in its turn to one finding. -/
structure Semgrep.Normalized (root : Path) (results : List Result) (parsed : ParsedReport) :
    Prop where
  fits : ∀ result ∈ results, ∀ mark ∈ [result.start, result.stop], mark.Fits
  wellFormed : ∀ f ∈ parsed.findings, f.location.WellFormed
  inOrder : List.Forall₂ (Result.Tells root) results parsed.findings
  counted : parsed.findings.length + parsed.dropped = results.length

theorem Sarif.normalized_of_parse {root : Path} {doc : Json} {parsed : ParsedReport}
    (h : parse root doc = .ok parsed) :
    ∃ runs, readLog doc = .ok runs ∧ Normalized root runs parsed := by
  obtain ⟨runs, hruns, hfindings, hdropped⟩ := exists_of_parse h
  have hfits : ∀ ran ∈ results runs, ran.2.Fits := by
    intro ran hran
    obtain ⟨run, hrun, hran⟩ := List.mem_flatMap.1 hran
    obtain ⟨result, hresult, rfl⟩ := List.mem_map.1 hran
    exact fits_of_readLog hruns run hrun result hresult
  refine ⟨runs, hruns, hfits, fun room hroom => ?_, fun f hf => ?_, ?_, ?_⟩
  · rw [Guarded.gather_eq hfits hroom, hfindings, hdropped]
  · rw [hfindings] at hf
    obtain ⟨ran, hran, hf⟩ := List.mem_filterMap.1 hf
    have hcomes := Result.comes_ofRun? root ran
    rw [hf] at hcomes
    cases hcomes with
    | told hvoid htells =>
      obtain ⟨region, hregion, hlocation⟩ := htells.location
      exact ((hfits _ hran).of_region? hregion).wellFormed hlocation
  · refine ⟨(results runs).map (Result.ofRun? root), ?_, ?_⟩
    · rw [List.forall₂_map_right_iff, List.forall₂_same]
      exact fun ran _ => Result.comes_ofRun? root ran
    · rw [hfindings, List.reduceOption, List.filterMap_map]
      rfl
  · rw [hfindings, hdropped, length_filterMap_add_countP]

theorem Semgrep.normalized_of_parse {root : Path} {doc : Json} {parsed : ParsedReport}
    (h : parse root doc = .ok parsed) :
    ∃ results, readOutput doc = .ok results ∧ Normalized root results parsed := by
  obtain ⟨results, hresults, h⟩ := exists_of_bind_eq_ok h
  obtain rfl := Except.ok.inj h
  have hread : readOutput doc = .ok results :=
    Returns.mapError (p := (readOutput doc = .ok ·)) (fun _ h => h) results hresults
  have hfits := fits_of_readOutput hread
  refine ⟨results, hread, hfits, ?_, ?_, List.length_map _⟩
  · intro f hf
    obtain ⟨result, hresult, rfl⟩ := List.mem_map.1 hf
    exact Result.wellFormed_location (hfits result hresult)
  · rw [List.forall₂_map_right_iff, List.forall₂_same]
    exact fun result _ => ⟨rfl, rfl, rfl, rfl⟩

/-- **Reports are normalized in full.** Take a document that is accepted as a
SARIF log or as an output of Semgrep. No step of its reading leaves its range;
each finding has a well-formed location; and each result, in the order of the
document, comes to one finding or is dropped and counted. No result of Semgrep
is dropped, and a result of a log is just if it is void. -/
theorem ParsedReport.normalized (root : Path) (doc : Json) (parsed : ParsedReport) :
    (Sarif.parse root doc = .ok parsed →
      ∃ runs, Sarif.readLog doc = .ok runs ∧ Sarif.Normalized root runs parsed) ∧
    (Semgrep.parse root doc = .ok parsed →
      ∃ results, Semgrep.readOutput doc = .ok results ∧
        Semgrep.Normalized root results parsed) :=
  ⟨Sarif.normalized_of_parse, Semgrep.normalized_of_parse⟩

/-! ### Documents -/

/-- A log of one run of a tool with one rule, and the results of the run. -/
def Sarif.logOf (results : List Json) : Json :=
  let driver : Json := .object [("name", .string "Tool"),
    ("rules", .array [.object [("id", .string "R")]])]
  .object [("runs", .array [.object [("results", .array results),
    ("tool", .object [("driver", driver)])]])]

/-- A result on a region of a file, which names its rule. -/
def Sarif.resultOn (region rule : List (String × Json)) : Json :=
  let place : Json := .object [("artifactLocation", .object [("uri", .string "a.xml")]),
    ("region", .object region)]
  .object (("locations", .array [.object [("physicalLocation", place)]]) :: rule)

/-- Results on the last line that there can be, on a region that runs
backwards, on line zero, and on bytes up to the first offset that there
cannot be. -/
def Sarif.edges : Json :=
  logOf [resultOn [("startLine", .nat (2 ^ 32 - 1))] [("ruleId", .string "R")],
    resultOn [("endColumn", .nat 1), ("endLine", .nat 2), ("startColumn", .nat 7),
      ("startLine", .nat 3)] [("rule", .object [("index", .nat 0)])],
    resultOn [("startLine", .nat 0)] [("ruleIndex", .nat 0)],
    resultOn [("byteLength", .nat 1), ("byteOffset", .nat (2 ^ 64 - 1))]
      [("rule", .object [("id", .string "R")])]]

/-- A result of Semgrep that runs backwards. -/
def Semgrep.backwards : Json :=
  let mark (n : Nat) : Json := .object [("col", .nat n), ("line", .nat n), ("offset", .nat n)]
  .object [("results", .array [.object [("check_id", .string "R"), ("end", mark 0),
    ("path", .string "a.xml"), ("start", mark 9)]])]

theorem ParsedReport.normalized_edges :
    let found (start stop : Position) : Finding :=
      finding "tool" "R" "a.xml" ⟨"/p"⟩ ⟨start, stop, none, .utf16⟩ .medium none []
    let log : ParsedReport :=
      ⟨["tool"], [found ⟨2 ^ 32 - 2, 0⟩ ⟨2 ^ 32 - 1, 0⟩, found ⟨2, 6⟩ ⟨2, 6⟩], 2⟩
    let output : ParsedReport := ⟨["semgrep"],
      [finding "semgrep" "R" "a.xml" ⟨"/p"⟩ ⟨⟨8, 8⟩, ⟨8, 8⟩, none, .chars⟩ .medium none []], 0⟩
    (Sarif.parse ⟨"/p"⟩ Sarif.edges = .ok log ∧
      ∃ runs, Sarif.readLog Sarif.edges = .ok runs ∧ Sarif.Normalized ⟨"/p"⟩ runs log) ∧
    (Semgrep.parse ⟨"/p"⟩ Semgrep.backwards = .ok output ∧
      ∃ results, Semgrep.readOutput Semgrep.backwards = .ok results ∧
        Semgrep.Normalized ⟨"/p"⟩ results output) := by
  intro found log output
  have hlog : Sarif.parse ⟨"/p"⟩ Sarif.edges = .ok log := rfl
  have houtput : Semgrep.parse ⟨"/p"⟩ Semgrep.backwards = .ok output := rfl
  exact ⟨⟨hlog, (normalized ⟨"/p"⟩ Sarif.edges log).1 hlog⟩,
    ⟨houtput, (normalized ⟨"/p"⟩ Semgrep.backwards output).2 houtput⟩⟩

/-- A result with an index that no rule has, and a reference to the first
rule. -/
def Sarif.stray : Json :=
  logOf [resultOn [("startLine", .nat 1)]
    [("rule", .object [("index", .nat 0)]), ("ruleIndex", .nat 1)]]

/-- **The index of a reference does not count** beside another index: the
result is dropped, though its reference leads to a rule id. -/
theorem Sarif.not_void_stray : ∃ run result, readLog stray = .ok [run] ∧
    run.results = some [result] ∧ parse ⟨"/p"⟩ stray = .ok ⟨["tool"], [], 1⟩ ∧
    ¬ result.Void Route.all run.driver.rules := by
  let region : Region := ⟨some 1, none, none, none, none, none⟩
  let result : Result := ⟨none, some 1, some ⟨none, some 0⟩, none, none,
    [some ⟨some "a.xml", some region⟩], none⟩
  refine ⟨⟨⟨"Tool", [⟨"R", none, none⟩]⟩, some [result], none⟩, result, rfl, rfl, rfl, ?_⟩
  rintro (h | h | h | ⟨h, hvoid⟩)
  · exact Option.some_ne_none _ (h .referenceIndex (by decide))
  · exact Option.some_ne_none _ h
  · exact Option.some_ne_none _ h
  · obtain rfl := Option.some.inj h
    rcases hvoid with hline | ⟨hline, -⟩ | ⟨hoffset, -⟩
    · exact absurd hline (by decide)
    · exact absurd hline (by decide)
    · exact Option.some_ne_none _ hoffset.symm

end Remedy
