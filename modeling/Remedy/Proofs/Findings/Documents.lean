import Mathlib
import Remedy.Findings.Ingest
import Remedy.Proofs.Failing
import Remedy.Proofs.Findings.Deduplicate
/-!
# Report documents

A document is of no use for one of four reasons (`Malformed`), and each such
document leads to one error (`Ingestion.report_errors`). All others contribute
genuine findings, which depend on what is in a document and not on where it
stands. So the order of documents does not matter to the findings, nor how
often one comes, nor do malformed ones among them
(`Documents.Rearranged.mem_flatMap_contribution`).
-/

namespace Remedy

/-- A report document: where it stands, and its bytes or why they cannot be
had. -/
abbrev Document := Path × Except String Bytes

variable {root path : Path} {content : Except String Bytes} {f : Finding}

/-! ## Findings of reports -/

theorem ParsedReport.genuine_finding (tool rule raw : String) (root : Path) (location : Location)
    (severity : Severity) (message : Option String) (properties : List (String × Json)) :
    (finding tool rule raw root location severity message properties).Genuine :=
  ⟨rfl, ReportPath.canonical_normalize raw root⟩

theorem Sarif.genuine_of_finding? {result : Result} {tool : String} {rules : List Rule}
    {columns : ColumnUnit} (h : result.finding? root tool rules columns = some f) : f.Genuine := by
  simp only [Result.finding?, Option.bind_eq_bind, Option.bind_eq_some_iff] at h
  obtain ⟨rule, -, place, -, uri, -, region, -, location, -, hf⟩ := h
  rw [← Option.some.inj hf]
  exact ParsedReport.genuine_finding _ _ _ _ _ _ _ _

theorem Sarif.genuine_of_parse {doc : Json} {parsed : ParsedReport}
    (h : parse root doc = .ok parsed) : ∀ f ∈ parsed.findings, f.Genuine := by
  obtain ⟨runs, -, h⟩ := exists_of_bind_eq_ok h
  dsimp only at h
  split at h
  case isTrue => cases h
  case isFalse =>
    intro f hf
    rw [← Except.ok.inj h] at hf
    obtain ⟨part, hpart, hf⟩ := List.mem_flatMap.1 hf
    obtain ⟨run, -, rfl⟩ := List.mem_map.1 hpart
    obtain ⟨result, -, hfound⟩ := List.mem_filterMap.1 hf
    exact genuine_of_finding? hfound

theorem Semgrep.genuine_of_parse {doc : Json} {parsed : ParsedReport}
    (h : parse root doc = .ok parsed) : ∀ f ∈ parsed.findings, f.Genuine := by
  obtain ⟨results, -, h⟩ := exists_of_bind_eq_ok h
  intro f hf
  rw [← Except.ok.inj h] at hf
  obtain ⟨result, -, rfl⟩ := List.mem_map.1 hf
  exact ParsedReport.genuine_finding _ _ _ _ _ _ _ _

/-- **Every format makes genuine findings.** -/
theorem ReportFormat.genuine_of_parse {format : ReportFormat} (hformat : format ∈ all)
    {doc : Json} {parsed : ParsedReport} (h : format.parse root doc = .ok parsed) :
    ∀ f ∈ parsed.findings, f.Genuine := by
  rw [all, List.mem_cons, List.mem_singleton] at hformat
  rcases hformat with rfl | rfl
  · exact Sarif.genuine_of_parse h
  · exact Semgrep.genuine_of_parse h

/-! ## Documents of no use -/

/-- **A malformed document.** -/
inductive Malformed (root : Path) : Except String Bytes → Prop where
  /-- It cannot be read. -/
  | unreadable (reason : String) : Malformed root (.error reason)
  /-- It is no JSON. -/
  | notJson {bytes : Bytes} {fault : JsonError}
    (h : Json.ofBytes (Ingestion.withoutMark bytes) = .error fault) : Malformed root (.ok bytes)
  /-- It has the form of no report. -/
  | unrecognized {bytes : Bytes} {doc : Json}
    (h : Json.ofBytes (Ingestion.withoutMark bytes) = .ok doc)
    (hnone : ∀ format ∈ ReportFormat.all, ¬ format.detects doc) : Malformed root (.ok bytes)
  /-- The reader of its form refuses it. -/
  | rejected {bytes : Bytes} {doc : Json} {format : ReportFormat} {fault : FormatFault}
    (h : Json.ofBytes (Ingestion.withoutMark bytes) = .ok doc)
    (hformat : ReportFormat.all.find? (·.detects doc) = some format)
    (hfault : format.parse root doc = .error fault) : Malformed root (.ok bytes)

namespace Ingestion

/-- What a run is told of a document at a path: why it is of no use, or what
its reader found in it. -/
def told (path : Path) : Except String (ReportFormat × ParsedReport) →
    Except MalformedReport (ReportSummary × List Finding)
  | .error reason => .error ⟨path, reason⟩
  | .ok (format, parsed) =>
    .ok (⟨path, format.name, parsed.tools, parsed.findings.length, parsed.dropped⟩,
      parsed.findings)

/-- **What comes of a document**: a reason if it is malformed, and genuine
findings if it is not. -/
inductive Comes (root : Path) (content : Except String Bytes) :
    Except String (ReportFormat × ParsedReport) → Prop where
  | failed (reason : String) (hmalformed : Malformed root content) :
    Comes root content (.error reason)
  | used (format : ReportFormat) (parsed : ParsedReport) (hfine : ¬ Malformed root content)
    (hgenuine : ∀ f ∈ parsed.findings, f.Genuine) : Comes root content (.ok (format, parsed))

/-- It is no matter where the document stands. -/
theorem exists_comes (root : Path) (content : Except String Bytes) :
    ∃ outcome, Comes root content outcome ∧
      ∀ path, ofReport root path content = told path outcome := by
  cases content with
  | error reason => exact ⟨_, .failed _ (.unreadable reason), fun _ => rfl⟩
  | ok bytes =>
    simp only [ofReport, Except.mapError, bind, Except.bind, pure, Except.pure, throw,
      throwThe, MonadExceptOf.throw]
    cases hdoc : Json.ofBytes (withoutMark bytes) with
    | error fault => exact ⟨_, .failed _ (.notJson hdoc), fun _ => rfl⟩
    | ok doc =>
      simp only
      cases hfound : ReportFormat.all.find? (·.detects doc) with
      | none =>
        exact ⟨_, .failed _ (.unrecognized hdoc fun format => List.find?_eq_none.1 hfound format),
          fun _ => rfl⟩
      | some format =>
        have hlisted := List.mem_of_find?_eq_some hfound
        simp only
        cases hparse : format.parse root doc with
        | error fault => exact ⟨_, .failed _ (.rejected hdoc hfound hparse), fun _ => rfl⟩
        | ok parsed =>
          refine ⟨_, .used format parsed (fun hmalformed => ?_)
            (ReportFormat.genuine_of_parse hlisted hparse), fun _ => rfl⟩
          cases hmalformed with
          | notJson h => cases hdoc.symm.trans h
          | unrecognized h hnone =>
            cases hdoc.symm.trans h
            have hdetects : format.detects doc = true := by simpa using List.find?_some hfound
            exact hnone format hlisted hdetects
          | rejected h hformat hfault =>
            cases hdoc.symm.trans h
            cases hfound.symm.trans hformat
            cases hparse.symm.trans hfault

/-- **The malformed documents** are those that are not used. -/
theorem malformed_iff (root path : Path) (content : Except String Bytes) :
    Malformed root content ↔ ¬ (ofReport root path content).isOk := by
  obtain ⟨outcome, hcomes, htold⟩ := exists_comes root content
  rw [htold]
  cases hcomes with
  | failed reason hmalformed => exact iff_of_true hmalformed Bool.false_ne_true
  | used format parsed hfine => exact iff_of_false hfine fun hnot => hnot rfl

end Ingestion

instance (root : Path) (content : Except String Bytes) : Decidable (Malformed root content) :=
  decidable_of_iff _ (Ingestion.malformed_iff root root content).symm

namespace Ingestion

/-- The findings that a document contributes. -/
def contribution (root : Path) (doc : Document) : List Finding :=
  match ofReport root doc.1 doc.2 with
  | .ok (_, findings) => findings
  | .error _ => []

theorem findings_ofReports (root : Path) (docs : List Document) :
    (ofReports root docs).findings = Finding.deduplicate (docs.flatMap (contribution root)) := by
  rw [ofReports, List.flatMap_map]
  rfl

theorem genuine_of_mem_contribution {doc : Document} (h : f ∈ contribution root doc) :
    f.Genuine := by
  obtain ⟨outcome, hcomes, htold⟩ := exists_comes root doc.2
  rw [contribution, htold] at h
  cases hcomes with
  | failed => cases h
  | used format parsed hfine hgenuine => exact hgenuine f h

/-- A malformed document contributes nothing, -/
theorem contribution_of_malformed {doc : Document} (h : Malformed root doc.2) :
    contribution root doc = [] := by
  obtain ⟨outcome, hcomes, htold⟩ := exists_comes root doc.2
  rw [contribution, htold]
  cases hcomes with
  | failed => rfl
  | used format parsed hfine => exact absurd h hfine

/-- and a copy of a document contributes the same. -/
theorem contribution_path (root p q : Path) (content : Except String Bytes) :
    contribution root (p, content) = contribution root (q, content) := by
  obtain ⟨outcome, -, htold⟩ := exists_comes root content
  rw [contribution, contribution, htold, htold]
  cases outcome <;> rfl

/-- **Each malformed document leads to one error**, which tells its path. -/
theorem report_errors (root : Path) (docs : List Document) :
    (ofReports root docs).errors.map MalformedReport.report =
      (docs.filter fun doc => Malformed root doc.2).map Prod.fst := by
  simp only [ofReports]
  induction docs with
  | nil => rfl
  | cons doc docs ih =>
    rw [List.map_cons, List.filterMap_cons]
    obtain ⟨outcome, hcomes, htold⟩ := exists_comes root doc.2
    rw [htold]
    cases hcomes with
    | failed reason hmalformed =>
      rw [List.filter_cons, if_pos (decide_eq_true hmalformed)]
      exact congrArg (List.cons doc.1) ih
    | used format parsed hfine =>
      rw [List.filter_cons, if_neg (by simpa using hfine)]
      exact ih

end Ingestion

/-! ## Lists of documents -/

namespace Documents

variable {docs others before after : List Document} {doc : Document} {m n : Nat}

/-- **A list of documents is rearranged**, with a number of malformed ones
inserted. -/
inductive Rearranged (root : Path) : Nat → List Document → List Document → Prop where
  /-- The documents come in another order. -/
  | perm {docs others : List Document} (h : docs.Perm others) : Rearranged root 0 docs others
  /-- A document that is of use is listed once more, at its own path or
  copied to another one. -/
  | repeated {before after : List Document} {p : Path} (q : Path) {content : Except String Bytes}
    (hlisted : (p, content) ∈ before ++ after) (hfine : ¬ Malformed root content) :
    Rearranged root 0 (before ++ after) (before ++ (q, content) :: after)
  /-- A malformed document is inserted, be it listed already or new. -/
  | inserted {before after : List Document} {doc : Document} (h : Malformed root doc.2) :
    Rearranged root 1 (before ++ after) (before ++ doc :: after)
  /-- One comes after the other. -/
  | trans {m n : Nat} {docs between others : List Document} (hfirst : Rearranged root m docs between)
    (hsecond : Rearranged root n between others) : Rearranged root (m + n) docs others

/-- **The findings of the documents stay.** -/
theorem Rearranged.mem_flatMap_contribution (h : Rearranged root n docs others) :
    f ∈ docs.flatMap (Ingestion.contribution root) ↔
      f ∈ others.flatMap (Ingestion.contribution root) := by
  induction h with
  | perm h => exact (h.flatMap_right _).mem_iff
  | @repeated before after p q content hlisted hfine =>
    have hcopy : f ∈ Ingestion.contribution root (q, content) →
        f ∈ (before ++ after).flatMap (Ingestion.contribution root) := by
      intro hf
      rw [Ingestion.contribution_path root q p] at hf
      exact List.mem_flatMap.2 ⟨_, hlisted, hf⟩
    rw [List.flatMap_append, List.mem_append] at hcopy ⊢
    rw [List.flatMap_append, List.flatMap_cons, List.mem_append, List.mem_append]
    tauto
  | inserted h =>
    rw [List.flatMap_append, List.flatMap_append, List.flatMap_cons,
      Ingestion.contribution_of_malformed h, List.nil_append]
  | trans _ _ ihfirst ihsecond => exact ihfirst.trans ihsecond

/-- **There are as many malformed documents more** as were inserted. -/
theorem Rearranged.countP_malformed (h : Rearranged root n docs others) :
    (others.countP fun doc => Malformed root doc.2) =
      (docs.countP fun doc => Malformed root doc.2) + n := by
  induction h with
  | perm h => exact (h.countP_eq _).symm
  | repeated q hlisted hfine =>
    rw [List.countP_append, List.countP_append, List.countP_cons_of_neg (by simpa using hfine),
      Nat.add_zero]
  | inserted h =>
    rw [List.countP_append, List.countP_append, List.countP_cons_of_pos (by simpa using h)]
    omega
  | trans _ _ ihfirst ihsecond => rw [ihsecond, ihfirst, Nat.add_assoc]

end Documents

end Remedy
