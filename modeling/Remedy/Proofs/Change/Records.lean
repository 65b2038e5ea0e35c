import Remedy.Change.FileResult
import Remedy.Proofs.Change.Settle
/-!
# The record of a match

A match leaves the way to a change at one of four exits: it is turned away
as a candidate, it is defeated by another match, its codemod fails, or its
change is made or proves to be none. Each exit leaves a record about the
site of the match that carries the findings of the match
(`Record.Accounts`).
-/

namespace Remedy

/-- A reason for which a match comes to nothing. The others are reasons of
findings that have no match. -/
def SkipReason.isOfMatch : SkipReason → Bool
  | .excluded | .resolutionGap | .conflict | .noChange => true
  | .noTarget | .noCodemod | .parseFailed => false

/-- The findings that an error is about. -/
def FileError.findings : FileError → List String
  | .parse _ => []
  | .change _ _ ids _ => ids

/-- What a result tells of a match. -/
inductive Record where
  | change (change : Change)
  | error (error : FileError)
  | skip (skip : Skip)
deriving DecidableEq, Repr

namespace Record

/-- The findings that a record carries. -/
def findings : Record → List String
  | change c => c.findings
  | error e => e.findings
  | skip s => s.findings

/-- A record is about the site of a codemod. -/
def IsAbout (id : String) (site : Span) : Record → Prop
  | change c => c.codemod = id ∧ site.contains c.span
  | error e => ∃ ids failure, e = .change id site ids failure
  | skip s => s.codemod = some id ∧ s.span = some site ∧ s.reason.isOfMatch

/-- **A record accounts for a match.** -/
structure Accounts (m : Match) (r : Record) : Prop where
  isAbout : r.IsAbout m.codemodId m.site.span
  findings : r.findings = m.findings

/-- The skip of a match accounts for it. -/
theorem accounts_skip {m : Match} {unit : SourceUnit} {reason : SkipReason} {detail : Option String}
    (h : reason.isOfMatch) : Accounts m (.skip (Skip.ofMatch m unit reason detail)) :=
  ⟨⟨rfl, rfl, h⟩, rfl⟩

/-- The error of a match accounts for it. -/
theorem accounts_error (m : Match) (failure : ChangeFailure) :
    Accounts m (.error (.change m.codemodId m.site.span m.findings failure)) :=
  ⟨⟨m.findings, failure, rfl⟩, rfl⟩

end Record

/-- The record of what came of a match. -/
def Outcome.record : Outcome → Record
  | changed c => .change c
  | failed e => .error e
  | unchanged s => .skip s

namespace Execution

variable {ctx : CodemodContext} {catalog : Catalog} {m : Match} {o : Outcome}

theorem accounts_ofReplacement (unit : SourceUnit) (m : Match) (r : Replacement) :
    Record.Accounts m (ofReplacement unit m r).record := by
  rw [ofReplacement]
  split
  case isFalse => exact Record.accounts_error m _
  case isTrue hfits =>
    have hinside : m.site.span.contains r.span := by
      simp only [fits, Bool.and_eq_true] at hfits
      exact hfits.1.1.1
    simp only
    split
    · exact Record.accounts_skip rfl
    · exact ⟨⟨rfl, hinside⟩, rfl⟩

/-- **What comes of a match accounts for it.** -/
theorem accounts_ofMatch? (h : ofMatch? ctx catalog m = some o) :
    Record.Accounts m o.record := by
  rw [ofMatch?, Option.map_eq_some_iff] at h
  obtain ⟨codemod, -, rfl⟩ := h
  split
  case h_1 r hr => exact accounts_ofReplacement ctx.unit m r
  case h_2 refusal hr => exact Record.accounts_error m refusal.toFailure

/-- Something comes of a match whose codemod is in the catalog. -/
theorem isSome_ofMatch? {codemod : Codemod} (h : catalog[m.codemod]? = some codemod) :
    (ofMatch? ctx catalog m).isSome := by
  rw [ofMatch?, h]
  rfl

end Execution

namespace Plan

variable {ctx : PlanContext} {c : Candidate} {m : Match} {s : Skip}

/-- A defeat accounts for the match that lost. -/
theorem accounts_defeat (unit : SourceUnit) (d : Defeat) :
    Record.Accounts d.loser (.skip (d.skip unit)) :=
  Record.accounts_skip rfl

/-- A candidate that is let through is its match. -/
theorem eq_toMatch_of_sift (h : sift ctx c = .ok m) : m = toMatch ctx c := by
  rw [sift] at h
  split at h
  case isTrue => cases h
  case isFalse =>
    split at h
    case h_1 => cases h
    case h_2 => exact (Except.ok.inj h).symm

/-- **A candidate that is turned away is accounted for.** -/
theorem accounts_of_sift (h : sift ctx c = .error s) :
    Record.Accounts (toMatch ctx c) (.skip s) := by
  rw [sift] at h
  split at h
  case isTrue =>
    rw [← Except.error.inj h]
    exact Record.accounts_skip rfl
  case isFalse =>
    split at h
    case h_2 => cases h
    case h_1 =>
      rw [← Except.error.inj h]
      exact Record.accounts_skip rfl

end Plan

end Remedy
