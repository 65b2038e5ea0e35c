import Remedy.Change.FileResult
import Remedy.Codemod.Script
import Remedy.Proofs.Change.Settle
import Remedy.Proofs.Text.Pieces
/-!
# The changes that matches make

A change is made for a match, inside its site and between characters of
the text (`Change.MadeFor`). Matches that do not overlap make changes that
are apart (`Rivals.apart`), and since changes are put in the order of their
spans, each ends before the next one starts (`pairwise_stop_le_start`).
-/

namespace Remedy

/-- **A change is made for a match**: inside its site, of what the text has
there, into something else. -/
structure Change.MadeFor (unit : SourceUnit) (m : Match) (c : Change) : Prop where
  fits : Execution.fits unit m.site c.span
  original : Text.slice? unit.text c.span = some c.original
  differs : c.original ≠ c.replacement
  codemod : c.codemod = m.codemodId
  findings : c.findings = m.findings

namespace Outcome

variable {o : Outcome}

@[simp]
theorem change?_eq_some_iff {c : Change} : o.change? = some c ↔ o = .changed c := by
  cases o <;> simp [change?]

@[simp]
theorem error?_eq_some_iff {e : FileError} : o.error? = some e ↔ o = .failed e := by
  cases o <;> simp [error?]

@[simp]
theorem skip?_eq_some_iff {s : Skip} : o.skip? = some s ↔ o = .unchanged s := by
  cases o <;> simp [skip?]

end Outcome

namespace Execution

variable {ctx : CodemodContext} {unit : SourceUnit} {catalog : Catalog} {found : List Match}
variable {m : Match} {c d : Change} {r : Replacement} {site : Site} {span : Span}

/-- What a replacement is checked for. -/
theorem fits_iff : fits unit site span ↔ site.span.contains span ∧ span.start ≤ span.stop ∧
    Text.isBoundary unit.text span.start ∧ Text.isBoundary unit.text span.stop := by
  rw [fits]
  simp only [Bool.and_eq_true, decide_eq_true_eq, and_assoc]

/-- A slice of the text that is inside the site is let through, -/
theorem fits_of_slice? {piece : String} (hslice : Text.slice? unit.text span = some piece)
    (hinside : site.span.contains span) : fits unit site span := by
  obtain ⟨before, after, htext, hspan⟩ := Text.slice?_eq_some_iff.1 hslice
  refine fits_iff.2 ⟨hinside, ?_, ?_, ?_⟩
  · rw [hspan]
    exact Nat.le_add_right _ _
  · exact Text.isBoundary_iff.2 ⟨before, piece ++ after, by rw [htext, String.append_assoc],
      by rw [hspan]⟩
  · exact Text.isBoundary_iff.2 ⟨before ++ piece, after, htext,
      by rw [hspan, String.utf8ByteSize_append]⟩

/-- **and what is let through is a slice of the text.** -/
theorem isSome_slice?_of_fits (h : fits unit site span) :
    (Text.slice? unit.text span).isSome := by
  obtain ⟨-, hforward, hstart, hstop⟩ := fits_iff.1 h
  exact Text.isSome_slice? hforward hstart hstop

/-- A change is where its replacement is, and has its text in the style of the
file. -/
theorem eq_of_ofReplacement (h : ofReplacement unit m r = .changed c) :
    c.span = r.span ∧ c.replacement = unit.lineEnding.apply r.text := by
  rw [ofReplacement] at h
  split at h
  · dsimp only at h
    split at h
    · cases h
    · cases h
      exact ⟨rfl, rfl⟩
  · cases h

/-- A slice inside the site becomes a change if the new text is another one. -/
theorem exists_changed {piece : String} (hslice : Text.slice? unit.text r.span = some piece)
    (hinside : m.site.span.contains r.span) (hdiffers : piece ≠ unit.lineEnding.apply r.text) :
    ∃ change, ofReplacement unit m r = .changed change := by
  have hget : (unit.slice? r.span).getD "" = piece := by
    rw [SourceUnit.slice?, hslice, Option.getD_some]
  rw [ofReplacement, if_pos (fits_of_slice? hslice hinside)]
  dsimp only
  rw [hget, if_neg hdiffers]
  exact ⟨_, rfl⟩

/-- What is changed by a replacement is made for the match. -/
theorem madeFor_of_ofReplacement (h : ofReplacement unit m r = .changed c) :
    c.MadeFor unit m := by
  rw [ofReplacement] at h
  split at h
  case isFalse => cases h
  case isTrue hfits =>
    -- the default of the look-up is never used
    obtain ⟨original, hslice⟩ := Option.isSome_iff_exists.1 (isSome_slice?_of_fits hfits)
    have hget : (unit.slice? r.span).getD "" = original := by
      rw [SourceUnit.slice?, hslice]
      rfl
    simp only [hget] at h
    split at h
    case isTrue => cases h
    case isFalse hdiffers =>
      cases h
      exact ⟨hfits, hslice, hdiffers, rfl, rfl⟩

/-- **A change that comes of a match is made for it.** -/
theorem madeFor_of_ofMatch? (h : ofMatch? ctx catalog m = some (.changed c)) :
    c.MadeFor ctx.unit m := by
  rw [ofMatch?, Option.map_eq_some_iff] at h
  obtain ⟨codemod, -, houtcome⟩ := h
  split at houtcome
  case h_1 r hr => exact madeFor_of_ofReplacement houtcome
  case h_2 refusal hr => cases houtcome

/-- Two changes are made for two of the matches whose sites do not
overlap. -/
def Rivals (unit : SourceUnit) (found : List Match) (c d : Change) : Prop :=
  ∃ m ∈ found, ∃ n ∈ found,
    c.MadeFor unit m ∧ d.MadeFor unit n ∧ ¬ m.site.span.overlaps n.site.span

theorem Rivals.symm (h : Rivals unit found c d) : Rivals unit found d c := by
  obtain ⟨m, hm, n, hn, hc, hd, hover⟩ := h
  exact ⟨n, hn, m, hm, hd, hc, Span.not_overlaps_symm hover⟩

/-- Sites that do not overlap are apart if a change was made in both: a site
with a span that runs forwards inside runs forwards itself. -/
theorem apart_sites {n : Match} (hc : c.MadeFor unit m) (hd : d.MadeFor unit n)
    (hover : ¬ m.site.span.overlaps n.site.span) : Span.Apart m.site.span n.site.span := by
  obtain ⟨hcsite, hcforward, -, -⟩ := fits_iff.1 hc.fits
  obtain ⟨hdsite, hdforward, -, -⟩ := fits_iff.1 hd.fits
  exact Span.apart_of_not_overlaps (Span.forward_of_contains hcsite hcforward)
    (Span.forward_of_contains hdsite hdforward) hover

/-- **Rivals are apart**: their sites are, and they stay inside. -/
theorem Rivals.apart (h : Rivals unit found c d) : Span.Apart c.span d.span := by
  obtain ⟨m, -, n, -, hc, hd, hover⟩ := h
  exact (apart_sites hc hd hover).within (fits_iff.1 hc.fits).1 (fits_iff.1 hd.fits).1

/-- The outcomes of one kind are those of the matches, -/
theorem mem_filterMap_outcomes {β : Type} {part : Outcome → Option β} {b : β} :
    b ∈ (outcomes ctx catalog found).filterMap part ↔
      ∃ m ∈ found, ∃ o, ofMatch? ctx catalog m = some o ∧ part o = some b := by
  simp only [outcomes, List.filterMap_filterMap, List.mem_filterMap, List.mem_mergeSort,
    Option.bind_eq_some_iff]

theorem mem_errors {e : FileError} : e ∈ (ofMatches ctx catalog found).errors ↔
    ∃ m ∈ found, ofMatch? ctx catalog m = some (.failed e) := by
  rw [ofMatches, mem_filterMap_outcomes]
  simp only [Outcome.error?_eq_some_iff, exists_eq_right]

/-- so every change comes of one of them, -/
theorem mem_changes : c ∈ (ofMatches ctx catalog found).changes ↔
    ∃ m ∈ found, ofMatch? ctx catalog m = some (.changed c) := by
  rw [ofMatches, List.mem_mergeSort, mem_filterMap_outcomes]
  simp only [Outcome.change?_eq_some_iff, exists_eq_right]

/-- and is made for it. -/
theorem exists_madeFor (hc : c ∈ (ofMatches ctx catalog found).changes) :
    ∃ m ∈ found, c.MadeFor ctx.unit m := by
  obtain ⟨m, hm, houtcome⟩ := mem_changes.1 hc
  exact ⟨m, hm, madeFor_of_ofMatch? houtcome⟩

/-- **Changes of matches that do not overlap are rivals**, each two of
them. -/
theorem pairwise_rivals
    (h : found.Pairwise fun a b => ¬ a.site.span.overlaps b.site.span) :
    (ofMatches ctx catalog found).changes.Pairwise (Rivals ctx.unit found) := by
  have hordered : (found.mergeSort fun a b => (a.order b).isLE).Pairwise
      fun a b => a ∈ found ∧ b ∈ found ∧ ¬ a.site.span.overlaps b.site.span := by
    have hperm := List.mergeSort_perm found fun a b => (a.order b).isLE
    refine List.Pairwise.imp_of_mem ?_ ((hperm.pairwise_iff Span.not_overlaps_symm).2 h)
    intro a b ha hb hover
    exact ⟨hperm.mem_iff.1 ha, hperm.mem_iff.1 hb, hover⟩
  rw [ofMatches]
  -- being rivals is symmetric, so the order that the changes are put in does not matter
  refine ((List.mergeSort_perm _ _).pairwise_iff Rivals.symm).2 ?_
  rw [outcomes, List.filterMap_filterMap]
  refine hordered.filterMap _ ?_
  intro m n ⟨hm, hn, hover⟩ c hc d hd
  obtain ⟨o, ho, hoc⟩ := Option.bind_eq_some_iff.1 hc
  obtain ⟨p, hp, hpd⟩ := Option.bind_eq_some_iff.1 hd
  cases o <;> cases hoc
  cases p <;> cases hpd
  exact ⟨m, hm, n, hn, madeFor_of_ofMatch? ho, madeFor_of_ofMatch? hp, hover⟩

/-- **Each change ends before the next one starts.** -/
theorem pairwise_stop_le_start
    (h : found.Pairwise fun a b => ¬ a.site.span.overlaps b.site.span) :
    (ofMatches ctx catalog found).changes.Pairwise fun a b => a.span.stop ≤ b.span.start := by
  have hle : (ofMatches ctx catalog found).changes.Pairwise fun a b => a.span.le b.span :=
    List.pairwise_mergeSort (fun a b c : Change => @Span.le_trans a.span b.span c.span)
      (fun a b : Change => Span.le_total a.span b.span) _
  refine ((pairwise_rivals h).and hle).imp ?_
  intro a b ⟨hrivals, hab⟩
  have hapart := hrivals.apart
  obtain ⟨m, -, n, -, -, hb, -⟩ := hrivals
  exact hapart.stop_le_start (fits_iff.1 hb.fits).2.1 hab

end Execution

namespace Plan

/-- **The matches that a plan accepts do not overlap.** -/
theorem pairwise_accepted (ctx : PlanContext) (findings : List Finding) :
    (ofFindings ctx findings).accepted.Pairwise
      fun a b => ¬ a.site.span.overlaps b.site.span := by
  obtain ⟨defeats, hsettling⟩ := settle_spec ctx.unit (found ctx findings)
  have hperm := List.mergeSort_perm (settle ctx.unit (found ctx findings)).1
    fun a b => (a.order b).isLE
  exact (hperm.pairwise_iff Span.not_overlaps_symm).2 hsettling.pairwise

end Plan

namespace FileResult

variable {ctx : PlanContext} {findings : List Finding}

/-- The result of a file that was parsed. -/
theorem ofFindingsBy_of_parsed (differ : Differ) (h : ctx.unit.parseError? = none) :
    ofFindingsBy differ ctx findings = ofParsed differ ctx findings := by
  rw [ofFindingsBy, h]

/-- The result of a file that could not be parsed. -/
theorem ofFindingsBy_of_failed (differ : Differ) {error : ParseError}
    (h : ctx.unit.parseError? = some error) :
    ofFindingsBy differ ctx findings = ofFailed ctx findings error := by
  rw [ofFindingsBy, h]

end FileResult

/-! ## Files under scripts -/

/-- A script that puts a text in place of another one, with the ends of the
site moved. It takes care of rules, or looks for sites on its own if there
are none. -/
def Script.putting (id needle text : String) (rules : List String) (moveStart moveStop : Int) :
    Script :=
  ⟨id, needle, rules, 0, rules.isEmpty, false, false, "", .replace text moveStart moveStop, none⟩

/-- A plain file under scripts, all of which take part. -/
def PlanContext.ofScripts (text : String) (scripts : List Script) : PlanContext where
  unit := ⟨⟨"a.xml"⟩, .xml, .utf8, text, .plain⟩
  symbols := SymbolTable.build []
  catalog := scripts.map Script.toCodemod
  active := List.range scripts.length
  filter := ⟨[], []⟩

end Remedy
