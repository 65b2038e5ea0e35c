import Mathlib
import Remedy.Proofs.Findings.Documents
import Remedy.Proofs.Findings.Kept
import Remedy.Proofs.Runs
import Remedy.Proofs.Text.Detection
/-!
# Ids tell findings apart

The id of a finding is a digest of a few texts that are put together. Nothing
gets lost when they are: a zero byte ends tool and rule, no other one comes
behind the path, and the numbers of a place end where a sign stands. So
reported findings of one key are those with the same bytes behind their ids,
and other findings share an id only if these bytes collide
(`Finding.Reported.tellsApart`).
-/

namespace Remedy

namespace Utf8

theorem encode_injective {a b : String} (h : encode a = encode b) : a = b :=
  Option.some.inj ((decode?_eq_some_iff.2 h).symm.trans (decode?_eq_some_iff.2 rfl))

/-- The bytes of a text have no zero if the text does not. -/
theorem zero_not_mem_encode {text : String} (h : '\x00' ∉ text.toList) : 0 ∉ encode text :=
  not_mem_encode (by decide) h

end Utf8

namespace Hex

theorem digit_inj {m n : Nat} (hm : m < 16) (hn : n < 16) (h : digit m = digit n) : m = n := by
  have hall : ∀ m < 16, ∀ n < 16, digit m = digit n → m = n := by decide +kernel
  exact hall m hm n hn h

/-- Bytes are told by their digits. -/
theorem ofBytes_injective {a b : Bytes} (h : ofBytes a = ofBytes b) : a = b := by
  rw [ofBytes, ofBytes, String.ofList_inj] at h
  induction a generalizing b with
  | nil =>
    cases b with
    | nil => rfl
    | cons y ys => cases h
  | cons x xs ih =>
    cases b with
    | nil => cases h
    | cons y ys =>
      simp only [List.flatMap_cons, List.cons_append, List.nil_append, List.cons.injEq] at h
      obtain ⟨hhigh, hlow, hrest⟩ := h
      have hx := x.toNat_lt
      have hy := y.toNat_lt
      have hhigh := digit_inj (by omega) (by omega) hhigh
      have hlow := digit_inj (by omega) (by omega) hlow
      rw [ih hrest, UInt8.toNat_inj.1 (by omega : x.toNat = y.toNat)]

end Hex

namespace Finding

variable {m n : Nat} {f g : Finding} {l l' : Location} {cs ds : List Char}

/-! ## Places -/

/-- The digits of a number. -/
def numeral (n : Nat) : List Char := n.repr.toList

theorem isDigit_of_mem_numeral {c : Char} (h : c ∈ numeral n) : c.isDigit := by
  rw [numeral, Nat.toList_repr] at h
  exact Nat.isDigit_of_mem_toDigits (by omega) (by omega) h

/-- **A number ends where its digits end.** -/
theorem numeral_append_inj (hcs : ∀ c ∈ cs.head?, ¬ c.isDigit) (hds : ∀ c ∈ ds.head?, ¬ c.isDigit)
    (h : numeral m ++ cs = numeral n ++ ds) : m = n ∧ cs = ds := by
  obtain ⟨hdigits, hrest⟩ := append_inj_of_class (fun _ => isDigit_of_mem_numeral)
    (fun _ => isDigit_of_mem_numeral) hcs hds h
  exact ⟨Nat.repr_inj.1 (String.toList_inj.1 hdigits), hrest⟩

/-- What the text of a place tells of its bytes. -/
def bytesText : Option Span → List Char
  | some s => '@' :: (numeral s.start ++ '-' :: numeral s.stop)
  | none => []

/-- What the text of a place tells of its columns. -/
def columnsText : ColumnUnit → List Char
  | .utf16 => "/utf16".toList
  | .chars => []

theorem toList_placeText (l : Location) : (placeText l).toList =
    numeral l.start.line ++ ':' :: (numeral l.start.column ++ '-' ::
      (numeral l.stop.line ++ ':' :: (numeral l.stop.column ++
        (bytesText l.bytes ++ columnsText l.columns)))) := by
  have hsign : ∀ sign : String, toString sign = sign := fun _ => rfl
  obtain ⟨start, stop, bytes, columns⟩ := l
  cases bytes <;> cases columns <;>
    simp [placeText, bytesText, columnsText, numeral, String.toList_append, hsign]

/-- No number goes on in what is told behind the positions. -/
theorem not_isDigit_of_mem_head? (bytes : Option Span) (columns : ColumnUnit) :
    ∀ c ∈ (bytesText bytes ++ columnsText columns).head?, ¬ c.isDigit := by
  cases bytes <;> cases columns <;> simp [bytesText, columnsText]

theorem columnsText_injective {columns columns' : ColumnUnit}
    (h : columnsText columns = columnsText columns') : columns = columns' := by
  cases columns <;> cases columns' <;> first | rfl | cases h

/-- Bytes and columns are told by their texts. -/
theorem bytesText_append_inj {bytes bytes' : Option Span} {columns columns' : ColumnUnit}
    (h : bytesText bytes ++ columnsText columns = bytesText bytes' ++ columnsText columns') :
    bytes = bytes' ∧ columns = columns' := by
  cases bytes with
  | none =>
    cases bytes' with
    | none => exact ⟨rfl, columnsText_injective h⟩
    | some s' => cases columns <;> simp [bytesText, columnsText] at h
  | some s =>
    cases bytes' with
    | none => cases columns' <;> simp [bytesText, columnsText] at h
    | some s' =>
      simp only [bytesText, List.cons_append, List.append_assoc, List.cons.injEq, true_and] at h
      obtain ⟨hstart, hrest⟩ := numeral_append_inj (by simp) (by simp) h
      obtain ⟨hstop, hrest⟩ := numeral_append_inj (not_isDigit_of_mem_head? none columns)
        (not_isDigit_of_mem_head? none columns') (List.cons.inj hrest).2
      exact ⟨congrArg some (congrArg₂ Span.mk hstart hstop), columnsText_injective hrest⟩

/-- **A place is told by its text.** -/
theorem placeText_injective (h : placeText l = placeText l') : l = l' := by
  have hchars := congrArg String.toList h
  rw [toList_placeText, toList_placeText] at hchars
  obtain ⟨hfirst, hchars⟩ := numeral_append_inj (by simp) (by simp) hchars
  obtain ⟨hcolumn, hchars⟩ := numeral_append_inj (by simp) (by simp) (List.cons.inj hchars).2
  obtain ⟨hlast, hchars⟩ := numeral_append_inj (by simp) (by simp) (List.cons.inj hchars).2
  obtain ⟨hend, hchars⟩ := numeral_append_inj (not_isDigit_of_mem_head? _ _)
    (not_isDigit_of_mem_head? _ _) (List.cons.inj hchars).2
  obtain ⟨hbytes, hcolumns⟩ := bytesText_append_inj hchars
  have hstart : l.start = l'.start := congrArg₂ Position.mk hfirst hcolumn
  have hstop : l.stop = l'.stop := congrArg₂ Position.mk hlast hend
  obtain ⟨start, stop, bytes, columns⟩ := l
  rw [Location.mk.injEq]
  exact ⟨hstart, hstop, hbytes, hcolumns⟩

theorem zero_not_mem_encode_placeText (l : Location) : 0 ∉ Utf8.encode (placeText l) := by
  refine Utf8.zero_not_mem_encode ?_
  have hnumeral : ∀ n, '\x00' ∉ numeral n := fun n hmem =>
    absurd (isDigit_of_mem_numeral hmem) (by decide)
  rw [toList_placeText]
  cases l.bytes <;> cases l.columns <;> simp [bytesText, columnsText, hnumeral]

/-! ## Identities -/

/-- **The bytes behind the id of a finding.** -/
def preimage (f : Finding) : Bytes := identity f.tool f.rule f.path f.location

/-- **Two messages collide**: they differ, and their digests have the same
bytes where an id takes them from. -/
def Collide (a b : Bytes) : Prop :=
  a ≠ b ∧ (Sha256.digest a).take 8 = (Sha256.digest b).take 8

/-- **The texts of a finding are told by its bytes**, where tool and rule have
no zero character. -/
theorem preimage_inj (hf : ∀ text ∈ [f.tool, f.rule], '\x00' ∉ text.toList)
    (hg : ∀ text ∈ [g.tool, g.rule], '\x00' ∉ text.toList) (h : f.preimage = g.preimage) :
    f.tool = g.tool ∧ f.rule = g.rule ∧ f.path = g.path ∧ f.location = g.location := by
  simp only [List.forall_mem_cons] at hf hg
  obtain ⟨hftool, hfrule, -⟩ := hf
  obtain ⟨hgtool, hgrule, -⟩ := hg
  have hzero : ∀ {text : String}, '\x00' ∉ text.toList → 0 ∉ Utf8.encode text :=
    Utf8.zero_not_mem_encode
  obtain ⟨htool, h⟩ := append_inj_of_not_mem (hzero hftool) (hzero hgtool) h
  obtain ⟨hrule, h⟩ := append_inj_of_not_mem (hzero hfrule) (hzero hgrule) h
  -- a path may have zero bytes, but what is behind it has none
  obtain ⟨hpath, h⟩ := append_inj_of_not_mem_behind (zero_not_mem_encode_placeText _)
    (zero_not_mem_encode_placeText _) h
  refine ⟨Utf8.encode_injective htool, Utf8.encode_injective hrule, ?_,
    placeText_injective (Utf8.encode_injective h)⟩
  exact congrArg Path.mk (Utf8.encode_injective hpath)

/-- **A reported finding**: the reader of some format made it from a
document. -/
def Reported (f : Finding) : Prop :=
  ∃ format ∈ ReportFormat.all, ∃ root doc parsed,
    format.parse root doc = .ok parsed ∧ f ∈ parsed.findings

theorem Reported.genuine (h : f.Reported) : f.Genuine := by
  obtain ⟨format, hformat, root, doc, parsed, hparse, hf⟩ := h
  exact ReportFormat.genuine_of_parse hformat hparse f hf

/-- Genuine findings of one key have the same texts. -/
theorem Genuine.preimage_eq (hf : f.Genuine) (hg : g.Genuine) (h : f.key = g.key) :
    f.preimage = g.preimage := by
  obtain ⟨htool, hrule, hplace, hlocation⟩ := Key.mk.injEq .. ▸ h
  rw [preimage, preimage, htool, hrule, hlocation, Path.eq_of_components_eq hf.path hg.path hplace]

/-- The id of a genuine finding is told by a digest. -/
theorem Genuine.id_eq_iff (hf : f.Genuine) (hg : g.Genuine) :
    f.id = g.id ↔ (Sha256.digest f.preimage).take 8 = (Sha256.digest g.preimage).take 8 := by
  rw [hf.id, hg.id]
  exact ⟨fun h => Hex.ofBytes_injective h, congrArg Hex.ofBytes⟩

/-- **Ids tell findings apart.** An id is made of a digest. If tool and rule
have no zero character, the same bytes are behind the ids of two reported
findings if and only if these have the same key. And findings with different
keys have the same id if and only if their bytes collide. -/
theorem Reported.tellsApart (hf : f.Reported) (hg : g.Reported)
    (hftexts : ∀ text ∈ [f.tool, f.rule], '\x00' ∉ text.toList)
    (hgtexts : ∀ text ∈ [g.tool, g.rule], '\x00' ∉ text.toList) :
    f.id = Hex.ofBytes ((Sha256.digest f.preimage).take 8) ∧
    (f.key = g.key ↔ f.preimage = g.preimage) ∧
    (f.key ≠ g.key → (f.id = g.id ↔ Collide f.preimage g.preimage)) := by
  have hsame : f.key = g.key ↔ f.preimage = g.preimage := by
    refine ⟨hf.genuine.preimage_eq hg.genuine, fun h => ?_⟩
    obtain ⟨htool, hrule, hpath, hlocation⟩ := preimage_inj hftexts hgtexts h
    rw [key, key, htool, hrule, hpath, hlocation]
  refine ⟨hf.genuine.id, hsame, fun hother => ?_⟩
  rw [hf.genuine.id_eq_iff hg.genuine]
  exact ⟨fun h => ⟨fun heq => hother (hsame.2 heq), h⟩, And.right⟩

/-- A log of one result on the first line of a file, with what its columns
count. -/
def loggedLine (columnKind uri : String) : Json :=
  let place : Json := .object [("artifactLocation", .object [("uri", .string uri)]),
    ("region", .object [("startLine", .nat 1)])]
  let result : Json := .object [("ruleId", .string "R"),
    ("locations", .array [.object [("physicalLocation", place)]])]
  let tool : Json := .object [("driver", .object [("name", .string "Tool")])]
  .object [("runs", .array [.object [("columnKind", .string columnKind),
    ("results", .array [result]), ("tool", tool)]])]

/-- The finding of such a log. -/
def onFirstLine (uri : String) (columns : ColumnUnit) : Finding :=
  ParsedReport.finding "tool" "R" uri ⟨"/p"⟩ ⟨⟨0, 0⟩, ⟨1, 0⟩, none, columns⟩ .medium none []

/-- A file with a zero character in its name, written in two ways, and with
columns of two kinds. -/
theorem tellsApart_zeroCharacter :
    let dotted := onFirstLine "./a%00b" .utf16
    let plain := onFirstLine "a%00b" .utf16
    let counted := onFirstLine "a%00b" .chars
    (dotted.Reported ∧ plain.Reported ∧ counted.Reported) ∧
    (dotted.key = plain.key ∧ dotted.preimage = plain.preimage) ∧ plain.key ≠ counted.key ∧
    (plain.id = counted.id ↔ Collide plain.preimage counted.preimage) := by
  intro dotted plain counted
  have hdotted : dotted.Reported :=
    ⟨_, List.mem_cons_self, ⟨"/p"⟩, loggedLine "utf16CodeUnits" "./a%00b", ⟨["tool"], [dotted], 0⟩,
      rfl, List.mem_cons_self⟩
  have hplain : plain.Reported :=
    ⟨_, List.mem_cons_self, ⟨"/p"⟩, loggedLine "utf16CodeUnits" "a%00b", ⟨["tool"], [plain], 0⟩,
      rfl, List.mem_cons_self⟩
  have hcounted : counted.Reported :=
    ⟨_, List.mem_cons_self, ⟨"/p"⟩, loggedLine "unicodeCodePoints" "a%00b",
      ⟨["tool"], [counted], 0⟩, rfl, List.mem_cons_self⟩
  have htexts : ∀ text ∈ ["tool", "R"], '\x00' ∉ text.toList := by decide +kernel
  have hkey : dotted.key = plain.key := by decide +kernel
  have hother : plain.key ≠ counted.key := by decide +kernel
  obtain ⟨-, hsame, -⟩ := hdotted.tellsApart hplain htexts htexts
  obtain ⟨-, -, hcollide⟩ := hplain.tellsApart hcounted htexts htexts
  exact ⟨⟨hdotted, hplain, hcounted⟩, ⟨hkey, hsame.1 hkey⟩, hother, hcollide hother⟩

end Finding

end Remedy
