import Mathlib
import Remedy.Proofs.Files.Discovered
import Remedy.Proofs.Path.Joined
import Remedy.Proofs.Text.Repair
/-!
# All spellings of a path meet

A report may tell a file by its path below the root, with points ahead of it,
by its absolute path or by a reference, and may escape whatever it likes
(`ReportPath.Spells`). What is escaped comes back
(`ReportPath.Escapes.unescape_eq`), and all of these spellings mean the one
path below the root, under which the file is discovered
(`ReportPath.allSpellings_meet`).
-/

namespace Remedy

/-- A text starts with another one if its bytes do. -/
theorem Utf8.exists_of_encode_eq_append {text ahead : String} {more : Bytes}
    (h : encode text = encode ahead ++ more) : ahead.toList <+: text.toList := by
  generalize hahead : ahead.toList = cs
  induction cs generalizing text ahead with
  | nil => exact List.nil_prefix
  | cons c cs ih =>
    rw [encode_eq_of_toList hahead, List.append_assoc] at h
    obtain ⟨ds, htext⟩ := List.head?_eq_some_iff.1 (head?_eq_some_iff.2 ⟨_, h⟩)
    rw [encode_eq_of_toList htext] at h
    have hrest := ih (List.append_cancel_left h) String.toList_ofList
    rw [String.toList_ofList] at hrest
    rw [htext]
    exact List.cons_prefix_cons.2 ⟨rfl, hrest⟩

/-- **A name that can be written** between two slashes. -/
theorem PathComponent.plain_name_iff {s : String} : (PathComponent.name s).Plain ↔
    s ≠ "" ∧ s ≠ "." ∧ s ≠ ".." ∧ '/' ∉ s.toList := by
  have hempty : s.toList = [] ↔ s = "" := String.toList_eq_nil_iff
  have hpoint : s.toList = ['.'] ↔ s = "." := @String.toList_inj s "."
  have hpoints : s.toList = ['.', '.'] ↔ s = ".." := @String.toList_inj s ".."
  rw [Plain, Path.component?, PathComponent.text]
  split
  case isTrue h =>
    refine iff_of_false (fun hplain => by cases hplain.1) fun hnames => ?_
    rcases h with h | h
    · exact hnames.1 (hempty.1 h)
    · exact hnames.2.1 (hpoint.1 h)
  case isFalse h =>
    rw [not_or, hempty, hpoint] at h
    split
    case isTrue hparent =>
      exact iff_of_false (fun hplain => by cases hplain.1) fun hnames =>
        hnames.2.2.1 (hpoints.1 hparent)
    case isFalse hparent =>
      rw [hpoints] at hparent
      rw [String.ofList_toList]
      exact ⟨fun hplain => ⟨h.1, h.2, hparent, hplain.2⟩, fun hnames => ⟨rfl, hnames.2.2.2⟩⟩

theorem Path.stripComponents?_append (base rest : List PathComponent) :
    stripComponents? base (base ++ rest) = some rest := by
  induction base with
  | nil => rfl
  | cons b base ih => rw [List.cons_append, stripComponents?, if_pos rfl, ih]

/-- What follows a path and a slash adds its parts. -/
theorem Path.components_append_slash {base : Path} {text : String} (hbase : base.isAbsolute) :
    (⟨base.text ++ "/" ++ text⟩ : Path).components =
      base.components ++ (splitAt '/' text.toList).filterMap component? := by
  have hhead : base.text.toList.head? = some '/' := beq_iff_eq.1 hbase
  have habsolute : (⟨base.text ++ "/" ++ text⟩ : Path).isAbsolute = base.isAbsolute := by
    rw [hbase, isAbsolute, String.append_assoc, String.toList_append, List.head?_append, hhead]
    rfl
  refine components_of_append (splitAt_ne_nil base.text.toList) habsolute List.filterMap_nil
    (List.append_nil _).symm ?_
  rw [String.append_assoc, String.toList_append, String.toList_append]
  exact splitAt_append_slash _ _

namespace ReportPath

/-! ## Escapes -/

/-- The bytes that write the digit of a value, small or capital. -/
def digitBytes (n : Nat) : Bytes :=
  [UInt8.ofNat (Hex.digit n).toNat, UInt8.ofNat (Hex.digit n).toUpper.toNat]

/-- **Bytes are escaped**: some of them, among these all percent signs, are
written as a percent sign and two digits. -/
inductive Escapes : Bytes → Bytes → Prop
  | nil : Escapes [] []
  /-- A byte is kept. -/
  | kept {b : UInt8} {bytes raw : Bytes} (hb : b ≠ 37) (h : Escapes bytes raw) :
    Escapes (b :: bytes) (b :: raw)
  /-- A byte is escaped. -/
  | escaped {b hi lo : UInt8} {bytes raw : Bytes} (hhi : hi ∈ digitBytes (b.toNat / 16))
    (hlo : lo ∈ digitBytes (b.toNat % 16)) (h : Escapes bytes raw) :
    Escapes (b :: bytes) (37 :: hi :: lo :: raw)

/-- **One text spells another one** if some bytes are escaped in it, and it
neither starts nor ends with white space: that is escaped at the ends. -/
structure Spells (raw text : String) : Prop where
  escapes : Escapes (Utf8.encode text) (Utf8.encode raw)
  first : ∀ c ∈ raw.toList.head?, isBlank c = false
  last : ∀ c ∈ raw.toList.getLast?, isBlank c = false

variable {b : UInt8} {bytes bytes' : Bytes} {raw text : String} {names place : List String}
  {root : Path} {n : Nat}

theorem value?_of_mem_digitBytes (hn : n < 16) (hb : b ∈ digitBytes n) :
    Hex.value? (Char.ofNat b.toNat) = some n := by
  have hall : ∀ n < 16, ∀ b ∈ digitBytes n, Hex.value? (Char.ofNat b.toNat) = some n := by
    decide +kernel
  exact hall n hn b hb

theorem unescape_of_ne (hb : b ≠ 37) (bytes : Bytes) :
    unescape (b :: bytes) = b :: unescape bytes := by
  rw [unescape.eq_def]
  split
  · simp_all
  · simp_all
  · simp_all

/-- **What was escaped comes back.** -/
theorem Escapes.unescape_eq (h : Escapes bytes bytes') : unescape bytes' = bytes := by
  induction h with
  | nil => rfl
  | kept hb _ ih => rw [unescape_of_ne hb, ih]
  | @escaped b hi lo bytes raw hhi hlo _ ih =>
    have hsum : 16 * (b.toNat / 16) + b.toNat % 16 = b.toNat := Nat.div_add_mod b.toNat 16
    have hlt := b.toNat_lt
    rw [unescape, value?_of_mem_digitBytes (by omega) hhi, value?_of_mem_digitBytes (by omega) hlo]
    simp only [hsum, UInt8.ofNat_toNat, ih]

/-- A text of which the first and the last character are no white space. -/
theorem Spells.of_ends {c d : Char} (h : Escapes (Utf8.encode text) (Utf8.encode raw))
    (hfirst : raw.toList.head? = some c) (hlast : raw.toList.getLast? = some d)
    (hc : isBlank c = false) (hd : isBlank d = false) : Spells raw text where
  escapes := h
  first := by rw [hfirst]; rintro _ ⟨⟩; exact hc
  last := by rw [hlast]; rintro _ ⟨⟩; exact hd

theorem Spells.decode_eq (h : Spells raw text) : decode raw = text := by
  rw [decode, h.escapes.unescape_eq, Utf8.repair_encode]

/-! ## Ends and schemes -/

/-- The mark of a file reference. -/
def scheme : String := "file://"

theorem trim_of_ends (hfirst : ∀ c ∈ raw.toList.head?, isBlank c = false)
    (hlast : ∀ c ∈ raw.toList.getLast?, isBlank c = false) : Text.trim raw = raw := by
  have hkept : ∀ cs : List Char, (∀ c ∈ cs.head?, isBlank c = false) →
      cs.dropWhile isBlank = cs := by
    intro cs hcs
    cases cs with
    | nil => rfl
    | cons c cs => exact List.dropWhile_cons_of_neg (by rw [hcs c rfl]; exact Bool.false_ne_true)
  rw [Text.trim, Text.trimWith, Text.trimStartWith, hkept _ hfirst, String.ofList_toList,
    Text.trimEndWith, hkept _ (by rwa [List.head?_reverse]), List.reverse_reverse,
    String.ofList_toList]

theorem withoutScheme_append (text : String) : withoutScheme (scheme ++ text) = text := by
  have hprefix : scheme.toList.isPrefixOf (scheme ++ text).toList := by
    rw [String.toList_append, List.isPrefixOf_iff_prefix]
    exact List.prefix_append _ _
  rw [withoutScheme]
  refine (if_pos hprefix).trans ?_
  rw [String.toList_append]
  exact (congrArg String.ofList List.drop_left).trans String.ofList_toList

theorem withoutScheme_of_not_prefix (h : ¬ scheme.toList <+: text.toList) :
    withoutScheme text = text := by
  rw [withoutScheme]
  exact if_neg fun hprefix => h (List.isPrefixOf_iff_prefix.1 hprefix)

/-- Bytes that are no percent signs stand for themselves. -/
theorem Escapes.exists_of_append {ahead raw : Bytes} (hahead : 37 ∉ ahead)
    (h : Escapes bytes (ahead ++ raw)) : ∃ rest, bytes = ahead ++ rest := by
  induction ahead generalizing bytes with
  | nil => exact ⟨bytes, rfl⟩
  | cons b ahead ih =>
    rw [List.mem_cons, not_or] at hahead
    rw [List.cons_append] at h
    generalize hraw : ahead ++ raw = more at h
    cases h with
    | kept hb h =>
      rw [← hraw] at h
      obtain ⟨rest, rfl⟩ := ih hahead.2 h
      exact ⟨rest, rfl⟩
    | escaped => exact absurd rfl hahead.1

/-- A text has a scheme if a spelling of it has. -/
theorem Spells.scheme_prefix (h : Spells raw text) (hraw : scheme.toList <+: raw.toList) :
    scheme.toList <+: text.toList := by
  obtain ⟨cs, hcs⟩ := hraw
  have hencode : Utf8.encode raw = Utf8.encode scheme ++ Utf8.encode (String.ofList cs) := by
    rw [← Utf8.encode_append, ← String.ofList_toList (s := raw), ← hcs, String.ofList_append,
      String.ofList_toList]
  have hescapes := h.escapes
  rw [hencode] at hescapes
  obtain ⟨more, hmore⟩ := hescapes.exists_of_append (by decide +kernel)
  exact Utf8.exists_of_encode_eq_append hmore

/-! ## What is meant -/

/-- The path below the root that a path means. -/
def meant (root p : Path) : Path :=
  Path.ofComponents <| (if p.isAbsolute then (p.under? root).getD p.components
    else p.components).filter (· ≠ .current)

/-- Without a scheme **a spelling means what the text means**, -/
theorem Spells.normalize_eq (h : Spells raw text) (hscheme : ¬ scheme.toList <+: text.toList) :
    normalize raw root = meant root ⟨text⟩ := by
  rw [normalize, trim_of_ends h.first h.last,
    withoutScheme_of_not_prefix (mt h.scheme_prefix hscheme), h.decode_eq]
  rfl

/-- and behind a scheme as well. -/
theorem Spells.normalize_scheme_eq (h : Spells raw text) :
    normalize (scheme ++ raw) root = meant root ⟨text⟩ := by
  have hscheme : scheme.toList = ['f', 'i', 'l', 'e', ':', '/', '/'] := by decide
  have htrim : Text.trim (scheme ++ raw) = scheme ++ raw := by
    refine trim_of_ends ?_ ?_
    · rw [String.toList_append, hscheme]
      rintro c ⟨⟩
      decide
    · rw [String.toList_append, List.getLast?_append]
      cases hlast : raw.toList.getLast? with
      | none =>
        rw [hscheme]
        rintro c ⟨⟩
        decide
      | some d =>
        rintro c ⟨⟩
        exact h.last d hlast
  rw [normalize, htrim, withoutScheme_append, h.decode_eq]
  rfl

/-- A path that does not start at the root means its parts. -/
theorem meant_of_relative (hrelative : (⟨text⟩ : Path).isAbsolute = false)
    (hparts : (Path.splitAt '/' text.toList).filterMap Path.component? = names.map .name) :
    meant root ⟨text⟩ = Sources.relative names := by
  rw [meant, if_neg (Bool.eq_false_iff.1 hrelative), Path.filter_components hrelative, hparts]
  rfl

/-- A path behind the root means what is behind it. -/
theorem meant_of_root (hroot : root.isAbsolute)
    (hparts : (Path.splitAt '/' text.toList).filterMap Path.component? = names.map .name) :
    meant root ⟨root.text ++ "/" ++ text⟩ = Sources.relative names := by
  have hcomponents := @Path.components_append_slash root text hroot
  have habsolute : (⟨root.text ++ "/" ++ text⟩ : Path).isAbsolute := by
    rw [Path.isAbsolute_iff] at hroot ⊢
    rw [hcomponents, List.head?_append, hroot]
    rfl
  rw [meant, if_pos habsolute, Path.under?, hcomponents, Path.stripComponents?_append, hparts,
    Option.getD_some, Path.filter_names]
  rfl

/-! ## Names below the root -/

/-- The path of names, as text. -/
def written (names : List String) : String := "/".intercalate names

theorem relative_eq_written : Sources.relative names = ⟨written names⟩ := Sources.relative_eq names

section

variable (hnames : ∀ name ∈ names, (PathComponent.name name).Plain)
include hnames

theorem filterMap_splitAt_written :
    (Path.splitAt '/' (written names).toList).filterMap Path.component? = names.map .name := by
  have hread := Path.filterMap_splitAt_text (Path.plain_names hnames)
  rwa [List.map_map, show PathComponent.text ∘ PathComponent.name = id from rfl, List.map_id]
    at hread

theorem isAbsolute_written : (⟨written names⟩ : Path).isAbsolute = false := by
  rw [← relative_eq_written, Bool.eq_false_iff, ne_eq, Path.isAbsolute_iff,
    Sources.components_relative hnames]
  cases names <;> nofun

/-- No path of names has a scheme: nothing stands between two slashes there. -/
theorem not_scheme_prefix_written : ¬ scheme.toList <+: (written names).toList := by
  rintro ⟨more, hmore⟩
  have hchars : (written names).toList = "file:".toList ++ '/' :: '/' :: more := by
    rw [← hmore, show scheme.toList = "file:".toList ++ ['/', '/'] by decide, List.append_assoc]
    rfl
  have hpieces : [] ∈ Path.splitAt '/' (written names).toList := by
    rw [hchars, @Path.splitAt_append "file:".toList (by decide)]
    exact List.mem_cons_of_mem _ List.mem_cons_self
  by_cases hne : names = []
  · rw [hne] at hmore
    cases hmore
  · have hsplit := Path.splitAt_text (by simpa using hne) (Path.plain_names hnames)
    rw [List.map_map, show PathComponent.text ∘ PathComponent.name = id from rfl, List.map_id]
      at hsplit
    rw [written, hsplit, List.map_map] at hpieces
    obtain ⟨name, hname, hempty⟩ := List.mem_map.1 hpieces
    have hplain := (hnames name hname).1
    rw [show (PathComponent.name name).text.toList = [] from hempty] at hplain
    cases hplain

end

/-- Points ahead of a path do not count. -/
theorem splitAt_point (text : String) : Path.splitAt '/' ("./" ++ text).toList =
    ['.'] :: Path.splitAt '/' text.toList := by
  rw [String.toList_append]
  exact @Path.splitAt_append ['.'] (by decide) text.toList

theorem not_scheme_prefix_of_head? {c : Char} (hc : c ≠ 'f') (h : text.toList.head? = some c) :
    ¬ scheme.toList <+: text.toList := by
  rintro ⟨more, hmore⟩
  rw [← hmore] at h
  exact hc (Option.some.inj h).symm

/-- A point ahead of a path does not count. -/
theorem normalize_point (h : Spells raw ("./" ++ text))
    (hparts : (Path.splitAt '/' text.toList).filterMap Path.component? = names.map .name) :
    normalize raw root = Sources.relative names := by
  have hhead : ("./" ++ text).toList.head? = some '.' := by rw [String.toList_append]; rfl
  have hrelative : (⟨"./" ++ text⟩ : Path).isAbsolute = false := by
    rw [Path.isAbsolute, hhead]
    rfl
  rw [h.normalize_eq (not_scheme_prefix_of_head? (by decide) hhead),
    meant_of_relative hrelative (by rw [splitAt_point]; exact hparts)]

/-- **All spellings of a path meet.** Take a path of names below an absolute
root. Whatever is escaped in it, it means this path; so it does behind one
point or two, behind the root, and behind a scheme and the root. And of the
files that are discovered below a root it is the same path as that of the
file at its names, and of no other one. -/
theorem allSpellings_meet (hroot : root.isAbsolute)
    (hnames : ∀ name ∈ names, name ≠ "" ∧ name ≠ "." ∧ name ≠ ".." ∧ '/' ∉ name.toList) :
    (∀ text ∈ [written names, "./" ++ written names, "././" ++ written names,
        root.text ++ "/" ++ written names],
      ∀ raw, Spells raw text → normalize raw root = ⟨written names⟩) ∧
    (∀ raw, Spells raw (root.text ++ "/" ++ written names) →
      normalize (scheme ++ raw) root = ⟨written names⟩) ∧
    ∀ node : FileNode, node.Tidy → ∀ place ∈ Sources.ofEntries [] node.entries,
      Sources.relative place ∈ Sources.below node ∧
      ((⟨written names⟩ : Path).same (Sources.relative place) ↔ names = place) := by
  have hplain : ∀ name ∈ names, (PathComponent.name name).Plain := fun name hname =>
    PathComponent.plain_name_iff.2 (hnames name hname)
  have hparts := filterMap_splitAt_written hplain
  have hbehind : meant root ⟨root.text ++ "/" ++ written names⟩ = ⟨written names⟩ := by
    rw [meant_of_root hroot hparts, relative_eq_written]
  refine ⟨?_, fun raw h => h.normalize_scheme_eq.trans hbehind, ?_⟩
  · simp only [List.forall_mem_cons]
    refine ⟨fun raw h => ?_, fun raw h => ?_, fun raw h => ?_, fun raw h => ?_, nofun⟩
    · rw [h.normalize_eq (not_scheme_prefix_written hplain),
        meant_of_relative (isAbsolute_written hplain) hparts, relative_eq_written]
    · rw [normalize_point h hparts, relative_eq_written]
    · rw [show "././" = "./" ++ "./" by decide, String.append_assoc] at h
      rw [normalize_point h (by rw [splitAt_point]; exact hparts), relative_eq_written]
    · have hhead : (root.text ++ "/" ++ written names).toList.head? = some '/' := by
        rw [String.append_assoc, String.toList_append, List.head?_append, beq_iff_eq.1 hroot]
        rfl
      rw [h.normalize_eq (not_scheme_prefix_of_head? (by decide) hhead), hbehind]
  · intro node htidy place hplace
    obtain ⟨-, -, -, -, hplainPlace, -⟩ := Sources.exists_of_mem_ofEntries htidy hplace
    refine ⟨List.mem_mergeSort.2 (List.mem_map_of_mem hplace), ?_⟩
    rw [← relative_eq_written, Path.same, beq_iff_eq, Sources.components_relative hplain,
      Sources.components_relative hplainPlace]
    exact (List.map_injective_iff.2 fun _ _ => PathComponent.name.inj).eq_iff

/-- The names of a file in a directory whose name has a blank ahead, a
character of two bytes, and a percent sign. -/
def accented : List String := [" é%", "b.xml"]

/-- A tree with that file. -/
def accentedTree : FileNode := .directory [(" é%", .directory [("b.xml", .file [])])]

/-- The file is told by its path and by a reference below a root with a blank
in it, and it is discovered. -/
theorem allSpellings_meet_accented :
    let root : Path := ⟨"/p q"⟩
    root.isAbsolute ∧
    (∀ name ∈ accented, name ≠ "" ∧ name ≠ "." ∧ name ≠ ".." ∧ '/' ∉ name.toList) ∧
    (Spells "%20%c3%A9%25/b.xml" (written accented) ∧
      normalize "%20%c3%A9%25/b.xml" root = ⟨written accented⟩) ∧
    (Spells "/p%20q/ %C3%a9%25/b.xml" (root.text ++ "/" ++ written accented) ∧
      normalize (scheme ++ "/p%20q/ %C3%a9%25/b.xml") root = ⟨written accented⟩) ∧
    accentedTree.Tidy ∧ Sources.relative accented ∈ Sources.below accentedTree ∧
    (⟨written accented⟩ : Path).same (Sources.relative accented) := by
  intro root
  have hroot : root.isAbsolute := by decide +kernel
  have hnames : ∀ name ∈ accented, name ≠ "" ∧ name ≠ "." ∧ name ≠ ".." ∧ '/' ∉ name.toList := by
    decide +kernel
  have hpath : Spells "%20%c3%A9%25/b.xml" (written accented) := by
    refine .of_ends ?_ (by decide +kernel : _ = some '%') (by decide +kernel : _ = some 'l')
      (by decide) (by decide)
    have htext : Utf8.encode (written accented) =
        [0x20, 0xC3, 0xA9, 0x25, 0x2F, 0x62, 0x2E, 0x78, 0x6D, 0x6C] := by decide +kernel
    have hraw : Utf8.encode "%20%c3%A9%25/b.xml" =
        [37, 0x32, 0x30, 37, 0x63, 0x33, 37, 0x41, 0x39, 37, 0x32, 0x35,
          0x2F, 0x62, 0x2E, 0x78, 0x6D, 0x6C] := by decide +kernel
    rw [htext, hraw]
    refine .escaped (by decide) (by decide) <| .escaped (by decide) (by decide) <|
      .escaped (by decide) (by decide) <| .escaped (by decide) (by decide) ?_
    repeat refine .kept (by decide) ?_
    exact .nil
  have hreference : Spells "/p%20q/ %C3%a9%25/b.xml" (root.text ++ "/" ++ written accented) := by
    refine .of_ends ?_ (by decide +kernel : _ = some '/') (by decide +kernel : _ = some 'l')
      (by decide) (by decide)
    have htext : Utf8.encode (root.text ++ "/" ++ written accented) =
        [0x2F, 0x70, 0x20, 0x71, 0x2F, 0x20, 0xC3, 0xA9, 0x25,
          0x2F, 0x62, 0x2E, 0x78, 0x6D, 0x6C] := by decide +kernel
    have hraw : Utf8.encode "/p%20q/ %C3%a9%25/b.xml" =
        [0x2F, 0x70, 37, 0x32, 0x30, 0x71, 0x2F, 0x20, 37, 0x43, 0x33, 37, 0x61, 0x39,
          37, 0x32, 0x35, 0x2F, 0x62, 0x2E, 0x78, 0x6D, 0x6C] := by decide +kernel
    rw [htext, hraw]
    refine .kept (by decide) <| .kept (by decide) <| .escaped (by decide) (by decide) <|
      .kept (by decide) <| .kept (by decide) <| .kept (by decide) <|
      .escaped (by decide) (by decide) <| .escaped (by decide) (by decide) <|
      .escaped (by decide) (by decide) ?_
    repeat refine .kept (by decide) ?_
    exact .nil
  have htidy : accentedTree.Tidy := by
    have hplain : ∀ name ∈ accented, (PathComponent.name name).Plain := fun name hname =>
      PathComponent.plain_name_iff.2 (hnames name hname)
    refine .directory (by decide) (List.forall_mem_singleton.2 (hplain _ List.mem_cons_self))
      (List.forall_mem_singleton.2 ?_)
    refine .directory (by decide) ?_ (List.forall_mem_singleton.2 (.file [] none))
    exact List.forall_mem_singleton.2 (hplain _ (List.mem_cons_of_mem _ List.mem_cons_self))
  obtain ⟨hspelled, hreferred, hfound⟩ := allSpellings_meet hroot hnames
  obtain ⟨hbelow, hsame⟩ := hfound accentedTree htidy accented (by decide +kernel)
  exact ⟨hroot, hnames, ⟨hpath, hspelled _ List.mem_cons_self _ hpath⟩,
    ⟨hreference, hreferred _ hreference⟩, htidy, hbelow, hsame.2 rfl⟩

end ReportPath

end Remedy
