import Mathlib
import Remedy.Proofs.Findings.Fields
import Remedy.Proofs.Order
import Remedy.Proofs.Text.Guarded
/-!
# Where the results of a report are

The location of a result runs forwards, and its numbers fit
(`Location.WellFormed`). A region of a SARIF log has one unless it means no
place (`Sarif.Region.Void`). Here it is also computed step by step, so that a
sum or a difference can leave its range; none ever does for the numbers that
a log can hold (`Guarded.location?_eq`).
-/

namespace Remedy

/-- A place that fits the numbers of a report. -/
structure Position.Fits (p : Position) : Prop where
  line : p.line < 2 ^ 32
  column : p.column < 2 ^ 32

/-- **A location is well formed**: it runs forwards, and its numbers fit. -/
structure Location.WellFormed (l : Location) : Prop where
  ordered : (l.start.order l.stop).isLE
  start : l.start.Fits
  stop : l.stop.Fits
  bytes : ∀ span ∈ l.bytes, span.start ≤ span.stop ∧ span.stop < 2 ^ 64

namespace Position

variable {p q : Position}

theorem order_later_isLE (p q : Position) : (p.order (q.later p)).isLE := by
  rw [later]
  split
  case isTrue =>
    rw [@Std.ReflCmp.compare_self _ order _ p]
    rfl
  case isFalse h =>
    rw [@Std.OrientedCmp.eq_swap _ order _ p q]
    revert h
    cases q.order p <;> decide

theorem Fits.later (hp : p.Fits) (hq : q.Fits) : (q.later p).Fits := by
  rw [Position.later]
  split
  case isTrue => exact hp
  case isFalse => exact hq

end Position

/-! ## Regions -/

namespace Sarif.Region

variable {r : Region} {columns : ColumnUnit} {l : Location}

/-- **A region that means no place**: it starts on line zero, it starts
nowhere, or its bytes end where no offset is. -/
inductive Void (r : Region) : Prop where
  | lineZero (h : r.startLine = some 0)
  | nowhere (hline : r.startLine = none) (hbytes : r.byteOffset = none)
  | tooLong {offset : Nat} (h : r.byteOffset = some offset)
    (hlong : 2 ^ 64 - 1 < offset + r.byteLength.getD 0)

theorem bytes?_eq_none_iff : r.bytes? = none ↔
    ∃ offset, r.byteOffset = some offset ∧ 2 ^ 64 - 1 < offset + r.byteLength.getD 0 := by
  have hlimit : Power.two 64 = 2 ^ 64 := rfl
  rw [bytes?]
  cases r.byteOffset with
  | none => simp
  | some offset =>
    simp only [Option.some.injEq, exists_eq_left']
    split
    · simp; omega
    · simp; omega

theorem firstLine?_eq_none_iff : r.firstLine? = none ↔
    r.startLine = some 0 ∨ r.startLine = none ∧ r.byteOffset = none := by
  rw [firstLine?]
  cases r.startLine with
  | none => cases r.byteOffset <;> simp
  | some line => cases line <;> simp

/-- **A region has a location** unless it means no place. -/
theorem location?_eq_none_iff : r.location? columns = none ↔ r.Void := by
  have hparts : r.location? columns = none ↔ r.bytes? = none ∨ r.firstLine? = none := by
    rw [location?]
    cases r.bytes? <;> cases r.firstLine? <;> simp
  rw [hparts, bytes?_eq_none_iff, firstLine?_eq_none_iff]
  constructor
  · rintro (⟨offset, hoffset, hlong⟩ | hline | ⟨hline, hbytes⟩)
    · exact .tooLong hoffset hlong
    · exact .lineZero hline
    · exact .nowhere hline hbytes
  · rintro (hline | ⟨hline, hbytes⟩ | ⟨hoffset, hlong⟩)
    · exact Or.inr (Or.inl hline)
    · exact Or.inr (Or.inr ⟨hline, hbytes⟩)
    · exact Or.inl ⟨_, hoffset, hlong⟩

/-! ### Numbers that fit -/

/-- The place on the first line where a region starts. -/
def startOn (r : Region) (first : Nat) : Position := ⟨first, r.startColumn.getD 1 - 1⟩

/-- The last line of a region, which is none before the first one. -/
def lastLine (r : Region) (first : Nat) : Nat := max ((r.endLine.map (· - 1)).getD first) first

/-- The place where a region stops: on the last line, or behind it. -/
def stopOn (r : Region) (last : Nat) : Position :=
  match r.endColumn with
  | some column => ⟨last, column - 1⟩
  | none => ⟨last + 1, 0⟩

theorem location?_eq (r : Region) (columns : ColumnUnit) :
    r.location? columns = r.bytes?.bind fun bytes => r.firstLine?.bind fun first =>
      some ⟨r.startOn first, (r.stopOn (r.lastLine first)).later (r.startOn first), bytes,
        columns⟩ :=
  rfl

theorem bytes_forwards {bytes : Option Span} (h : r.bytes? = some bytes) :
    ∀ span ∈ bytes, span.start ≤ span.stop ∧ span.stop < 2 ^ 64 := by
  rw [bytes?] at h
  split at h
  case h_1 =>
    cases h
    nofun
  case h_2 offset =>
    dsimp only at h
    split at h
    case isFalse => cases h
    case isTrue hlt =>
      cases h
      rintro span ⟨⟩
      exact ⟨Nat.le_add_right _ _, hlt⟩

namespace Fits

variable {first : Nat} (hfits : r.Fits)
include hfits

/-- There is a line behind the first one, -/
theorem firstLine_lt (h : r.firstLine? = some first) : first + 1 < 2 ^ 32 := by
  have hline := hfits.words r.startLine List.mem_cons_self
  rw [firstLine?] at h
  split at h
  case h_1 => cases h
  case h_2 line heq =>
    rw [heq] at hline
    obtain rfl := Option.some.inj h
    exact hline _ rfl
  case h_3 =>
    split at h
    case isTrue =>
      obtain rfl := Option.some.inj h
      decide
    case isFalse => cases h

/-- and one behind the last one. -/
theorem lastLine_lt (h : r.firstLine? = some first) : r.lastLine first + 1 < 2 ^ 32 := by
  have hfirst := hfits.firstLine_lt h
  have hline := hfits.words r.endLine (by simp)
  rw [lastLine]
  cases hend : r.endLine with
  | none => simpa using hfirst
  | some line =>
    have hlt := hline line hend
    simp only [Option.map_some, Option.getD_some]
    omega

theorem startOn (h : r.firstLine? = some first) : (r.startOn first).Fits := by
  have hfirst := hfits.firstLine_lt h
  have hcolumn := hfits.words r.startColumn (by simp)
  refine ⟨Nat.lt_of_succ_lt hfirst, ?_⟩
  rw [Region.startOn]
  cases hstart : r.startColumn with
  | none => exact Nat.two_pow_pos 32
  | some column => exact (Nat.sub_le _ _).trans_lt (hcolumn column hstart)

theorem stopOn (h : r.firstLine? = some first) : (r.stopOn (r.lastLine first)).Fits := by
  have hlast := hfits.lastLine_lt h
  have hcolumn := hfits.words r.endColumn (by simp)
  rw [Region.stopOn]
  split
  case h_1 column hend =>
    exact ⟨Nat.lt_of_succ_lt hlast, (Nat.sub_le _ _).trans_lt (hcolumn column hend)⟩
  case h_2 => exact ⟨hlast, Nat.two_pow_pos 32⟩

/-- **The location of a region that fits is well formed.** -/
theorem wellFormed (h : r.location? columns = some l) : l.WellFormed := by
  rw [location?_eq] at h
  obtain ⟨bytes, hbytes, h⟩ := Option.bind_eq_some_iff.1 h
  obtain ⟨first, hfirst, h⟩ := Option.bind_eq_some_iff.1 h
  obtain rfl := Option.some.inj h
  have hstart := hfits.startOn hfirst
  exact ⟨Position.order_later_isLE _ _, hstart, hstart.later (hfits.stopOn hfirst),
    bytes_forwards hbytes⟩

end Fits

end Sarif.Region

/-! ## Step by step -/

namespace Guarded

open Sarif (Region)

variable {r : Region} {first last : Nat}

/-- The bytes of a region. That their sum leaves its range is noticed. -/
def bytes? (r : Region) : Option (Option Span) :=
  match r.byteOffset with
  | none => some none
  | some offset =>
    (add (2 ^ 64 - 1) offset (r.byteLength.getD 0)).toOption.map fun stop => some ⟨offset, stop⟩

/-- The first line of a region, from zero. -/
def firstLine? (r : Region) : Except Halt (Option Nat) :=
  match r.startLine with
  | some line => if 1 ≤ line then some <$> sub line 1 else .ok none
  | none => .ok (if r.byteOffset.isSome then some 0 else none)

/-- The place where a region stops. -/
def stopOn (r : Region) (last : Nat) : Except Halt Position :=
  match r.endColumn with
  | some column => .ok ⟨last, column - 1⟩
  | none => do
    let next ← add (2 ^ 32 - 1) last 1
    .ok ⟨next, 0⟩

/-- The location of a region. Other columns and lines are counted from zero
by differences that stop there. -/
def location? (r : Region) (columns : ColumnUnit) : Except Halt (Option Location) :=
  match bytes? r with
  | none => .ok none
  | some bytes => do
    match ← firstLine? r with
    | none => .ok none
    | some first =>
      let stop ← stopOn r (r.lastLine first)
      .ok (some ⟨r.startOn first, stop.later (r.startOn first), bytes, columns⟩)

theorem bytes?_eq (r : Region) : bytes? r = r.bytes? := by
  have hlimit : Power.two 64 = 2 ^ 64 := rfl
  rw [bytes?, Region.bytes?]
  cases r.byteOffset with
  | none => rfl
  | some offset =>
    simp only [add]
    by_cases hroom : offset + r.byteLength.getD 0 ≤ 2 ^ 64 - 1
    · rw [if_pos hroom, if_pos (by omega)]
      rfl
    · rw [if_neg hroom, if_neg (by omega)]
      rfl

theorem firstLine?_eq (r : Region) : firstLine? r = .ok r.firstLine? := by
  rw [firstLine?, Region.firstLine?]
  cases r.startLine with
  | none => rfl
  | some line => cases line <;> rfl

theorem stopOn_eq (h : last + 1 < 2 ^ 32) : stopOn r last = .ok (r.stopOn last) := by
  rw [stopOn, Region.stopOn]
  cases r.endColumn with
  | some column => rfl
  | none =>
    simp only [add]
    rw [if_pos (by omega)]
    rfl

/-- **No step leaves its range** where the numbers of a region fit. -/
theorem location?_eq (hfits : r.Fits) (columns : ColumnUnit) :
    location? r columns = .ok (r.location? columns) := by
  rw [location?, Region.location?_eq, bytes?_eq, firstLine?_eq]
  cases r.bytes? with
  | none => rfl
  | some bytes =>
    cases hfirst : r.firstLine? with
    | none => rfl
    | some first =>
      simp only [bind, Except.bind, stopOn_eq (hfits.lastLine_lt hfirst)]
      rfl

end Guarded

/-! ## Marks -/

/-- **The location of a result of Semgrep is well formed** if its marks
fit. -/
theorem Semgrep.Result.wellFormed_location {result : Semgrep.Result}
    (hfits : ∀ mark ∈ [result.start, result.stop], mark.Fits) : result.location.WellFormed := by
  have hplace {mark : Mark} (h : mark.Fits) : mark.position.Fits :=
    ⟨(Nat.sub_le _ _).trans_lt h.line, (Nat.sub_le _ _).trans_lt h.column⟩
  obtain ⟨hstart, hstop⟩ := List.forall_mem_cons.1 hfits
  rw [List.forall_mem_singleton] at hstop
  have hspans : ∀ span ∈ result.location.bytes, span.start ≤ span.stop ∧ span.stop < 2 ^ 64 := by
    rw [location]
    intro span hspan
    dsimp only at hspan
    split at hspan
    case h_1 s e hs he =>
      split at hspan
      case isTrue hle =>
        cases hspan
        exact ⟨hle, hstop.offset e he⟩
      case isFalse => cases hspan
    case h_2 => cases hspan
  exact ⟨Position.order_later_isLE _ _, hplace hstart, (hplace hstart).later (hplace hstop), hspans⟩

end Remedy
