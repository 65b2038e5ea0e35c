import Mathlib
import Remedy.Json.Decode
import Remedy.Proofs.Failing
/-!
# What a decoder lets through

A typed reading of a document refuses what does not fit, so its values have
properties that no document can break (`Json.Decoder.Yields`). They are found
as the decoder is built: from those of its fields, one rule for each way to
build one.
-/

namespace Remedy

variable {ε α β : Type} {p : α → Prop} {q : β → Prop}

/-- **All values** that a computation can come to have a property. -/
def Returns (x : Except ε α) (p : α → Prop) : Prop := ∀ a, x = .ok a → p a

namespace Returns

theorem any {x : Except ε α} : Returns x fun _ => True := fun _ _ => trivial

theorem imp {x : Except ε α} {p' : α → Prop} (h : Returns x p) (himp : ∀ a, p a → p' a) :
    Returns x p' :=
  fun a ha => himp a (h a ha)

theorem map {x : Except ε α} {f : α → β} (h : Returns x fun a => q (f a)) :
    Returns (x.map f) q := by
  cases x with
  | error e => nofun
  | ok a =>
    rintro b ⟨⟩
    exact h a rfl

theorem mapError {ε' : Type} {x : Except ε α} {f : ε → ε'} (h : Returns x p) :
    Returns (x.mapError f) p := by
  cases x with
  | error e => nofun
  | ok a =>
    rintro b ⟨⟩
    exact h a rfl

theorem mapM {f : α → Except ε β} (h : ∀ a, Returns (f a) q) (as : List α) :
    Returns (as.mapM f) fun bs => ∀ b ∈ bs, q b := by
  intro bs hbs b hb
  obtain ⟨a, -, ha⟩ := exists_mem_of_mapM_eq_ok hbs b hb
  exact h a b ha

end Returns

namespace Json

/-- **All that a decoder yields** has a property, whatever it reads. -/
def Decoder.Yields (decode : Decoder α) (p : α → Prop) : Prop := ∀ doc, Returns (decode doc) p

variable {decode : Decoder α}

open Decoder

theorem yields_boundedBy (name : String) (bound : Nat) :
    Yields (boundedBy name bound) (· < bound) := by
  intro doc n h
  rw [boundedBy.eq_def] at h
  split at h
  case h_1 m =>
    split at h
    case isTrue hlt =>
      cases h
      exact hlt
    case isFalse => cases h
  case h_2 => cases h
  case h_3 => cases h

theorem yields_word32 : Yields word32 (· < 2 ^ 32) := yields_boundedBy _ _

theorem yields_size : Yields size (· < 2 ^ 64) := yields_boundedBy _ _

theorem yields_nullable (h : Yields decode p) : Yields (nullable decode) fun a => ∀ b ∈ a, p b := by
  intro doc
  rw [nullable.eq_def]
  split
  · rintro a ⟨⟩
    nofun
  · refine Returns.map fun a ha => ?_
    rintro b ⟨⟩
    exact h _ a ha

theorem yields_listOf (h : Yields decode p) : Yields (listOf decode) fun as => ∀ a ∈ as, p a := by
  intro doc
  rw [listOf.eq_def]
  split
  · exact Returns.mapM h _
  · nofun

/-- Two fields that were read side by side. -/
theorem returns_and {a : FieldResult α} {b : FieldResult β} (ha : Returns a p)
    (hb : Returns b q) : Returns (a.and b) fun ab => p ab.1 ∧ q ab.2 := by
  cases a with
  | error e => cases b <;> nofun
  | ok x =>
    cases b with
    | error e => nofun
    | ok y =>
      rintro ab ⟨⟩
      exact ⟨ha x rfl, hb y rfl⟩

/-- A field holds what its decoder yields, or what stands in for it. -/
theorem returns_field (h : Yields decode p) {absent : Option α}
    (habsent : ∀ a, absent = some a → p a) (r : Record) (index : Nat) (key : String) :
    Returns (r.field index key decode absent) p := by
  rw [Record.field.eq_def]
  split
  · split
    · exact (h _).mapError
    · split
      · exact fun a ha => habsent a (congrArg some (Except.ok.inj ha))
      · nofun
  · split
    · exact (h _).mapError
    · split
      · exact fun a ha => habsent a (congrArg some (Except.ok.inj ha))
      · nofun

theorem returns_required (h : Yields decode p) (r : Record) (index : Nat) (key : String) :
    Returns (r.required index key decode) p :=
  @returns_field α p decode h none nofun r index key

theorem returns_optional (h : Yields decode p) (r : Record) (index : Nat) (key : String) :
    Returns (r.optional index key decode) fun a => ∀ b ∈ a, p b :=
  returns_field (yields_nullable h) (by rintro a ⟨⟩; nofun) r index key

/-- **A record yields** what its fields make of one another. -/
theorem yields_record {name : String} {fields : Nat} {result : Record → FieldResult α}
    (h : ∀ r, Returns (result r) p) :
    Yields (fun doc => record name fields doc >>= fun r => r.done (result r)) p := by
  intro doc a ha
  obtain ⟨r, -, hdone⟩ := exists_of_bind_eq_ok ha
  have hresult : result r = .ok a := by
    rw [Record.done, Record.finish.eq_def] at hdone
    split at hdone
    case h_1 => cases hdone
    case h_2 value hvalue =>
      split at hdone
      case h_1 => rw [hvalue, Except.ok.inj hdone]
      case h_2 =>
        split at hdone
        case isTrue => rw [hvalue, Except.ok.inj hdone]
        case isFalse => cases hdone
  exact h r a hresult

end Json

end Remedy
