import Mathlib.Data.List.Basic
import Remedy.Files.Node
/-!
# Places of a tree

A change at a place of a tree shows at that place (`FileNode.at?_alter`) and
nowhere else, if no directory comes or goes with it
(`FileNode.bare_at?_alter`). New content of a file of several names shows at
each of them (`FileNode.at?_refill`). What is made where nothing was and then
removed leaves the tree as it was (`FileNode.remove_put`).
-/

namespace Remedy

namespace FileNode

/-- A node on its own, without what is below it. -/
def bare : FileNode → FileNode
  | .directory _ => .directory []
  | node => node

variable {name n : String} {node new : FileNode} {place q r : List String}
  {change : Option FileNode → Option FileNode} {es : List (String × FileNode)}

/-! ## Entries -/

theorem lookup_filter_self (name : String) (es : List (String × FileNode)) :
    (es.filter fun entry => entry.1 ≠ name).lookup name = none := by
  rw [List.lookup_eq_none_iff]
  intro entry hentry
  have hne : entry.1 ≠ name := of_decide_eq_true (List.mem_filter.1 hentry).2
  exact bne_iff_ne.2 hne.symm

theorem lookup_filter_of_ne (h : n ≠ name) (es : List (String × FileNode)) :
    (es.filter fun entry => entry.1 ≠ name).lookup n = es.lookup n := by
  induction es with
  | nil => rfl
  | cons entry es ih =>
    obtain ⟨m, child⟩ := entry
    by_cases hm : m = name
    · rw [List.filter_cons_of_neg (by simpa using hm), ih, hm, List.lookup_cons,
        beq_eq_false_iff_ne.2 h]
    · rw [List.filter_cons_of_pos (by simpa using hm), List.lookup_cons, List.lookup_cons, ih]

/-- **The entry that was changed**, -/
theorem lookup_alterEntry_self (name : String) (es : List (String × FileNode)) :
    (alterEntry name change es).lookup name = change (es.lookup name) := by
  induction es with
  | nil =>
    rw [alterEntry, List.lookup_nil]
    cases change none with
    | none => rfl
    | some new => exact List.lookup_cons_self
  | cons entry es ih =>
    obtain ⟨m, child⟩ := entry
    rw [alterEntry]
    by_cases hm : m = name
    · rw [if_pos hm, hm, List.lookup_cons_self]
      cases hchange : change (some child) with
      | none => exact lookup_filter_self name es
      | some new => exact List.lookup_cons_self
    · rw [if_neg hm, List.lookup_cons, List.lookup_cons, beq_eq_false_iff_ne.2 (Ne.symm hm), ih]

/-- and any other one. -/
theorem lookup_alterEntry_of_ne (h : n ≠ name) (es : List (String × FileNode)) :
    (alterEntry name change es).lookup n = es.lookup n := by
  have hname : (n == name) = false := beq_eq_false_iff_ne.2 h
  induction es with
  | nil =>
    rw [alterEntry]
    cases change none with
    | none => rfl
    | some new => rw [Option.map_some, Option.toList_some, List.lookup_cons, hname]
  | cons entry es ih =>
    obtain ⟨m, child⟩ := entry
    rw [alterEntry]
    by_cases hm : m = name
    · rw [if_pos hm, hm, List.lookup_cons, hname]
      cases hchange : change (some child) with
      | none => exact lookup_filter_of_ne h es
      | some new => rw [List.lookup_cons, hname]
    · rw [if_neg hm, List.lookup_cons, List.lookup_cons, ih]

/-- An entry that is left as it is leaves all as they are. -/
theorem alterEntry_eq_self (h : change (es.lookup name) = es.lookup name) :
    alterEntry name change es = es := by
  induction es with
  | nil =>
    rw [List.lookup_nil] at h
    rw [alterEntry, h]
    rfl
  | cons entry es ih =>
    obtain ⟨m, child⟩ := entry
    rw [alterEntry]
    by_cases hm : m = name
    · rw [hm, List.lookup_cons_self] at h
      rw [if_pos hm, h, hm]
    · rw [List.lookup_cons, beq_eq_false_iff_ne.2 (Ne.symm hm)] at h
      rw [if_neg hm, ih h]

/-- An entry that is made where none of its name was, and then removed. -/
theorem alterEntry_removed (h : es.lookup name = none) (new : FileNode) :
    alterEntry name (fun _ => none) (alterEntry name (fun _ => some new) es) = es := by
  induction es with
  | nil =>
    rw [alterEntry, Option.map_some, Option.toList_some, alterEntry, if_pos rfl]
    rfl
  | cons entry es ih =>
    obtain ⟨m, child⟩ := entry
    rw [List.lookup_cons] at h
    by_cases hm : m = name
    · rw [hm, beq_self_eq_true] at h
      cases h
    · rw [beq_eq_false_iff_ne.2 (Ne.symm hm)] at h
      rw [alterEntry, if_neg hm, alterEntry, if_neg hm, ih h]

/-- An entry that is there, changed twice. -/
theorem alterEntry_map_map (f g : FileNode → FileNode) (es : List (String × FileNode)) :
    alterEntry name (Option.map g) (alterEntry name (Option.map f) es) =
      alterEntry name (Option.map (g ∘ f)) es := by
  induction es with
  | nil => rfl
  | cons entry es ih =>
    obtain ⟨m, child⟩ := entry
    by_cases hm : m = name
    · rw [alterEntry, if_pos hm, Option.map_some, alterEntry, if_pos rfl, Option.map_some,
        alterEntry, if_pos hm, Option.map_some, Function.comp]
    · rw [alterEntry, if_neg hm, alterEntry, if_neg hm, alterEntry, if_neg hm, ih]

/-! ## Places -/

theorem at?_cons (node : FileNode) (m : String) (q : List String) :
    node.at? (m :: q) = (node.entries.lookup m).bind fun child => child.at? q := by
  rw [at?]
  cases node.entries.lookup m <;> rfl

/-- A place below another one. -/
theorem at?_append (node : FileNode) (p q : List String) :
    node.at? (p ++ q) = (node.at? p).bind fun child => child.at? q := by
  induction p generalizing node with
  | nil => rfl
  | cons m p ih =>
    rw [List.cons_append, at?_cons, at?_cons]
    cases node.entries.lookup m with
    | none => rfl
    | some child => exact ih child

/-- Nothing is below what is no directory. -/
theorem at?_of_not_isDirectory (h : node.isDirectory = false) (hne : q ≠ []) :
    node.at? q = none := by
  obtain ⟨m, rest, rfl⟩ := List.exists_cons_of_ne_nil hne
  cases node with
  | file | link => rfl
  | directory => cases h

/-- **What is there stands in a directory.** -/
theorem isDirectory_above (h : (node.at? (q ++ [name])).isSome) :
    ∃ above, node.at? q = some above ∧ above.isDirectory := by
  rw [at?_append] at h
  cases habove : node.at? q with
  | none =>
    rw [habove] at h
    cases h
  | some above =>
    refine ⟨above, rfl, Bool.of_not_eq_false fun hno => ?_⟩
    rw [habove, Option.bind_some, at?_of_not_isDirectory hno (List.cons_ne_nil name [])] at h
    cases h

theorem alter_singleton (name : String) (es : List (String × FileNode)) :
    alter change [name] (.directory es) = .directory (alterEntry name change es) := rfl

theorem alter_cons (m : String) (hne : q ≠ []) (es : List (String × FileNode)) :
    alter change (m :: q) (.directory es) =
      .directory (alterEntry m (Option.map (alter change q)) es) := by
  cases q with
  | nil => exact absurd rfl hne
  | cons => rfl

/-- **What a change shows at its place**, if the directory of the place is
there. -/
theorem at?_alter {above : FileNode} (h : node.at? q = some above) (hdir : above.isDirectory) :
    (node.alter change (q ++ [name])).at? (q ++ [name]) = change (node.at? (q ++ [name])) := by
  have hself : ∀ child : Option FileNode, (child.bind fun child => child.at? []) = child := by
    rintro (_ | child) <;> rfl
  induction q generalizing node with
  | nil =>
    obtain rfl := Option.some.inj h
    cases node with
    | file | link => cases hdir
    | directory es =>
      rw [List.nil_append, alter_singleton, at?_cons, at?_cons, entries, entries,
        lookup_alterEntry_self, hself, hself]
  | cons m q ih =>
    rw [at?_cons] at h
    cases node with
    | file | link => cases h
    | directory es =>
      obtain ⟨child, hchild, hbelow⟩ := Option.bind_eq_some_iff.1 h
      rw [entries] at hchild
      rw [List.cons_append, alter_cons m (List.concat_ne_nil name q), at?_cons, at?_cons, entries,
        entries, lookup_alterEntry_self, hchild, Option.map_some, Option.bind_some,
        Option.bind_some, ih hbelow]

/-- A change below no directory changes nothing. -/
theorem alter_of_not_isDirectory (h : node.isDirectory = false) :
    node.alter change place = node := by
  cases node with
  | directory => cases h
  | file | link => rcases place with _ | ⟨m, _ | ⟨n, place⟩⟩ <;> rfl

/-- **A change shows nowhere but at and below its place.** -/
theorem bare_at?_alter_of_not_prefix (h : ¬ place <+: q) :
    ((node.alter change place).at? q).map bare = (node.at? q).map bare := by
  induction place generalizing node q with
  | nil => exact absurd (List.nil_prefix) h
  | cons m place ih =>
    cases node with
    | file | link => rw [alter_of_not_isDirectory rfl]
    | directory es =>
      cases q with
      | nil => cases place <;> rfl
      | cons n q =>
        by_cases hn : n = m
        · subst hn
          have hbelow : ¬ place <+: q := fun hprefix => h (List.cons_prefix_cons.2 ⟨rfl, hprefix⟩)
          have hne : place ≠ [] := by
            rintro rfl
            exact hbelow List.nil_prefix
          rw [alter_cons n hne, at?_cons, at?_cons, entries, entries, lookup_alterEntry_self]
          cases es.lookup n with
          | none => rfl
          | some child => exact ih hbelow
        · have hother : ∃ change', alter change (m :: place) (.directory es) =
              .directory (alterEntry m change' es) := by
            cases place with
            | nil => exact ⟨_, rfl⟩
            | cons => exact ⟨_, rfl⟩
          obtain ⟨change', hchange⟩ := hother
          rw [hchange, at?_cons, at?_cons, entries, entries, lookup_alterEntry_of_ne hn]

/-- **A change shows at its place alone**, if no directory comes or goes
with it. -/
theorem bare_at?_alter {above : FileNode} (h : node.at? q = some above) (hdir : above.isDirectory)
    (hold : ∀ child, node.at? (q ++ [name]) = some child → child.isDirectory = false)
    (hnew : ∀ child, change (node.at? (q ++ [name])) = some child → child.isDirectory = false)
    (hne : r ≠ q ++ [name]) :
    ((node.alter change (q ++ [name])).at? r).map bare = (node.at? r).map bare := by
  by_cases hprefix : q ++ [name] <+: r
  · obtain ⟨below, rfl⟩ := hprefix
    have hbelow : below ≠ [] := by
      rintro rfl
      exact hne (List.append_nil _)
    have hnone : ∀ child : Option FileNode, (∀ node, child = some node → node.isDirectory = false) →
        (child.bind fun node => node.at? below) = none := by
      rintro (_ | node) hnode
      · rfl
      · exact at?_of_not_isDirectory (hnode node rfl) hbelow
    rw [at?_append, at?_alter h hdir, hnone _ hnew, at?_append, hnone _ hold]
  · exact bare_at?_alter_of_not_prefix hprefix

/-! ## Files of several names -/

/-- The number of a file of several names. -/
def number? : FileNode → Option Nat
  | .file _ number => number
  | _ => none

theorem lookup_refillEntries (number : Nat) (content : Bytes) (n : String)
    (es : List (String × FileNode)) :
    (refillEntries number content es).lookup n =
      (es.lookup n).map fun child => child.refill number content := by
  induction es with
  | nil => rfl
  | cons entry es ih =>
    obtain ⟨m, child⟩ := entry
    rw [refillEntries, List.lookup_cons, List.lookup_cons]
    cases n == m with
    | true => rfl
    | false => exact ih

/-- **New content of a file shows at all its names**, and at no other place. -/
theorem at?_refill (number : Nat) (content : Bytes) (node : FileNode) (q : List String) :
    (node.refill number content).at? q =
      (node.at? q).map fun child => child.refill number content := by
  induction q generalizing node with
  | nil => rfl
  | cons m q ih =>
    have hentries : (node.refill number content).entries =
        refillEntries number content node.entries := by
      cases node <;> rw [refill] <;> rfl
    rw [at?_cons, at?_cons, hentries, lookup_refillEntries]
    cases node.entries.lookup m with
    | none => rfl
    | some child => exact ih child

theorem bare_refill (number : Nat) (content : Bytes) (node : FileNode) :
    (node.refill number content).bare = node.bare.refill number content := by
  cases node <;> simp only [refill, refillEntries, bare]

theorem refill_of_number?_ne {number : Nat} (h : node.number? ≠ some number) (content : Bytes) :
    node.bare.refill number content = node.bare := by
  cases node with
  | file old own => simp only [bare, refill, if_neg (show own ≠ some number from h)]
  | link | directory => simp only [bare, refill, refillEntries]

/-- **What is made where nothing was and then removed** leaves no trace. -/
theorem remove_put (h : node.at? place = none) (new : FileNode) :
    (node.put place new).remove place = node := by
  rw [put, remove]
  induction place generalizing node with
  | nil => rfl
  | cons m place ih =>
    cases node with
    | file | link => cases place <;> rfl
    | directory es =>
      rw [at?_cons, entries] at h
      by_cases hlast : place = []
      · subst hlast
        have hnone : es.lookup m = none := by
          cases hentry : es.lookup m with
          | none => rfl
          | some child =>
            rw [hentry] at h
            cases h
        rw [alter_singleton, alter_singleton, alterEntry_removed hnone]
      · rw [alter_cons m hlast, alter_cons m hlast, alterEntry_map_map, alterEntry_eq_self]
        cases hentry : es.lookup m with
        | none => rfl
        | some child =>
          rw [hentry] at h
          exact congrArg some (ih h)

end FileNode

end Remedy
