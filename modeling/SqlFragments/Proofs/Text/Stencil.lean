import Mathlib.Data.List.DropRight
import Mathlib.Data.List.Infix
import SqlFragments.Proofs.Text.Tight

/-!
# Stencils

A statement of which it is known where its values stand: a row of characters and of slots for
values. With a mark in each slot it is one text, with the literals of the values another. Where the
literals are tight, trimming the row trims both.
-/

namespace SqlFragments.Text

variable {α : Type}

inductive Piece (α : Type)
  | char (c : Char)
  | slot (a : α)
deriving DecidableEq

namespace Piece

def mark : Piece α → Char
  | char c => c
  | slot _ => '?'

def write (literal : α → List Char) : Piece α → List Char
  | char c => [c]
  | slot a => literal a

def value? : Piece α → Option α
  | char _ => none
  | slot a => some a

def isBlank : Piece α → Bool
  | char c => Text.isBlank c
  | slot _ => false

theorem isBlank_mark (piece : Piece α) : Text.isBlank piece.mark = piece.isBlank := by
  cases piece <;> rfl

end Piece

abbrev Stencil (α : Type) := List (Piece α)

namespace Stencil

variable {literal : α → List Char} {stencil stencil' : Stencil α}

def ofText (cs : List Char) : Stencil α := cs.map .char

def marked (stencil : Stencil α) : List Char := stencil.map Piece.mark

def written (literal : α → List Char) (stencil : Stencil α) : List Char :=
  stencil.flatMap (Piece.write literal)

def values (stencil : Stencil α) : List α := stencil.filterMap Piece.value?

protected def trim (stencil : Stencil α) : Stencil α :=
  (stencil.dropWhile Piece.isBlank).rdropWhile Piece.isBlank

@[simp]
theorem marked_append : (stencil ++ stencil').marked = stencil.marked ++ stencil'.marked :=
  List.map_append

@[simp]
theorem written_append :
    written literal (stencil ++ stencil') = written literal stencil ++ written literal stencil' :=
  List.flatMap_append

@[simp]
theorem values_append : (stencil ++ stencil').values = stencil.values ++ stencil'.values :=
  List.filterMap_append

@[simp]
theorem marked_ofText (cs : List Char) : (ofText cs : Stencil α).marked = cs := by
  simp [ofText, marked, Function.comp_def, Piece.mark]

@[simp]
theorem written_ofText (cs : List Char) : written literal (ofText cs) = cs := by
  induction cs with
  | nil => rfl
  | cons c cs ih => exact congrArg (c :: ·) ih

@[simp]
theorem values_ofText (cs : List Char) : (ofText cs : Stencil α).values = [] := by
  induction cs with
  | nil => rfl
  | cons c cs ih => exact ih

theorem marked_eq_nil_iff : stencil.marked = [] ↔ stencil = [] := List.map_eq_nil_iff

theorem written_eq_nil_iff (htight : ∀ a ∈ stencil.values, Tight (literal a)) :
    written literal stencil = [] ↔ stencil = [] := by
  cases stencil with
  | nil => simp [written]
  | cons piece rest =>
    cases piece with
    | char c => simp [written, Piece.write]
    | slot a =>
      have hne := (htight a List.mem_cons_self).ne_nil
      simp [written, Piece.write, hne]

/-! ## Joining -/

protected def join (separator : List Char) (values : List α) : Stencil α :=
  (ofText separator).intercalate (values.map fun a => [.slot a])

private theorem intercalate_of_append {β γ : Type} {read : List β → List γ} (hnil : read [] = [])
    (happend : ∀ first second, read (first ++ second) = read first ++ read second)
    (separator : List β) (parts : List (List β)) :
    read (separator.intercalate parts) = (read separator).intercalate (parts.map read) := by
  induction parts with
  | nil => exact hnil
  | cons part rest ih =>
    cases rest with
    | nil => simp
    | cons next rest =>
      rw [List.intercalate_cons_cons, happend, happend, ih]
      simp only [List.map_cons, List.intercalate_cons_cons]

theorem marked_join (separator : List Char) (values : List α) :
    (Stencil.join separator values).marked =
      separator.intercalate (values.map fun _ => ['?']) := by
  rw [Stencil.join, intercalate_of_append rfl (fun _ _ => marked_append), marked_ofText,
    List.map_map]
  rfl

theorem written_join (separator : List Char) (values : List α) :
    written literal (Stencil.join separator values) =
      separator.intercalate (values.map literal) := by
  have hslot : written literal ∘ (fun a => [.slot a]) = literal := by
    funext a
    simp [written, Piece.write]
  rw [Stencil.join, intercalate_of_append rfl (fun _ _ => written_append), written_ofText,
    List.map_map, hslot]

theorem values_join (separator : List Char) (values : List α) :
    Stencil.values (Stencil.join separator values) = values := by
  rw [Stencil.join, intercalate_of_append rfl (fun _ _ => values_append), values_ofText,
    List.map_map]
  induction values with
  | nil => rfl
  | cons a rest ih =>
    cases rest with
    | nil => rfl
    | cons b rest =>
      rw [List.map_cons, List.map_cons, List.intercalate_cons_cons]
      exact congrArg (a :: ·) ih

/-! ## Trimming -/

theorem marked_trim : stencil.trim.marked = Text.trim stencil.marked := by
  have hblank : Text.isBlank ∘ (Piece.mark : Piece α → Char) = Piece.isBlank := by
    funext piece
    exact piece.isBlank_mark
  simp only [Stencil.trim, marked, Text.trim, dropEndWhile, List.rdropWhile, List.dropWhile_map,
    ← List.map_reverse, hblank]

private theorem values_dropWhile : values (stencil.dropWhile Piece.isBlank) = stencil.values := by
  induction stencil with
  | nil => rfl
  | cons piece rest ih =>
    cases piece with
    | slot a => rfl
    | char c =>
      rw [List.dropWhile_cons]
      split
      · exact ih
      · rfl

private theorem values_reverse : values stencil.reverse = stencil.values.reverse :=
  List.filterMap_reverse

theorem values_trim : stencil.trim.values = stencil.values := by
  rw [Stencil.trim, List.rdropWhile, values_reverse, values_dropWhile, values_reverse,
    List.reverse_reverse, values_dropWhile]

private theorem written_dropWhile (htight : ∀ a ∈ stencil.values, Tight (literal a)) :
    written literal (stencil.dropWhile Piece.isBlank) =
      (written literal stencil).dropWhile Text.isBlank := by
  induction stencil with
  | nil => rfl
  | cons piece rest ih =>
    cases piece with
    | char c =>
      have hfront : written literal (.char c :: rest) = c :: written literal rest := rfl
      have hpiece : (Piece.char c : Piece α).isBlank = Text.isBlank c := rfl
      by_cases hblank : Text.isBlank c = true
      · rw [List.dropWhile_cons_of_pos (hpiece.trans hblank), hfront,
          List.dropWhile_cons_of_pos hblank, ih htight]
      · rw [List.dropWhile_cons_of_neg (by rwa [hpiece]), hfront,
          List.dropWhile_cons_of_neg hblank]
    | slot a =>
      -- A tight literal begins with something to see, so that nothing is taken from it.
      have hliteral := htight a List.mem_cons_self
      obtain ⟨c, tail, hsplit⟩ := List.exists_cons_of_ne_nil hliteral.ne_nil
      have hhead : ¬ Text.isBlank c = true := by
        have h := hliteral.head
        simp only [hsplit, List.head_cons] at h
        simp [h]
      have hfront : written literal (.slot a :: rest) = c :: (tail ++ written literal rest) := by
        show literal a ++ written literal rest = _
        rw [hsplit, List.cons_append]
      rw [List.dropWhile_cons_of_neg (by exact Bool.false_ne_true), hfront,
        List.dropWhile_cons_of_neg hhead]

private theorem written_reverse :
    written literal stencil.reverse = (written (List.reverse ∘ literal) stencil).reverse := by
  have hpiece : List.reverse ∘ Piece.write (List.reverse ∘ literal) = Piece.write literal := by
    funext piece
    cases piece with
    | char c => rfl
    | slot a => exact List.reverse_reverse _
  rw [written, written, List.reverse_flatMap, hpiece]

theorem written_trim (htight : ∀ a ∈ stencil.values, Tight (literal a)) :
    written literal stencil.trim = Text.trim (written literal stencil) := by
  have hback : ∀ a ∈ values (stencil.dropWhile Piece.isBlank).reverse,
      Tight ((List.reverse ∘ literal) a) := by
    intro a ha
    rw [values_reverse, List.mem_reverse, values_dropWhile] at ha
    exact (htight a ha).reverse
  have hself : List.reverse ∘ List.reverse ∘ literal = literal := by
    funext a
    exact List.reverse_reverse _
  rw [Stencil.trim, List.rdropWhile, written_reverse, written_dropWhile hback, written_reverse,
    hself, written_dropWhile htight, Text.trim, dropEndWhile]

/-! ## A character twice in a row -/

/-- A text that begins with a character or does not, and goes on without it. -/
def Led (c : Char) (leads : Bool) (cs : List Char) : Prop :=
  ∃ tail, tail ≠ [] ∧ c ∉ tail ∧ cs = (if leads then [c] else []) ++ tail

variable {c : Char}

private theorem pair_prefix_cons {first : Char} {rest : List Char} :
    [c, c] <+: first :: rest ↔ first = c ∧ rest.head? = some c := by
  cases rest <;> simp [eq_comm]

private theorem pair_infix_append {cs rest : List Char} (h : c ∉ cs) :
    [c, c] <:+: cs ++ rest ↔ [c, c] <:+: rest := by
  induction cs with
  | nil => rfl
  | cons first cs ih =>
    rw [List.mem_cons, not_or] at h
    rw [List.cons_append, List.infix_cons_iff, pair_prefix_cons, ih h.2]
    simp [Ne.symm h.1]

private theorem pair_infix_led {leads : Bool} {cs rest : List Char} (h : Led c leads cs) :
    [c, c] <:+: cs ++ rest ↔ [c, c] <:+: rest := by
  obtain ⟨tail, hne, htail, rfl⟩ := h
  have hhead : (tail ++ rest).head? ≠ some c := by
    obtain ⟨first, others, rfl⟩ := List.exists_cons_of_ne_nil hne
    simp only [List.cons_append, List.head?_cons, ne_eq, Option.some.injEq]
    rintro rfl
    exact htail List.mem_cons_self
  cases leads with
  | false => exact pair_infix_append htail
  | true =>
    rw [if_pos rfl, List.append_assoc, List.singleton_append, List.infix_cons_iff,
      pair_prefix_cons, pair_infix_append htail]
    simp only [hhead, and_false, false_or]

private theorem head?_led {leads : Bool} {cs rest : List Char} (h : Led c leads cs) :
    (cs ++ rest).head? = some c ↔ leads = true := by
  obtain ⟨tail, hne, htail, rfl⟩ := h
  obtain ⟨first, others, rfl⟩ := List.exists_cons_of_ne_nil hne
  rw [List.mem_cons, not_or] at htail
  cases leads <;> simp [Ne.symm htail.1]

variable {leads : α → Bool}

private theorem head?_written (hled : ∀ a ∈ stencil.values, Led c (leads a) (literal a)) :
    (written literal stencil).head? = some c ↔
      stencil.head? = some (.char c) ∨ ∃ a, leads a = true ∧ stencil.head? = some (.slot a) := by
  cases stencil with
  | nil => simp [written]
  | cons piece rest =>
    cases piece with
    | char first => simp [written, Piece.write]
    | slot a =>
      have hfront : written literal (.slot a :: rest) = literal a ++ written literal rest := rfl
      rw [hfront, head?_led (hled a List.mem_cons_self)]
      simp

private theorem head?_marked (hc : c ≠ '?') :
    stencil.marked.head? = some c ↔ stencil.head? = some (.char c) := by
  cases stencil with
  | nil => simp [marked]
  | cons piece rest => cases piece <;> simp [marked, Piece.mark, Ne.symm hc]

private theorem slot_infix_cons {piece : Piece α} {rest : Stencil α} {a : α} :
    [.char c, .slot a] <:+: piece :: rest ↔
      piece = .char c ∧ rest.head? = some (.slot a) ∨ [.char c, .slot a] <:+: rest := by
  have hprefix : [.char c, .slot a] <+: piece :: rest ↔
      piece = .char c ∧ rest.head? = some (.slot a) := by
    cases rest <;> simp [eq_comm]
  rw [List.infix_cons_iff, hprefix]

/-- A character that literals hold at their beginning at most stands twice in a row where it does
with marks for the values, and where a literal that begins with it comes behind it. -/
theorem pair_infix_written (hc : c ≠ '?')
    (hled : ∀ a ∈ stencil.values, Led c (leads a) (literal a)) :
    [c, c] <:+: written literal stencil ↔
      [c, c] <:+: stencil.marked ∨
        ∃ a, leads a = true ∧ [.char c, .slot a] <:+: stencil := by
  induction stencil with
  | nil => simp [written, marked]
  | cons piece rest ih =>
    cases piece with
    | char first =>
      have hrest : ∀ a ∈ values rest, Led c (leads a) (literal a) := hled
      have hwritten : written literal (.char first :: rest) = first :: written literal rest := rfl
      have hmarked : marked (.char first :: rest) = first :: marked rest := rfl
      rw [hwritten, hmarked, List.infix_cons_iff, List.infix_cons_iff, pair_prefix_cons,
        pair_prefix_cons, ih hrest, head?_written hrest, head?_marked hc]
      simp only [slot_infix_cons, Piece.char.injEq]
      grind
    | slot a =>
      have hrest : ∀ b ∈ values rest, Led c (leads b) (literal b) := fun b hb =>
        hled b (List.mem_cons_of_mem a hb)
      have hwritten : written literal (.slot a :: rest) = literal a ++ written literal rest := rfl
      have hmarked : marked (.slot a :: rest) = '?' :: marked rest := rfl
      rw [hwritten, hmarked, pair_infix_led (hled a List.mem_cons_self), ih hrest,
        List.infix_cons_iff, pair_prefix_cons]
      simp [slot_infix_cons, Ne.symm hc]

end Stencil

end SqlFragments.Text
