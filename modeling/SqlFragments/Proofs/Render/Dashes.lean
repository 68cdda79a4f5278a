import Mathlib
import SqlFragments.Proofs.Render.Bindings
import SqlFragments.Proofs.Render.Slots

/-!
# Dashes in a row

Two dashes begin a comment, and the literal of a negative number begins with one. The statement with
literals holds two dashes in a row where the statement with placeholders does, and where the
placeholder of a negative number stands directly behind a dash: nothing comes between a literal and
what is in front of it.
-/

namespace SqlFragments

open Outcome Text Text.Stencil

variable {env : Environment}

theorem mem_contributions {context : Context} (hparam : context.withParameters = true)
    {value : Value} {leaves : List Leaf} (h : .bound value ∈ leaves) :
    value ∈ contributions context leaves := by
  refine List.mem_flatMap.2 ⟨_, h, ?_⟩
  rw [Leaf.bindings, if_pos hparam]
  exact List.mem_singleton_self value

/-- Where nothing is bound but finite numbers, the statement with literals is the one with
placeholders with a literal in each slot, and holds two dashes in a row where that one does or a
slot of a negative number stands directly behind a dash. There is none where a whole number is bound
that is too long to be written. -/
theorem Options.dashes_inlined_iff {options : Options} {fields : Entries Setting}
    (hfields : options.fields = .ok fields)
    (hparam : fields.get? withParametersKey ≠ some (.value (.bool false)))
    (hescape : (Context.ofFields fields).escape = .standard)
    (hescapeId : (Context.ofFields fields).escapeId = .standard) {target : Value}
    (hwording : ∀ part ∈ target.wording, part.text?.isSome = true)
    (hleaves : ∀ leaf ∈ target.leaves, leaf.isNumeric = true) {p : Result}
    (hp : options.render env target = .ok (.result p)) :
    ((∃ value ∈ p.bindings, value.isOverlong = true) →
      (mapping 0 (inlinedFields fields)).render env target = .error .badValue) ∧
    ((∀ value ∈ p.bindings, value.isOverlong = false) →
      ∃ (i : Result) (stencil : Stencil Value) (s t : String),
        (mapping 0 (inlinedFields fields)).render env target = .ok (.result i) ∧
        p.sql = .text s ∧ i.sql = .text t ∧ p.bindings = stencil.values ∧
        s.toList = stencil.marked ∧
        t.toList = stencil.written (env.literalOf (Context.ofFields fields).timezone) ∧
        (['-', '-'] <:+: t.toList ↔ ['-', '-'] <:+: s.toList ∨
          ∃ value : Value, value.isNegative = true ∧ [.char '-', .slot value] <:+: stencil)) := by
  rw [render_of_fields hfields] at hp
  rw [render_of_fields rfl, Context.ofFields_inlinedFields]
  have hparam := (Context.withParameters_ofFields fields).2 hparam
  have hslots : MatchingUnless
      (fun cause => cause = .badValue ∧ ∃ leaf ∈ target.leaves, leaf.isOverlong = true)
      (Rendered.Slotted env (Context.ofFields fields))
      (SqlFragments.evaluate env (Context.ofFields fields) target)
      (SqlFragments.evaluate env (Context.ofFields fields).withLiterals target) :=
    slotted_evaluate hescape hescapeId hparam target hwording
      fun leaf hleaf => ⟨hleaves leaf hleaf, fun hlong => ⟨rfl, leaf, hleaf, hlong⟩⟩
  cases hslots with
  | refused hy hrefused =>
    obtain ⟨rfl, leaf, hleaf, hlong⟩ := hrefused
    refine ⟨fun _ => hy, fun hshort => ?_⟩
    have hbindings : p.bindings = contributions _ target.leaves := bindings_of_evaluate target hp
    cases leaf with
    | bound value =>
      have hvalue : value ∈ p.bindings := hbindings ▸ mem_contributions hparam hleaf
      exact absurd hlong (Bool.eq_false_iff.1 (hshort value hvalue))
    | _ => cases hlong
  | matching hmatching =>
    cases hmatching with
    | error hx _ =>
      rw [hp] at hx
      cases hx
    | @ok _ r hx hy related =>
      rw [hp] at hx
      cases hx
      cases r with
      | other w => exact related.elim
      | result i =>
        obtain ⟨stencil, s, t, hreads, hs, ht, hbindings⟩ := related
        refine ⟨?_, fun _ => ⟨i, stencil, s, t, hy, hs, ht, hbindings, hreads.marked,
          hreads.written, ?_⟩⟩
        · rintro ⟨value, hvalue, hlong⟩
          rw [(hreads.writable value (hbindings ▸ hvalue)).short] at hlong
          cases hlong
        · rw [hreads.written, hreads.marked]
          exact pair_infix_written (by decide) fun value hvalue =>
            led_literalOf (hreads.writable value hvalue)

/-- Two negative numbers, one of them directly behind a dash; the mark in the wording is no slot. -/
theorem Options.dashes_inlined_iff_select :
    let target : Value := .fragment (.template 0 .statement
      [.text "SELECT '?', 1 -", .text " ", .text ""]
      [.int (-5), .fragment (.clause [.text "WHERE x = ", .text ""]
        (.fragment (.parameterList [.int 3, .decimal 0 (.finite true 25 (-1))] (.text " - "))))])
    let p : Result := {
      sql := .text "SELECT '?', 1 -? WHERE x = ? - ?"
      bindings := [.int (-5), .int 3, .decimal 0 (.finite true 25 (-1))] }
    Options.absent.render {} target = .ok (.result p) ∧
    (∀ value ∈ p.bindings, value.isOverlong = false) ∧
    ∃ (i : Result) (stencil : Stencil Value) (s t : String),
      (mapping 0 (inlinedFields [])).render {} target = .ok (.result i) ∧
      p.sql = .text s ∧ i.sql = .text t ∧ p.bindings = stencil.values ∧
      s.toList = stencil.marked ∧
      t.toList = stencil.written (Environment.literalOf {} (.text "Z")) ∧
      (['-', '-'] <:+: t.toList ↔ ['-', '-'] <:+: s.toList ∨
        ∃ value : Value, value.isNegative = true ∧ [.char '-', .slot value] <:+: stencil) := by
  intro target p
  have hp : Options.absent.render {} target = .ok (.result p) := by cbv
  have hparam : Entries.get? ([] : Entries Setting) withParametersKey ≠
      some (.value (.bool false)) := fun h => by cases h
  have hshort : ∀ value ∈ p.bindings, value.isOverlong = false := by decide +kernel
  exact ⟨hp, hshort, (dashes_inlined_iff rfl hparam rfl rfl (by decide) (by decide) hp).2 hshort⟩

/-- Without two dashes in a row in the statement with placeholders there can be some in the
statement with literals. -/
theorem Options.dashes_inlined_minus :
    let target : Value := .fragment (.template 0 .statement
      [.text "SELECT 1 -", .text ""] [.int (-5)])
    (∀ part ∈ target.wording, part.text?.isSome = true) ∧
    (∀ leaf ∈ target.leaves, leaf.isNumeric = true) ∧
    Options.absent.render {} target =
      .ok (.result { sql := .text "SELECT 1 -?", bindings := [.int (-5)] }) ∧
    (mapping 0 (inlinedFields [])).render {} target =
      .ok (.result { sql := .text "SELECT 1 --5" }) ∧
    ¬ ['-', '-'] <:+: "SELECT 1 -?".toList ∧ ['-', '-'] <:+: "SELECT 1 --5".toList := by
  intro target
  refine ⟨by decide, by decide, by cbv, by cbv, by decide, by decide⟩

end SqlFragments
