import SqlFragments.Proofs.Literal.Sign
import SqlFragments.Proofs.Render.Inlines

/-!
# Slots for numbers

A tree that binds nothing but finite numbers renders to one stencil: with marks in its slots it is
the statement with placeholders, whose bindings are what the slots are for, and with literals in
them the statement with literals. The wording may hold marks of its own; those are no slots. Both
renders succeed together, or fail for one cause, unless a number is too long to be written.
-/

namespace SqlFragments

open Outcome Text Text.Stencil

variable {env : Environment} {context : Context} {timezone : Value} {P : Failure → Prop}

/-- Nothing is bound but finite numbers, and nothing is a fragment of the user. -/
def Leaf.isNumeric : Leaf → Bool
  | bound value => value.isFinite
  | custom _ => false
  | _ => true

def Leaf.isOverlong : Leaf → Bool
  | bound value => value.isOverlong
  | _ => false

/-- Whether a leaf fits into slots, where a number that is too long is a reason to refuse. -/
def Leaf.Fits (P : Failure → Prop) (leaf : Leaf) : Prop :=
  leaf.isNumeric = true ∧ (leaf.isOverlong = true → P .badValue)

structure Value.IsWritable (value : Value) : Prop where
  finite : value.isFinite = true
  short : value.isOverlong = false

/-- The literal of a value in the way of the library; empty where it has none of its own. -/
def Environment.literalOf (env : Environment) (timezone value : Value) : List Char :=
  match Literal.scalar? env.hostMinutes timezone value with
  | some (.ok s) => s.toList
  | _ => []

theorem tight_literalOf {value : Value} (h : value.IsWritable) :
    Tight (env.literalOf timezone value) := by
  obtain ⟨s, hs, -⟩ := led_scalar h.finite h.short env.hostMinutes timezone
  rw [Environment.literalOf, hs]
  exact tight_scalar hs

theorem led_literalOf {value : Value} (h : value.IsWritable) :
    Led '-' value.isNegative (env.literalOf timezone value) := by
  obtain ⟨s, hs, hled⟩ := led_scalar h.finite h.short env.hostMinutes timezone
  rw [Environment.literalOf, hs]
  exact hled

/-! ## Two texts of one stencil -/

/-- A stencil of numbers as two texts: with marks and with literals. -/
structure Reads (env : Environment) (timezone : Value) (stencil : Stencil Value)
    (s t : String) : Prop where
  marked : s.toList = stencil.marked
  written : t.toList = stencil.written (env.literalOf timezone)
  writable : ∀ value ∈ stencil.values, value.IsWritable

namespace Reads

variable {stencil stencil' : Stencil Value} {s s' t t' : String}

theorem tight (h : Reads env timezone stencil s t) :
    ∀ value ∈ stencil.values, Tight (env.literalOf timezone value) :=
  fun value hvalue => tight_literalOf (h.writable value hvalue)

theorem ofText (s : String) : Reads env timezone (Stencil.ofText s.toList) s s where
  marked := (marked_ofText _).symm
  written := (written_ofText _).symm
  writable := by simp

protected theorem append (h : Reads env timezone stencil s t)
    (h' : Reads env timezone stencil' s' t') :
    Reads env timezone (stencil ++ stencil') (s ++ s') (t ++ t') where
  marked := by rw [String.toList_append, h.marked, h'.marked, marked_append]
  written := by rw [String.toList_append, h.written, h'.written, written_append]
  writable := by
    rw [values_append, List.forall_mem_append]
    exact ⟨h.writable, h'.writable⟩

protected theorem strip (h : Reads env timezone stencil s t) :
    Reads env timezone stencil.trim (strip s) (strip t) where
  marked := by rw [toList_strip, h.marked, marked_trim]
  written := by rw [toList_strip, h.written, written_trim h.tight]
  writable := by
    rw [values_trim]
    exact h.writable

theorem isTruthy_left (h : Reads env timezone stencil s t) :
    (Value.text s).isTruthy = true ↔ stencil ≠ [] := by
  rw [ne_eq, ← marked_eq_nil_iff, ← h.marked]
  simp [Value.isTruthy]

theorem isTruthy_right (h : Reads env timezone stencil s t) :
    (Value.text t).isTruthy = true ↔ stencil ≠ [] := by
  rw [ne_eq, ← written_eq_nil_iff h.tight, ← h.written]
  simp [Value.isTruthy]

end Reads

/-- Two results of one stencil, of which the first binds what the slots are for. -/
def Result.Slotted (env : Environment) (context : Context) (p i : Result) : Prop :=
  ∃ (stencil : Stencil Value) (s t : String), Reads env context.timezone stencil s t ∧
    p.sql = .text s ∧ i.sql = .text t ∧ p.bindings = stencil.values

def Rendered.Slotted (env : Environment) (context : Context) : Rendered → Rendered → Prop
  | result p, result i => p.Slotted env context i
  | other v, other w => v = w
  | _, _ => False

/-! ## Parts of a render -/

private theorem slotted_result {p i : Result} (h : p.Slotted env context i) :
    MatchingUnless P (Rendered.Slotted env context) (pure (.result p)) (pure (.result i)) :=
  .matching (.pure h)

private theorem slotted_expect {r s : Rendered} (h : r.Slotted env context s) :
    Matching (Result.Slotted env context) r.expect s.expect := by
  cases r with
  | result p =>
    cases s with
    | result i => exact .pure h
    | other w => exact h.elim
  | other v =>
    cases s with
    | result i => exact h.elim
    | other w =>
      cases h
      exact .error rfl rfl

private theorem slotted_same {p i : Result} {s : String} (hp : p.sql = .text s)
    (hi : i.sql = .text s) (hbindings : p.bindings = []) : p.Slotted env context i :=
  ⟨_, s, s, .ofText s, hp, hi, by rw [hbindings, values_ofText]⟩

private theorem answer_write (hescape : context.escape = .standard) {value : Value}
    (h : value.IsWritable) (json : Unit → Outcome Json) :
    (context.escape.write env value context.timezone json).answer =
      .ok (.text (String.ofList (env.literalOf context.timezone value))) := by
  obtain ⟨s, hs, -⟩ := led_scalar h.finite h.short env.hostMinutes context.timezone
  rw [hescape, LiteralEscaper.write, Environment.literalOf, hs]
  dsimp only
  rw [String.ofList_toList]
  rfl

private theorem answer_write_overlong (hescape : context.escape = .standard) {value : Value}
    (h : value.isOverlong = true) (json : Unit → Outcome Json) :
    (context.escape.write env value context.timezone json).answer = .error .badValue := by
  rw [hescape, LiteralEscaper.write, Literal.scalar?_eq_error_iff.2 ⟨h, rfl⟩]
  rfl

private theorem isWritable_or {value : Value} (h : (Leaf.bound value).Fits P) :
    value.IsWritable ∨ value.isOverlong = true ∧ P .badValue := by
  cases hlong : value.isOverlong with
  | false => exact .inl ⟨h.1, hlong⟩
  | true => exact .inr ⟨rfl, h.2 hlong⟩

private theorem slotted_bind (hescape : context.escape = .standard)
    (hparam : context.withParameters = true) {value : Value}
    (h : value.IsWritable ∨ value.isOverlong = true ∧ P .badValue) (json : Unit → Outcome Json) :
    MatchingUnless P (Result.Slotted env context) (context.bind env value json)
      (context.withLiterals.bind env value json) := by
  rcases h with h | ⟨hlong, hrefused⟩
  · have hmark : (context.bind env value json).answer =
        .ok { sql := .text "?", bindings := [value] } := by
      rw [Context.bind, if_pos hparam]
      rfl
    have hliteral : (context.withLiterals.bind env value json).answer =
        .ok { sql := .text (String.ofList (env.literalOf context.timezone value)) } :=
      answer_bind_eq_ok.2 ⟨_, answer_write hescape h json, rfl⟩
    refine .matching (.ok hmark hliteral ⟨[.slot value], _, _, ⟨rfl, ?_, ?_⟩, rfl, rfl, rfl⟩)
    · simp [Stencil.written, Piece.write]
    · intro bound hbound
      rwa [List.mem_singleton.1 hbound]
  · exact .refused (answer_bind_eq_error.2 (.inl (answer_write_overlong hescape hlong json)))
      hrefused

private theorem slotted_parameter (hescape : context.escape = .standard)
    (hparam : context.withParameters = true) {value : Value}
    (h : value.IsWritable ∨ value.isOverlong = true ∧ P .badValue) (json : Unit → Outcome Json) :
    MatchingUnless P (Result.Slotted env context) (context.parameter env value json)
      (context.withLiterals.parameter env value json) := by
  refine MatchingUnless.bind (.matching (matching_enter rfl)) ?_
  intro _ _ _
  exact slotted_bind hescape hparam h json

private theorem answer_literalEach (hescape : context.escape = .standard) {values : List Value}
    (h : ∀ value ∈ values, value.IsWritable) :
    (literalEach env context.withLiterals values).answer =
      .ok (values.map fun value =>
        .text (String.ofList (env.literalOf context.timezone value))) := by
  induction values with
  | nil => rfl
  | cons value rest ih =>
    rw [List.forall_mem_cons] at h
    rw [List.map_cons, literalEach]
    exact answer_bind_eq_ok.2 ⟨_, answer_write hescape h.1 _, answer_bind_eq_ok.2
      ⟨_, ih h.2, rfl⟩⟩

private theorem answer_literalEach_overlong (hescape : context.escape = .standard)
    {values : List Value} (h : ∀ value ∈ values, value.IsWritable ∨ value.isOverlong = true)
    (hlong : ∃ value ∈ values, value.isOverlong = true) :
    (literalEach env context.withLiterals values).answer = .error .badValue := by
  induction values with
  | nil =>
    obtain ⟨_, hmem, _⟩ := hlong
    cases hmem
  | cons value rest ih =>
    rw [List.forall_mem_cons] at h
    rw [List.exists_mem_cons_iff] at hlong
    rw [literalEach]
    rcases h.1 with hwritable | hfirst
    · have hrest := hlong.resolve_left (by simp [hwritable.short])
      exact answer_bind_eq_error.2 (.inr ⟨_, answer_write hescape hwritable _,
        answer_bind_eq_error.2 (.inl (ih h.2 hrest))⟩)
    · exact answer_bind_eq_error.2 (.inl (answer_write_overlong hescape hfirst _))

private theorem slotted_renderList (hescape : context.escape = .standard)
    (hparam : context.withParameters = true) (sep : String) {values : List Value}
    (h : ∀ value ∈ values, value.IsWritable ∨ value.isOverlong = true ∧ P .badValue) :
    MatchingUnless P (Result.Slotted env context) (renderList env context (.text sep) values)
      (renderList env context.withLiterals (.text sep) values) := by
  by_cases hlong : ∃ value ∈ values, value.isOverlong = true
  · obtain ⟨value, hvalue, hlong'⟩ := hlong
    have hrefused : P .badValue := by
      rcases h value hvalue with hwritable | hrefused
      · rw [hwritable.short] at hlong'
        cases hlong'
      · exact hrefused.2
    refine .refused ?_ hrefused
    rw [renderList, if_neg (by exact Bool.false_ne_true)]
    exact answer_bind_eq_error.2 (.inr ⟨(), rfl, answer_bind_eq_error.2 (.inl
      (answer_literalEach_overlong hescape (fun value hvalue => (h value hvalue).imp_right And.left)
        ⟨value, hvalue, hlong'⟩))⟩)
  · have hwritable : ∀ value ∈ values, value.IsWritable := fun value hvalue =>
      (h value hvalue).resolve_right fun hrefused => hlong ⟨value, hvalue, hrefused.1⟩
    let literal := fun value => String.ofList (env.literalOf context.timezone value)
    have hjoin : ∀ write : Value → String,
        joinWith (.text sep) (values.map fun v => .text (write v)) =
          .ok (.text (String.intercalate sep (values.map write))) := by
      intro write
      rw [← joinWith_texts, List.map_map]
      rfl
    have hmarks : (renderList env context (.text sep) values).answer =
        .ok {
          sql := .text (String.intercalate sep (values.map fun _ => "?"))
          bindings := values } := by
      rw [renderList, if_pos hparam, hjoin fun _ => "?"]
      rfl
    have hliterals : (renderList env context.withLiterals (.text sep) values).answer =
        .ok { sql := .text (String.intercalate sep (values.map literal)) } := by
      rw [renderList, if_neg (by exact Bool.false_ne_true)]
      exact answer_bind_eq_ok.2 ⟨(), rfl, answer_bind_eq_ok.2
        ⟨_, answer_literalEach hescape hwritable, answer_bind_eq_ok.2 ⟨_, hjoin literal, rfl⟩⟩⟩
    refine .matching (.ok hmarks hliterals
      ⟨Stencil.join sep.toList values, _, _, ⟨?_, ?_, ?_⟩, rfl, rfl, ?_⟩)
    · rw [marked_join, String.toList_intercalate]
      simp
    · rw [written_join, String.toList_intercalate, List.map_map]
      congr 1
      exact List.map_congr_left fun value _ => String.toList_ofList
    · rwa [values_join]
    · exact (values_join _ _).symm

private theorem slotted_interleave {rs is : List Rendered}
    (hrs : List.Forall₂ (Rendered.Slotted env context) rs is) {parts : List String}
    {stencil : Stencil Value} {s t : String} (h : Reads env context.timezone stencil s t) :
    Matching (fun a b => ∃ stencil', Reads env context.timezone stencil' a b ∧
        stencil'.values = stencil.values ++ boundValues (rs.map Rendered.toResult))
      (ofExcept (interleave s (rs.map Rendered.toResult) (parts.map .text)))
      (ofExcept (interleave t (is.map Rendered.toResult) (parts.map .text))) := by
  induction hrs generalizing parts stencil s t with
  | nil => exact .pure ⟨stencil, h, by simp [boundValues]⟩
  | @cons r i rs is head _ ih =>
    cases r with
    | other v =>
      cases i with
      | other w =>
        cases head
        exact .error rfl rfl
      | result i => exact head.elim
    | result p =>
      cases i with
      | other w => exact head.elim
      | result i =>
        cases parts with
        | nil => exact .error rfl rfl
        | cons part parts =>
          obtain ⟨inner, x, y, hinner, hp, hi, hbindings⟩ := head
          simp only [List.map_cons, Rendered.toResult, interleave, hp, hi]
          have hnext := h.append (hinner.append (.ofText part))
          have hvalues : (stencil ++ (inner ++ Stencil.ofText part.toList)).values ++
              boundValues (rs.map Rendered.toResult) =
              stencil.values ++ boundValues (.ok p :: rs.map Rendered.toResult) := by
            simp [boundValues, hbindings]
          rw [← hvalues]
          exact ih hnext

private theorem slotted_compose (texts : List String) {rs is : List Rendered}
    (hrs : List.Forall₂ (Rendered.Slotted env context) rs is) :
    Matching (Result.Slotted env context)
      (ofExcept (compose (texts.map .text) (rs.map Rendered.toResult) context))
      (ofExcept (compose (texts.map .text) (is.map Rendered.toResult) context.withLiterals)) := by
  rw [compose_eq_map, compose_eq_map]
  have htext : Matching (fun a b => ∃ stencil, Reads env context.timezone stencil a b ∧
        stencil.values = boundValues (rs.map Rendered.toResult))
      (ofExcept (composedText (texts.map .text) (rs.map Rendered.toResult)))
      (ofExcept (composedText (texts.map .text) (is.map Rendered.toResult))) := by
    cases texts with
    | nil => exact .error rfl rfl
    | cons first rest =>
      obtain ⟨head, tail, hdedent⟩ := List.exists_cons_of_length_pos
        (l := dedent ((first :: rest).map String.toList)) (by rw [length_dedent]; simp)
      have hparts : dedentParts ((first :: rest).map .text) =
          .ok (.text (String.ofList head) :: (tail.map String.ofList).map .text) := by
        rw [dedentParts_text, hdedent, List.map_cons, List.map_map]
        rfl
      unfold composedText
      rw [hparts]
      refine (slotted_interleave hrs (.ofText (String.ofList head))).map ?_
      rintro a b ⟨stencil, hreads, hvalues⟩
      refine ⟨stencil.trim, hreads.strip, ?_⟩
      rw [values_trim, hvalues, values_ofText, List.nil_append]
  refine htext.map ?_
  rintro a b ⟨stencil, hreads, hvalues⟩
  exact ⟨stencil, a, b, hreads, rfl, rfl, hvalues.symm⟩

private theorem slotted_surround (texts : List String) {p i : Result}
    (h : p.Slotted env context i) :
    Matching (Result.Slotted env context) (ofExcept (surround context (texts.map .text) p))
      (ofExcept (surround context.withLiterals (texts.map .text) i)) := by
  have hone : Rendered.Slotted env context (.result p) (.result i) := h
  obtain ⟨stencil, s, t, hreads, hp, hi, hbindings⟩ := h
  unfold surround
  rw [hp, hi]
  by_cases hempty : stencil = []
  · rw [if_neg (by simp [hreads.isTruthy_left, hempty]),
      if_neg (by simp [hreads.isTruthy_right, hempty])]
    have hnone : p.bindings = [] := by rw [hbindings, hempty]; rfl
    exact .pure (slotted_same rfl rfl hnone)
  · rw [if_pos (hreads.isTruthy_left.2 hempty), if_pos (hreads.isTruthy_right.2 hempty)]
    exact slotted_compose texts (.cons hone .nil)

private theorem slotted_lengthen (sep : String) (isLast : Bool) {stencil stencil' : Stencil Value}
    {s t x y : String} (hlines : Reads env timezone stencil s t)
    (hline : Reads env timezone stencil' x y) :
    Matching (fun a b => ∃ (longer : Stencil Value) (s' t' : String), a = .text s' ∧ b = .text t' ∧
        Reads env timezone longer s' t' ∧ longer.values = stencil.values ++ stencil'.values)
      (lengthen (.text sep) isLast (.text s) (.text x))
      (lengthen (.text sep) isLast (.text t) (.text y)) := by
  refine .ok (answer_lengthen sep isLast s x) (answer_lengthen sep isLast t y) ?_
  by_cases hempty : stencil' = []
  · rw [if_neg (by simp [hline.isTruthy_left, hempty]),
      if_neg (by simp [hline.isTruthy_right, hempty])]
    refine ⟨stencil, s, t, rfl, rfl, hlines, ?_⟩
    rw [hempty]
    exact (List.append_nil _).symm
  · rw [if_pos (hline.isTruthy_left.2 hempty), if_pos (hline.isTruthy_right.2 hempty)]
    have hopened : ∃ opened, Reads env timezone opened
        (if (Value.text s).isTruthy then s else sep) (if (Value.text t).isTruthy then t else sep) ∧
        opened.values = stencil.values := by
      by_cases hfirst : stencil = []
      · rw [if_neg (by simp [hlines.isTruthy_left, hfirst]),
          if_neg (by simp [hlines.isTruthy_right, hfirst])]
        exact ⟨_, .ofText sep, by rw [hfirst, values_ofText]; rfl⟩
      · rw [if_pos (hlines.isTruthy_left.2 hfirst), if_pos (hlines.isTruthy_right.2 hfirst)]
        exact ⟨stencil, hlines, rfl⟩
    obtain ⟨opened, hopened, hvalues⟩ := hopened
    refine ⟨_, _, _, rfl, rfl, (hopened.append hline).append (.ofText _), ?_⟩
    simp [hvalues]

/-! ## Whole renders -/

mutual

private theorem slotted_resolve (hescape : context.escape = .standard)
    (hescapeId : context.escapeId = .standard) (hparam : context.withParameters = true)
    (depth : Nat) (f : Fragment) (hwording : ∀ part ∈ f.wording, part.text?.isSome = true)
    (hleaves : ∀ leaf ∈ f.leaves, leaf.Fits P) :
    MatchingUnless P (Rendered.Slotted env context) (resolve env context depth f)
      (resolve env context.withLiterals depth f) := by
  match f with
  | .raw value =>
    rw [resolve_raw, resolve_raw]
    refine MatchingUnless.bind (.matching (matching_enter rfl)) ?_
    intro _ _ _
    refine MatchingUnless.bind (.matching (.same _)) ?_
    rintro text _ ⟨rfl, -⟩
    exact slotted_result (slotted_same rfl rfl rfl)
  | .identifier name =>
    rw [resolve, resolve]
    refine MatchingUnless.bind (.matching (matching_enter rfl)) ?_
    intro _ _ _
    refine MatchingUnless.bind (.matching (.same _)) ?_
    rintro sql _ ⟨rfl, hsql⟩
    rw [hescapeId] at hsql
    cases hsql
    exact slotted_result (slotted_same rfl rfl rfl)
  | .parameter value =>
    rw [resolve, resolve]
    have hvalue := isWritable_or (hleaves (.bound value) List.mem_cons_self)
    refine MatchingUnless.bind (slotted_parameter hescape hparam hvalue _) ?_
    intro p i h
    exact slotted_result h
  | .parameterList values separator =>
    obtain ⟨sep, rfl⟩ := Value.text_of_isSome (hwording separator List.mem_cons_self)
    have hvalues : ∀ value ∈ values, value.IsWritable ∨ value.isOverlong = true ∧ P .badValue :=
      fun value hvalue => isWritable_or (hleaves (.bound value) (List.mem_map_of_mem hvalue))
    rw [resolve_parameterList, resolve_parameterList]
    refine MatchingUnless.bind (.matching (matching_enter rfl)) ?_
    intro _ _ _
    refine MatchingUnless.bind (slotted_renderList hescape hparam sep hvalues) ?_
    intro p i h
    exact slotted_result h
  | .columnList columns separator =>
    obtain ⟨sep, rfl⟩ := Value.text_of_isSome (hwording separator List.mem_cons_self)
    rw [resolve, resolve]
    refine MatchingUnless.bind (.matching (matching_enter rfl)) ?_
    intro _ _ _
    refine MatchingUnless.bind (.matching (.same _)) ?_
    intro _ _ _
    refine MatchingUnless.bind (.matching (.same _)) ?_
    rintro pieces _ ⟨rfl, -⟩
    refine MatchingUnless.bind (.matching (.same _)) ?_
    rintro sql _ ⟨rfl, hsql⟩
    obtain ⟨s, rfl⟩ := text_of_joinWith hsql
    exact slotted_result (slotted_same rfl rfl rfl)
  | .lines members separator =>
    rw [Fragment.wording, List.forall_mem_cons] at hwording
    obtain ⟨sep, rfl⟩ := Value.text_of_isSome hwording.1
    rw [resolve, resolve]
    refine MatchingUnless.bind (.matching (matching_enter rfl)) ?_
    intro _ _ _
    refine MatchingUnless.bind
      (slotted_linesFrom hescape hescapeId hparam members hwording.2 hleaves sep (.ofText "") []) ?_
    intro p i h
    exact slotted_result h
  | .clause strings value =>
    rw [Fragment.wording, List.forall_mem_append] at hwording
    obtain ⟨texts, rfl⟩ := Value.texts_of_forall hwording.1
    rw [resolve_clause, resolve_clause]
    refine MatchingUnless.bind (.matching (matching_enter rfl)) ?_
    intro _ _ _
    refine MatchingUnless.bind
      (slotted_evaluate hescape hescapeId hparam value hwording.2 hleaves) ?_
    intro r s h
    refine MatchingUnless.bind (.matching (slotted_expect h)) ?_
    intro p i h
    refine MatchingUnless.bind (.matching (slotted_surround texts h)) ?_
    intro p i h
    exact slotted_result h
  | .template label form strings values =>
    rw [Fragment.wording, List.forall_mem_append] at hwording
    obtain ⟨texts, rfl⟩ := Value.texts_of_forall hwording.1
    rw [resolve, resolve]
    refine MatchingUnless.bind (.matching (matching_enter rfl)) ?_
    intro _ _ _
    refine MatchingUnless.bind
      (slotted_promotedEach hescape hescapeId hparam values hwording.2 hleaves) ?_
    intro rs is h
    refine MatchingUnless.bind (.matching (slotted_compose texts h)) ?_
    intro p i h
    exact slotted_result h
  | .deferred label target assigned =>
    rw [resolve_deferred, resolve_deferred]
    refine MatchingUnless.bind (.matching (matching_enter rfl)) ?_
    intro _ _ _
    match target with
    | .fragment f =>
      rw [follow, follow]
      split
      · exact .matching (.error rfl rfl)
      · exact slotted_resolve hescape hescapeId hparam (depth + 1) f hwording hleaves
    | .null | .bool _ | .int _ | .float _ _ | .decimal _ _ | .text _ | .dateTime _ | .date _
    | .bytes _ _ | .list _ _ | .tuple _ | .dict _ _ | .object _ _ | .function _ =>
      exact .matching (.pure rfl)
  | .leaf _ _ _ _ _ | .probe _ _ | .endless _ _ | .unrenderable _ _ _ =>
    cases (hleaves _ List.mem_cons_self).1
termination_by structural f

theorem slotted_evaluate (hescape : context.escape = .standard)
    (hescapeId : context.escapeId = .standard) (hparam : context.withParameters = true)
    (target : Value) (hwording : ∀ part ∈ target.wording, part.text?.isSome = true)
    (hleaves : ∀ leaf ∈ target.leaves, leaf.Fits P) :
    MatchingUnless P (Rendered.Slotted env context) (evaluate env context target)
      (evaluate env context.withLiterals target) := by
  match target with
  | .null => exact slotted_result (slotted_same rfl rfl rfl)
  | .text s => cases (hleaves _ List.mem_cons_self).1
  | .fragment f =>
    rw [evaluate, evaluate]
    exact slotted_resolve hescape hescapeId hparam 0 f hwording hleaves
  | .bool _ | .int _ | .float _ _ | .decimal _ _ | .dateTime _ | .date _ | .bytes _ _ | .list _ _
  | .tuple _ | .dict _ _ | .object _ _ | .function _ =>
    exact .matching (.error rfl rfl)
termination_by structural target

private theorem slotted_promotedEach (hescape : context.escape = .standard)
    (hescapeId : context.escapeId = .standard) (hparam : context.withParameters = true)
    (values : List Value) (hwording : ∀ part ∈ Value.wordingEach values, part.text?.isSome = true)
    (hleaves : ∀ leaf ∈ Value.promotedLeaves values, leaf.Fits P) :
    MatchingUnless P (List.Forall₂ (Rendered.Slotted env context)) (promotedEach env context values)
      (promotedEach env context.withLiterals values) := by
  match values with
  | [] => exact .matching (.pure .nil)
  | value :: rest =>
    rw [Value.wordingEach, List.forall_mem_append] at hwording
    rw [Value.promotedLeaves, List.forall_mem_append] at hleaves
    rw [promotedEach_cons, promotedEach_cons]
    have hfirst : MatchingUnless P (Rendered.Slotted env context) (promote env context value)
        (promote env context.withLiterals value) := by
      unfold promote
      by_cases hplain : value.isPlain = true
      · rw [if_pos hplain] at hleaves
        have hvalue := isWritable_or (hleaves.1 (.bound value) List.mem_cons_self)
        rw [if_pos hplain, if_pos hplain]
        refine MatchingUnless.bind (slotted_parameter hescape hparam hvalue _) ?_
        intro p i h
        exact slotted_result h
      · rw [if_neg hplain] at hleaves
        rw [if_neg hplain, if_neg hplain]
        exact slotted_evaluate hescape hescapeId hparam value hwording.1 hleaves.1
    refine MatchingUnless.bind hfirst ?_
    intro r i hr
    refine MatchingUnless.bind
      (slotted_promotedEach hescape hescapeId hparam rest hwording.2 hleaves.2) ?_
    intro rs is hrs
    exact .matching (.pure (.cons hr hrs))
termination_by structural values

private theorem slotted_linesFrom (hescape : context.escape = .standard)
    (hescapeId : context.escapeId = .standard) (hparam : context.withParameters = true)
    (members : List Value)
    (hwording : ∀ part ∈ Value.wordingEach members, part.text?.isSome = true)
    (hleaves : ∀ leaf ∈ Value.leavesEach members, leaf.Fits P) (sep : String)
    {stencil : Stencil Value} {s t : String} (hlines : Reads env context.timezone stencil s t)
    (others : List Value) :
    MatchingUnless P (Result.Slotted env context)
      (linesFrom env context (.text sep) (.text s) stencil.values members)
      (linesFrom env context.withLiterals (.text sep) (.text t) others members) := by
  match members with
  | [] => exact .matching (.pure ⟨stencil, s, t, hlines, rfl, rfl, rfl⟩)
  | member :: rest =>
    rw [Value.wordingEach, List.forall_mem_append] at hwording
    rw [Value.leavesEach, List.forall_mem_append] at hleaves
    rw [linesFrom_cons, linesFrom_cons]
    refine MatchingUnless.bind
      (slotted_evaluate hescape hescapeId hparam member hwording.1 hleaves.1) ?_
    intro r i hr
    refine MatchingUnless.bind (.matching (slotted_expect hr)) ?_
    rintro p i ⟨inner, x, y, hinner, hp, hi, hbindings⟩
    rw [hp, hi, hbindings]
    refine MatchingUnless.bind (.matching (slotted_lengthen sep rest.isEmpty hlines hinner)) ?_
    rintro _ _ ⟨longer, s', t', rfl, rfl, hlonger, hvalues⟩
    rw [← hvalues]
    exact slotted_linesFrom hescape hescapeId hparam rest hwording.2 hleaves.2 sep hlonger _
termination_by structural members

end

end SqlFragments
