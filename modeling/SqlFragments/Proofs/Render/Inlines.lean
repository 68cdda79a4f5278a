import Mathlib.Data.List.Forall2
import SqlFragments.Proofs.Literal.Tight
import SqlFragments.Proofs.Render.Compose
import SqlFragments.Proofs.Render.Leaf
import SqlFragments.Proofs.Render.Options
import SqlFragments.Proofs.Render.Steps
import SqlFragments.Proofs.Render.Without
import SqlFragments.Proofs.Text.Placeholder

/-!
# Literals in the places of marks

Two results of which the second has the literals of the bindings of the first in the places of
its placeholders. The parts that renders are made of keep results so: joining and composing, and
leaving out the wording of a clause around no text, where no literal is empty or blank at its
ends.
-/

namespace SqlFragments

open Outcome Text

variable {env : Environment} {context : Context}

/-! ## Texts without marks -/

def Value.isUnmarked : Value → Bool
  | text s => !s.toList.contains '?'
  | _ => false

/-- What a leaf of a fragment of the library writes of its own has no mark in it: neither text
that is taken over nor a name. -/
def Leaf.Unmarked (env : Environment) (context : Context) : Leaf → Prop
  | verbatim value => ∀ s, (verbatimText env value).answer = .ok s → '?' ∉ s.toList
  | name value =>
    ∀ written, (context.escapeId.write env value).answer = .ok written → written.isUnmarked = true
  | custom _ => False
  | _ => True

def Context.withLiterals (context : Context) : Context :=
  { context with withParameters := false }

theorem Value.isUnmarked_eq (value : Value) : value.isUnmarked = value.isWithout '?' := by
  cases value <;> rfl

theorem Value.isUnmarked_iff {value : Value} :
    value.isUnmarked = true ↔ ∃ s, value = .text s ∧ '?' ∉ s.toList := by
  rw [isUnmarked_eq, isWithout_iff]

/-! ## Results and their literals -/

def Context.WritesAs (env : Environment) (context : Context) (value : Value) (literal : String) :
    Prop :=
  (context.escape.write env value context.timezone fun _ => json env value).answer =
    .ok (.text literal)

/-- Some values are written as these literals, one by one, and all of them are tight. -/
def AreWritten (env : Environment) (context : Context) (values : List Value)
    (literals : List String) : Prop :=
  List.Forall₂ (context.WritesAs env) values literals ∧ ∀ l ∈ literals.map String.toList, Tight l

/-- The text of the second result is that of the first with the literals of its bindings in the
places of its marks. -/
def Result.Inlines (env : Environment) (context : Context) (p i : Result) : Prop :=
  ∃ (literals : List String) (s t : String), AreWritten env context p.bindings literals ∧
    p.sql = .text s ∧ i.sql = .text t ∧ Filled s.toList (literals.map String.toList) t.toList

def Rendered.Inlines (env : Environment) (context : Context) : Rendered → Rendered → Prop
  | result p, result i => p.Inlines env context i
  | _, _ => True

private theorem literalEach_withLiterals (values : List Value) :
    literalEach env context.withLiterals values = literalEach env context values := by
  induction values with
  | nil => rfl
  | cons value values ih =>
    rw [literalEach, literalEach, ih]
    rfl

namespace AreWritten

theorem nil : AreWritten env context [] [] :=
  ⟨.nil, fun _ hl => by cases hl⟩

theorem one {value : Value} {literal : String} (h : context.WritesAs env value literal)
    (htight : Tight literal.toList) : AreWritten env context [value] [literal] := by
  refine ⟨.cons h .nil, ?_⟩
  intro l hl
  rwa [List.mem_singleton.1 hl]

protected theorem append {values values' : List Value} {literals literals' : List String}
    (h : AreWritten env context values literals) (h' : AreWritten env context values' literals') :
    AreWritten env context (values ++ values') (literals ++ literals') := by
  refine ⟨List.rel_append h.1 h'.1, ?_⟩
  intro l hl
  rw [List.map_append, List.mem_append] at hl
  rcases hl with hl | hl
  · exact h.2 l hl
  · exact h'.2 l hl

theorem of_answer (htight : context.WritesTight env) {values written : List Value}
    (h : (literalEach env context values).answer = .ok written) :
    ∃ literals : List String, written = literals.map .text ∧
      AreWritten env context values literals := by
  induction values generalizing written with
  | nil =>
    cases h
    exact ⟨[], rfl, nil⟩
  | cons value values ih =>
    rw [literalEach] at h
    obtain ⟨literal, hw, h⟩ := answer_bind_eq_ok.1 h
    obtain ⟨others, ho, h⟩ := answer_bind_eq_ok.1 h
    cases h
    obtain ⟨s, rfl, hs⟩ := htight value literal hw
    obtain ⟨literals, rfl, hwritten⟩ := ih ho
    exact ⟨s :: literals, rfl, (one hw hs).append hwritten⟩

end AreWritten

theorem inlines_unmarked {s : String} {p i : Result} (hp : p.sql = .text s)
    (hi : i.sql = .text s) (hbindings : p.bindings = []) (hs : '?' ∉ s.toList) :
    p.Inlines env context i := by
  refine ⟨[], s, s, ?_, hp, hi, .of_not_mem hs⟩
  rw [hbindings]
  exact .nil

/-! ## Parts of a render -/

theorem inlines_enter (f : Fragment) :
    Compatible (fun _ _ => True) (context.enter f) (context.withLiterals.enter f) :=
  fun _ _ _ _ => trivial

theorem inlines_expect {r s : Rendered} (h : r.Inlines env context s) :
    Compatible (Result.Inlines env context) r.expect s.expect := by
  intro p i hp hi
  cases r with
  | other v => cases hp
  | result p =>
    cases s with
    | other v => cases hi
    | result i =>
      cases hp
      cases hi
      exact h

theorem inlines_result {p i : Result} (h : p.Inlines env context i) :
    Compatible (Rendered.Inlines env context) (pure (.result p)) (pure (.result i)) :=
  .pure h

theorem inlines_bind (htight : context.WritesTight env) (value : Value)
    (hparam : context.withParameters = true) :
    Compatible (Result.Inlines env context) (context.bind env value fun _ => json env value)
      (context.withLiterals.bind env value fun _ => json env value) := by
  intro p i hp hi
  unfold Context.bind at hp hi
  rw [if_pos hparam] at hp
  cases hp
  obtain ⟨literal, hw, hi⟩ := answer_bind_eq_ok.1 hi
  cases hi
  obtain ⟨s, rfl, hs⟩ := htight value literal hw
  exact ⟨[s], "?", s, .one hw hs, rfl, rfl, .mark s.toList⟩

theorem inlines_parameter (htight : context.WritesTight env) (value : Value)
    (hparam : context.withParameters = true) :
    Compatible (Result.Inlines env context) (context.parameter env value fun _ => json env value)
      (context.withLiterals.parameter env value fun _ => json env value) := by
  refine Compatible.bind (inlines_enter (.parameter value)) ?_
  intro _ _ _
  exact inlines_bind htight value hparam

private theorem filled_intercalate {sep : List Char} (hsep : '?' ∉ sep)
    (literals : List (List Char)) :
    Filled (sep.intercalate (literals.map fun _ => ['?'])) literals (sep.intercalate literals) := by
  induction literals with
  | nil => exact .nil
  | cons literal literals ih =>
    cases literals with
    | nil =>
      rw [List.map_singleton, List.intercalate_singleton, List.intercalate_singleton]
      exact .mark literal
    | cons next literals =>
      rw [List.map_cons, List.map_cons, List.intercalate_cons_cons, List.intercalate_cons_cons]
      exact ((Filled.mark literal).append (.of_not_mem hsep)).append ih

theorem inlines_renderList (htight : context.WritesTight env)
    (hparam : context.withParameters = true) {separator : Value}
    (hsep : separator.isUnmarked = true) (values : List Value) :
    Compatible (Result.Inlines env context) (renderList env context separator values)
      (renderList env context.withLiterals separator values) := by
  obtain ⟨sep, rfl, hunmarked⟩ := Value.isUnmarked_iff.1 hsep
  intro p i hp hi
  unfold renderList at hp hi
  rw [if_pos hparam] at hp
  have hmarks : values.map (fun _ => Value.text "?") = (values.map fun _ => "?").map .text := by
    rw [List.map_map]
    rfl
  rw [hmarks, joinWith_texts] at hp
  cases hp
  obtain ⟨_, _, hi⟩ := answer_bind_eq_ok.1 hi
  obtain ⟨pieces, hpieces, hi⟩ := answer_bind_eq_ok.1 hi
  rw [literalEach_withLiterals] at hpieces
  obtain ⟨literals, rfl, hwritten⟩ := AreWritten.of_answer htight hpieces
  rw [joinWith_texts] at hi
  cases hi
  refine ⟨literals, _, _, hwritten, rfl, rfl, ?_⟩
  have hfilled := filled_intercalate hunmarked (literals.map String.toList)
  rw [String.toList_intercalate, String.toList_intercalate, List.map_map]
  have hcount : values.map (String.toList ∘ fun _ => "?") =
      (literals.map String.toList).map fun _ => ['?'] := by
    simp [Function.comp_def, List.map_const', hwritten.1.length_eq]
  rwa [hcount]

/-! ## Joined and composed texts -/

theorem unmarked_joinWith {separator written : Value} {pieces : List Value}
    (hsep : separator.isUnmarked = true) (hpieces : ∀ piece ∈ pieces, piece.isUnmarked = true)
    (h : joinWith separator pieces = .ok written) : written.isUnmarked = true := by
  simp only [Value.isUnmarked_eq] at *
  exact without_joinWith hsep hpieces h

theorem unmarked_mapM {write : Value → Outcome Value} {columns written : List Value}
    (hwrite : ∀ column ∈ columns, ∀ w, (write column).answer = .ok w → w.isUnmarked = true)
    (h : (columns.mapM write).answer = .ok written) : ∀ w ∈ written, w.isUnmarked = true := by
  simp only [Value.isUnmarked_eq] at *
  exact without_mapM hwrite h

private theorem unmarked_dedentParts {strings parts : List Value}
    (hstrings : ∀ part ∈ strings, part.isUnmarked = true) (h : dedentParts strings = .ok parts) :
    ∀ part ∈ parts, part.isUnmarked = true := by
  simp only [Value.isUnmarked_eq] at *
  exact without_dedentParts (by decide) hstrings h

private theorem interleave_inlines {rs is : List Rendered}
    (hrs : List.Forall₂ (Rendered.Inlines env context) rs is) {parts : List Value}
    (hparts : ∀ part ∈ parts, part.isUnmarked = true) {done : List Value} {literals : List String}
    {s t a b : String} (hwritten : AreWritten env context done literals)
    (hfilled : Filled s.toList (literals.map String.toList) t.toList)
    (ha : interleave s (rs.map Rendered.toResult) parts = .ok a)
    (hb : interleave t (is.map Rendered.toResult) parts = .ok b) :
    ∃ literals', AreWritten env context (done ++ boundValues (rs.map Rendered.toResult)) literals' ∧
      Filled a.toList (literals'.map String.toList) b.toList := by
  induction hrs generalizing parts done literals s t with
  | nil =>
    cases ha
    cases hb
    refine ⟨literals, ?_, hfilled⟩
    simpa [boundValues] using hwritten
  | @cons r i rs is head tail ih =>
    cases r with
    | other v => cases ha
    | result p =>
      cases i with
      | other v => cases hb
      | result i =>
        cases parts with
        | nil => cases ha
        | cons part parts =>
          rw [List.forall_mem_cons] at hparts
          obtain ⟨text, rfl, htext⟩ := Value.isUnmarked_iff.1 hparts.1
          obtain ⟨more, x, y, hmore, hp, hi, hxy⟩ := head
          simp only [List.map_cons, Rendered.toResult, interleave, hp] at ha
          simp only [List.map_cons, Rendered.toResult, interleave, hi] at hb
          have hnext : Filled (s ++ (x ++ text)).toList ((literals ++ more).map String.toList)
              (t ++ (y ++ text)).toList := by
            have h := hfilled.append (hxy.append (.of_not_mem htext))
            simpa using h
          have hrest := ih hparts.2 (hwritten.append hmore) hnext ha hb
          rwa [List.append_assoc] at hrest

private theorem inlines_strip {s t : String} {p i : Result} {literals : List String}
    (hwritten : AreWritten env context p.bindings literals)
    (hfilled : Filled s.toList (literals.map String.toList) t.toList)
    (hp : p.sql = .text (strip s)) (hi : i.sql = .text (strip t)) : p.Inlines env context i := by
  refine ⟨literals, strip s, strip t, hwritten, hp, hi, ?_⟩
  rw [toList_strip, toList_strip]
  exact hfilled.trim hwritten.2

private theorem composedText_eq_ok {strings : List Value}
    {results : List (Except Failure Result)} {text : String}
    (h : composedText strings results = .ok text) :
    ∃ first rest sql, dedentParts strings = .ok (.text first :: rest) ∧
      interleave first results rest = .ok sql ∧ text = strip sql := by
  unfold composedText at h
  cases hparts : dedentParts strings with
  | error cause =>
    rw [hparts] at h
    cases h
  | ok parts =>
    rw [hparts] at h
    cases parts with
    | nil => cases h
    | cons part rest =>
      cases part with
      | text first =>
        obtain ⟨sql, hsql, hstrip⟩ := map_eq_ok.1
          (show (interleave first results rest).map strip = .ok text from h)
        exact ⟨first, rest, sql, rfl, hsql, hstrip.symm⟩
      | _ => cases h

theorem inlines_compose {strings : List Value}
    (hstrings : ∀ part ∈ strings, part.isUnmarked = true) {rs is : List Rendered}
    (hrs : List.Forall₂ (Rendered.Inlines env context) rs is) :
    Compatible (Result.Inlines env context)
      (ofExcept (compose strings (rs.map Rendered.toResult) context))
      (ofExcept (compose strings (is.map Rendered.toResult) context.withLiterals)) := by
  intro p i hp hi
  rw [answer_ofExcept, compose_eq_map] at hp hi
  obtain ⟨_, hs, rfl⟩ := map_eq_ok.1 hp
  obtain ⟨_, ht, rfl⟩ := map_eq_ok.1 hi
  obtain ⟨first, rest, s, hparts, ha, rfl⟩ := composedText_eq_ok hs
  obtain ⟨first', rest', t, hparts', hb, rfl⟩ := composedText_eq_ok ht
  rw [hparts] at hparts'
  cases hparts'
  have hunmarked := unmarked_dedentParts hstrings hparts
  rw [List.forall_mem_cons] at hunmarked
  obtain ⟨_, hfirst, hmark⟩ := Value.isUnmarked_iff.1 hunmarked.1
  cases hfirst
  obtain ⟨literals, hwritten, hfilled⟩ :=
    interleave_inlines hrs hunmarked.2 .nil (.of_not_mem hmark) ha hb
  exact inlines_strip hwritten hfilled rfl rfl

theorem isTruthy_of_filled {s t : String} {literals : List String}
    (hfilled : Filled s.toList (literals.map String.toList) t.toList)
    (htight : ∀ l ∈ literals.map String.toList, Tight l) :
    (Value.text s).isTruthy = (Value.text t).isTruthy := by
  have hnil := hfilled.eq_nil_iff htight
  rw [String.toList_eq_nil_iff, String.toList_eq_nil_iff] at hnil
  rw [Bool.eq_iff_iff]
  simp [Value.isTruthy, hnil]

theorem inlines_surround {strings : List Value}
    (hstrings : ∀ part ∈ strings, part.isUnmarked = true) {p i : Result}
    (h : p.Inlines env context i) :
    Compatible (Result.Inlines env context) (ofExcept (surround context strings p))
      (ofExcept (surround context.withLiterals strings i)) := by
  have hinner := h
  obtain ⟨literals, s, t, hwritten, hp, hi, hfilled⟩ := h
  have htruthy := isTruthy_of_filled hfilled hwritten.2
  rw [← hp, ← hi] at htruthy
  unfold surround
  by_cases hsome : i.sql.isTruthy = true
  · rw [htruthy, if_pos hsome, if_pos hsome]
    have hone : Rendered.Inlines env context (.result p) (.result i) := hinner
    exact inlines_compose hstrings (.cons hone .nil)
  · rw [htruthy, if_neg hsome, if_neg hsome]
    have hempty : t.toList = [] := by
      rw [hi] at hsome
      simpa [Value.isTruthy] using hsome
    have hnone := (hfilled.eq_nil_iff hwritten.2).2 hempty
    apply Compatible.pure
    refine ⟨literals, "", "", hwritten, rfl, rfl, ?_⟩
    rwa [hnone, hempty] at hfilled

/-! ## Lines -/

theorem answer_lengthen (sep : String) (isLast : Bool) (s line : String) :
    (lengthen (.text sep) isLast (.text s) (.text line)).answer =
      .ok (.text (if (Value.text line).isTruthy then
        (if (Value.text s).isTruthy then s else sep) ++ line ++
          (if isLast then stripEndSpaces sep else sep)
        else s)) := by
  have hopened : (if (Value.text s).isTruthy then Value.text s else .text sep) =
      .text (if (Value.text s).isTruthy then s else sep) := by
    split <;> rfl
  unfold lengthen
  by_cases hline : (Value.text line).isTruthy = true
  · rw [if_pos hline, if_pos hline]
    unfold appendLine
    rw [hopened]
    cases isLast <;> rfl
  · rw [if_neg hline, if_neg hline]
    rfl

private theorem filled_empty {s t : String} {literals : List String}
    (hfilled : Filled s.toList (literals.map String.toList) t.toList)
    (htight : ∀ l ∈ literals.map String.toList, Tight l) (h : ¬ (Value.text t).isTruthy = true) :
    s.toList = [] ∧ t.toList = [] := by
  have hempty : t.toList = [] := by simpa [Value.isTruthy] using h
  exact ⟨(hfilled.eq_nil_iff htight).2 hempty, hempty⟩

theorem inlines_lengthen {separator : Value} (hsep : separator.isUnmarked = true) (isLast : Bool)
    {done bindings : List Value} {literals more : List String} {s t x y : String}
    (hdone : AreWritten env context done literals)
    (hbindings : AreWritten env context bindings more)
    (hlines : Filled s.toList (literals.map String.toList) t.toList)
    (hline : Filled x.toList (more.map String.toList) y.toList) :
    Compatible (fun a b => Result.Inlines env context { sql := a, bindings := done ++ bindings }
      { sql := b }) (lengthen separator isLast (.text s) (.text x))
      (lengthen separator isLast (.text t) (.text y)) := by
  obtain ⟨sep, rfl, hunmarked⟩ := Value.isUnmarked_iff.1 hsep
  intro a b ha hb
  rw [answer_lengthen] at ha hb
  cases ha
  cases hb
  refine ⟨literals ++ more, _, _, hdone.append hbindings, rfl, rfl, ?_⟩
  rw [isTruthy_of_filled hlines hdone.2, isTruthy_of_filled hline hbindings.2, List.map_append]
  by_cases hy : (Value.text y).isTruthy = true
  · rw [if_pos hy, if_pos hy]
    have hopened : Filled (if (Value.text t).isTruthy then s else sep).toList
        (literals.map String.toList) (if (Value.text t).isTruthy then t else sep).toList := by
      by_cases ht : (Value.text t).isTruthy = true
      · rwa [if_pos ht, if_pos ht]
      · obtain ⟨hs, hempty⟩ := filled_empty hlines hdone.2 ht
        rw [if_neg ht, if_neg ht]
        have h := hlines.append (.of_not_mem hunmarked)
        rwa [hs, hempty, List.append_nil, List.nil_append] at h
    have htail : '?' ∉ (if isLast then stripEndSpaces sep else sep).toList := by
      cases isLast
      · exact hunmarked
      · exact not_mem_stripEndSpaces hunmarked
    have h := (hopened.append hline).append (.of_not_mem htail)
    simpa using h
  · obtain ⟨hx, hempty⟩ := filled_empty hline hbindings.2 hy
    rw [if_neg hy, if_neg hy]
    have h := hlines.append hline
    rwa [hx, hempty, List.append_nil, List.append_nil] at h

end SqlFragments
