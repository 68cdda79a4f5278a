import Mathlib
import SqlFragments.Proofs.Render.Compose
import SqlFragments.Proofs.Render.Nodes
import SqlFragments.Proofs.Text.Reindent

/-!
# Spliced templates

A template inside another one renders as if its parts and values stood in the outer template
themselves: its first part behind the part in front of it, its last part in front of the part behind
it. Dedenting and trimming, which each template does on its own, must have nothing to take away.
-/

namespace SqlFragments

open Outcome Text

variable {env : Environment} {context : Context}

/-! ## Glued parts -/

/-- Two rows of literal parts as one row: the last part of the first and the first part of the
second become one part. -/
def glue : List String → List String → List String
  | [], parts => parts
  | [last], [] => [last]
  | [last], first :: rest => (last ++ first) :: rest
  | part :: next :: rest, parts => part :: glue (next :: rest) parts

section

variable {front back : List String}

theorem length_glue (hfront : front ≠ []) (hback : back ≠ []) :
    (glue front back).length + 1 = front.length + back.length := by
  induction front with
  | nil => exact absurd rfl hfront
  | cons part rest ih =>
    cases rest with
    | nil =>
      obtain ⟨first, others, rfl⟩ := List.exists_cons_of_ne_nil hback
      simp [glue]
      omega
    | cons next rest =>
      have hrest := ih (List.cons_ne_nil next rest)
      simp only [glue, List.length_cons] at hrest ⊢
      omega

theorem glue_ne_nil (hfront : front ≠ []) : glue front back ≠ [] := by
  cases front with
  | nil => exact absurd rfl hfront
  | cons part rest => cases rest <;> cases back <;> simp [glue]

theorem glue_empty (hfront : front ≠ []) (hback : back ≠ []) :
    glue (glue front ["", ""]) back = front ++ back := by
  induction front with
  | nil => exact absurd rfl hfront
  | cons part rest ih =>
    cases rest with
    | nil =>
      obtain ⟨first, others, rfl⟩ := List.exists_cons_of_ne_nil hback
      simp [glue]
    | cons next rest =>
      have hrest := ih (List.cons_ne_nil next rest)
      have hne : glue (next :: rest) ["", ""] ≠ [] := glue_ne_nil (List.cons_ne_nil next rest)
      obtain ⟨first, others, hglued⟩ := List.exists_cons_of_ne_nil hne
      rw [hglued] at hrest
      simp [glue, hglued, hrest]

end

def leadingChar? (parts : List String) : Option Char :=
  parts.head?.bind (·.toList.head?)

theorem leadingChar?_glue {front : List String} {c : Char} (h : leadingChar? front = some c)
    (back : List String) : leadingChar? (glue front back) = some c := by
  cases front with
  | nil => cases h
  | cons part rest =>
    have hpart : part.toList.head? = some c := h
    cases rest with
    | nil => cases back <;> simp [glue, leadingChar?, hpart]
    | cons next rest => exact hpart

/-! ## Texts between parts -/

def textOf (result : Except Failure Result) : Except Failure String := do
  match (← result).sql with
  | .text s => .ok s
  | _ => .error .wrongType

def weave (results : List (Except Failure Result)) : List String → Except Failure String
  | [] => .error .indexOutOfRange
  | first :: rest => interleave first results (rest.map .text)

theorem interleave_append (a s : String) (results : List (Except Failure Result))
    (parts : List Value) :
    interleave (a ++ s) results parts = (interleave s results parts).map (a ++ ·) := by
  induction results generalizing s parts with
  | nil => rfl
  | cons result results ih =>
    cases result with
    | error cause => rfl
    | ok result =>
      cases parts with
      | nil => rfl
      | cons part parts =>
        simp only [interleave]
        split
        · rw [String.append_assoc]
          exact ih _ parts
        · rfl

theorem weave_cons (result : Except Failure Result) (results : List (Except Failure Result))
    (part : String) {parts : List String} (hparts : parts ≠ []) :
    weave (result :: results) (part :: parts) = do
      let s ← textOf result
      let t ← weave results parts
      return part ++ (s ++ t) := by
  obtain ⟨next, rest, rfl⟩ := List.exists_cons_of_ne_nil hparts
  cases result with
  | error cause => rfl
  | ok result =>
    obtain ⟨sql, bindings, method, hooks⟩ := result
    cases sql with
    | text s =>
      show interleave (part ++ (s ++ next)) results (rest.map .text) =
        (interleave next results (rest.map .text)).map fun t => part ++ (s ++ t)
      rw [interleave_append, interleave_append]
      cases interleave next results (rest.map .text) <;> rfl
    | _ => rfl

theorem weave_glue {results others : List (Except Failure Result)} {front back : List String}
    (hfront : front.length = results.length + 1) (hback : back ≠ []) :
    weave (results ++ others) (glue front back) = do
      let s ← weave results front
      let t ← weave others back
      return s ++ t := by
  induction results generalizing front with
  | nil =>
    obtain ⟨part, rfl⟩ := List.length_eq_one_iff.1 hfront
    obtain ⟨first, rest, rfl⟩ := List.exists_cons_of_ne_nil hback
    simp only [glue, List.nil_append, weave, interleave, interleave_append]
    cases interleave first others (rest.map .text) <;> rfl
  | cons result results ih =>
    obtain ⟨part, rest, rfl⟩ := List.exists_cons_of_length_eq_add_one hfront
    have hrest : rest.length = results.length + 1 := by simpa using hfront
    obtain ⟨next, rest, rfl⟩ := List.exists_cons_of_length_eq_add_one hrest
    rw [List.cons_append, glue, weave_cons _ _ _ (glue_ne_nil (List.cons_ne_nil next rest)),
      weave_cons _ _ _ (List.cons_ne_nil next rest), ih hrest]
    simp only [bind_assoc, pure_bind, String.append_assoc]

/-! ## Texts before trimming -/

/-- The text that literal parts make with the texts of results between them, before it is
trimmed. -/
def looseText (strings : List Value) (results : List (Except Failure Result)) :
    Except Failure String := do
  match ← dedentParts strings with
  | .text first :: rest => interleave first results rest
  | _ => .error .wrongType

theorem composedText_eq_map (strings : List Value) (results : List (Except Failure Result)) :
    composedText strings results = (looseText strings results).map strip := by
  unfold composedText looseText
  cases dedentParts strings with
  | error cause => rfl
  | ok parts =>
    cases parts with
    | nil => rfl
    | cons part rest =>
      cases part with
      | text first => exact bind_pure_comp strip (interleave first results rest)
      | _ => rfl

/-- Whether parts lose nothing when they are dedented, because no indentation and no blank line
stands in front of them. -/
def Undented (parts : List String) : Prop :=
  ∀ c, leadingChar? parts = some c → isIndent c = false ∧ c ≠ '\n'

theorem looseText_of_undented {parts : List String} (h : Undented parts)
    (results : List (Except Failure Result)) :
    looseText (parts.map .text) results = weave results parts := by
  cases parts with
  | nil => rfl
  | cons first rest =>
    have hdedent : dedent ((first :: rest).map String.toList) = (first :: rest).map String.toList := by
      rw [List.map_cons]
      cases hfirst : first.toList with
      | nil => rfl
      | cons c cs =>
        obtain ⟨hindent, hbreak⟩ := h c (by simp [leadingChar?, hfirst])
        exact dedent_of_visible hindent hbreak cs _
    have hparts : dedentParts ((first :: rest).map .text) = .ok ((first :: rest).map .text) := by
      rw [dedentParts_text, hdedent]
      simp [Function.comp_def]
    rw [looseText, hparts]
    rfl

def Unpadded (s : String) : Prop :=
  ∀ c, s.toList.head? = some c ∨ s.toList.getLast? = some c → isBlank c = false

theorem strip_of_unpadded {s : String} (h : Unpadded s) : strip s = s := by
  have hfront : s.toList.dropWhile isBlank = s.toList := by
    rw [List.dropWhile_eq_self_iff]
    intro hlength
    have hfirst : s.toList.head? = some s.toList[0] := by simp [List.head?_eq_getElem?, hlength]
    rw [h _ (.inl hfirst)]
    exact Bool.false_ne_true
  have hback : s.toList.rdropWhile isBlank = s.toList := by
    rw [List.rdropWhile_eq_self_iff]
    intro hne
    rw [h _ (.inr (List.getLast?_eq_getLast_of_ne_nil hne))]
    exact Bool.false_ne_true
  have hends : dropEndWhile isBlank s.toList = s.toList := hback
  rw [strip, trim, hfront, hends, String.ofList_toList]

theorem undented_of_leading {parts : List String} {c : Char} (h : leadingChar? parts = some c)
    (hc : isBlank c = false) : Undented parts := by
  intro first hfirst
  obtain rfl : first = c := Option.some.inj (hfirst.symm.trans h)
  constructor
  · rw [Bool.eq_false_iff] at hc ⊢
    exact fun hindent => hc (isBlank_of_isIndent hindent)
  · rintro rfl
    cases hc

def Context.composed (context : Context) (bindings : List Value) (text : String) : Result where
  sql := .text text
  bindings := bindings
  method := context.tag

theorem compose_of_undented {parts : List String} (h : Undented parts)
    (results : List (Except Failure Result)) :
    compose (parts.map .text) results context =
      (weave results parts).map fun text => context.composed (boundValues results) (strip text) := by
  rw [compose_eq_map, composedText_eq_map, looseText_of_undented h]
  cases weave results parts <;> rfl

/-! ## Composing in one go -/

section

variable {front qs back : List String} {results inner others : List (Except Failure Result)}
  {c : Char} (hfront : front.length = results.length + 1) (hqs : qs.length = inner.length + 1)
  (hback : back.length = others.length + 1)

include hfront hqs hback

private theorem weave_spliced :
    weave (results ++ inner ++ others) (glue (glue front qs) back) = do
      let s ← weave results front
      let t ← weave inner qs
      let u ← weave others back
      return s ++ (t ++ u) := by
  have hfront' : front ≠ [] := List.ne_nil_of_length_eq_add_one hfront
  have hqs' : qs ≠ [] := List.ne_nil_of_length_eq_add_one hqs
  have hlength : (glue front qs).length = (results ++ inner).length + 1 := by
    have hglue := length_glue hfront' hqs'
    simp only [List.length_append]
    omega
  rw [weave_glue hlength (List.ne_nil_of_length_eq_add_one hback), weave_glue hfront hqs']
  simp only [bind_assoc, pure_bind, String.append_assoc]

private theorem compose_compose_iff (hleading : leadingChar? front = some c)
    (hc : isBlank c = false) (hundented : Undented qs)
    (hloose : ∀ text, looseText (qs.map .text) inner = .ok text → Unpadded text)
    (result : Result) :
    (∃ p, compose (qs.map .text) inner context = .ok p ∧
        compose ((front ++ back).map .text) (results ++ .ok p :: others) context = .ok result) ↔
      compose ((glue (glue front qs) back).map .text) (results ++ inner ++ others) context =
        .ok result := by
  -- Next to each other, the outer parts leave two empty ones between them for the inner result.
  have hnested : glue (glue front ["", ""]) back = front ++ back :=
    glue_empty (List.ne_nil_of_length_eq_add_one hfront) (List.ne_nil_of_length_eq_add_one hback)
  have hleads : ∀ parts, Undented (glue (glue front parts) back) := fun parts =>
    undented_of_leading (leadingChar?_glue (leadingChar?_glue hleading parts) back) hc
  rw [looseText_of_undented hundented] at hloose
  have hsplice : ∀ text, weave inner qs = .ok text →
      compose ((front ++ back).map .text)
          (results ++ .ok (context.composed (boundValues inner) (strip text)) :: others) context =
        compose ((glue (glue front qs) back).map .text) (results ++ inner ++ others) context := by
    intro text htext
    have hone : weave [.ok (context.composed (boundValues inner) text)] ["", ""] = .ok text := by
      simp [weave, interleave, Context.composed]
    have hbindings :
        boundValues (results ++ [.ok (context.composed (boundValues inner) text)] ++ others) =
          boundValues (results ++ inner ++ others) := by
      simp [boundValues, Context.composed]
    rw [strip_of_unpadded (hloose text htext), List.append_cons, ← hnested,
      compose_of_undented (hleads _), compose_of_undented (hleads _),
      weave_spliced hfront (by rfl) hback, weave_spliced hfront hqs hback, hone, htext, hbindings]
  constructor
  · rintro ⟨p, hp, hresult⟩
    rw [compose_of_undented hundented] at hp
    obtain ⟨text, htext, rfl⟩ := map_eq_ok.1 hp
    rw [← hsplice text htext]
    exact hresult
  · intro hresult
    obtain ⟨text, htext⟩ : ∃ text, weave inner qs = .ok text := by
      rw [compose_of_undented (hleads _), weave_spliced hfront hqs hback] at hresult
      obtain ⟨_, hwoven, _⟩ := map_eq_ok.1 hresult
      obtain ⟨_, _, hrest⟩ := bind_eq_ok.1 hwoven
      obtain ⟨text, htext, _⟩ := bind_eq_ok.1 hrest
      exact ⟨text, htext⟩
    refine ⟨context.composed (boundValues inner) (strip text), ?_, (hsplice text htext).trans hresult⟩
    rw [compose_of_undented hundented, htext]
    rfl

end

/-! ## Templates in templates -/

theorem promotedEach_append_eq_ok {values others : List Value} {rs : List Rendered} :
    (promotedEach env context (values ++ others)).answer = .ok rs ↔
      ∃ ps, (promotedEach env context values).answer = .ok ps ∧
        ∃ ss, (promotedEach env context others).answer = .ok ss ∧ rs = ps ++ ss := by
  simp only [promotedEach_eq_mapM, List.map_append, List.mapM_append, answer_bind_eq_ok,
    answer_pure, Except.ok.injEq, eq_comm (a := rs)]

theorem length_of_promotedEach {values : List Value} {rs : List Rendered}
    (h : (promotedEach env context values).answer = .ok rs) : rs.length = values.length := by
  rw [promotedEach_eq_mapM, answer_mapM_eq_ok] at h
  simpa using h.length_eq.symm

theorem answer_evaluate_template {label : Label} {form : TemplateForm} {strings values : List Value}
    {rendered : Rendered} :
    (evaluate env context (.fragment (.template label form strings values))).answer = .ok rendered ↔
      (context.escape.isCallable = true ∧ context.escapeId.isCallable = true) ∧
        ∃ rs, (promotedEach env context values).answer = .ok rs ∧
          ∃ result, compose strings (rs.map Rendered.toResult) context = .ok result ∧
            rendered = .result result := by
  have hallow : context.allow (.template label form strings values) = .ok () ↔
      context.escape.isCallable = true ∧ context.escapeId.isCallable = true := by
    rw [Context.allow_eq_ok]
    simp [Fragment.isRenderable, Fragment.hides, Fragment.assigned]
  rw [evaluate_of_assignable rfl, hallow, Fragment.renderBy, valuesBy_eq_mapM,
    ← promotedEach_eq_mapM]
  apply and_congr_right
  intro _
  simp only [id, answer_bind_eq_ok, answer_ofExcept, answer_pure, Except.ok.injEq,
    eq_comm (a := rendered)]

private theorem promotedEach_nested {before after : List Value} {f : Fragment}
    {rs : List Rendered} :
    (promotedEach env context (before ++ .fragment f :: after)).answer = .ok rs ↔
      ∃ ps, (promotedEach env context before).answer = .ok ps ∧
        ∃ r, (evaluate env context (.fragment f)).answer = .ok r ∧
          ∃ ss, (promotedEach env context after).answer = .ok ss ∧ rs = ps ++ r :: ss := by
  have hcons : ∀ ts, (promotedEach env context (.fragment f :: after)).answer = .ok ts ↔
      ∃ r, (evaluate env context (.fragment f)).answer = .ok r ∧
        ∃ ss, (promotedEach env context after).answer = .ok ss ∧ ts = r :: ss := by
    intro ts
    have hpromote : promote env context (.fragment f) = evaluate env context (.fragment f) := rfl
    rw [promotedEach_cons, hpromote]
    simp only [answer_bind_eq_ok, answer_pure, Except.ok.injEq, eq_comm (a := ts)]
  rw [promotedEach_append_eq_ok]
  constructor
  · rintro ⟨ps, hps, ts, hts, rfl⟩
    obtain ⟨r, hr, ss, hss, rfl⟩ := (hcons ts).1 hts
    exact ⟨ps, hps, r, hr, ss, hss, rfl⟩
  · rintro ⟨ps, hps, r, hr, ss, hss, rfl⟩
    exact ⟨ps, hps, r :: ss, (hcons _).2 ⟨r, hr, ss, hss, rfl⟩, rfl⟩

section

variable {before values after : List Value} {front parts back : List String} {c : Char}

private theorem answer_nested_iff (hfront : front.length = before.length + 1)
    (hparts : parts.length = values.length + 1) (hback : back.length = after.length + 1)
    (hleading : leadingChar? front = some c) (hc : isBlank c = false) (hundented : Undented parts)
    (hloose : ∀ rs, (promotedEach env context values).answer = .ok rs → ∀ text,
      looseText (parts.map .text) (rs.map Rendered.toResult) = .ok text → Unpadded text)
    (outer inner flat : Label) (form innerForm flatForm : TemplateForm) (rendered : Rendered) :
    (evaluate env context (.fragment (.template outer form ((front ++ back).map .text)
        (before ++ .fragment (.template inner innerForm (parts.map .text) values) ::
          after)))).answer = .ok rendered ↔
      (evaluate env context (.fragment (.template flat flatForm
        ((glue (glue front parts) back).map .text) (before ++ values ++ after)))).answer =
          .ok rendered := by
  rw [answer_evaluate_template, answer_evaluate_template]
  apply and_congr_right
  intro hcallable
  have hcompose : ∀ ps is ss, (promotedEach env context before).answer = .ok ps →
      (promotedEach env context values).answer = .ok is →
      (promotedEach env context after).answer = .ok ss → ∀ result,
      (∃ p, compose (parts.map .text) (is.map Rendered.toResult) context = .ok p ∧
        compose ((front ++ back).map .text)
          ((ps ++ .result p :: ss).map Rendered.toResult) context = .ok result) ↔
      compose ((glue (glue front parts) back).map .text)
        ((ps ++ is ++ ss).map Rendered.toResult) context = .ok result := by
    intro ps is ss hps his hss result
    simp only [List.map_append (f := Rendered.toResult), List.map_cons, Rendered.toResult]
    apply compose_compose_iff _ _ _ hleading hc hundented (hloose is his)
    · rw [List.length_map, length_of_promotedEach hps, hfront]
    · rw [List.length_map, length_of_promotedEach his, hparts]
    · rw [List.length_map, length_of_promotedEach hss, hback]
  constructor
  · rintro ⟨_, hrs, result, hresult, rfl⟩
    obtain ⟨ps, hps, _, hinner, ss, hss, rfl⟩ := promotedEach_nested.1 hrs
    obtain ⟨-, is, his, p, hp, rfl⟩ := answer_evaluate_template.1 hinner
    have hflat : (promotedEach env context (before ++ values)).answer = .ok (ps ++ is) :=
      promotedEach_append_eq_ok.2 ⟨ps, hps, is, his, rfl⟩
    exact ⟨ps ++ is ++ ss, promotedEach_append_eq_ok.2 ⟨_, hflat, ss, hss, rfl⟩, result,
      (hcompose ps is ss hps his hss result).1 ⟨p, hp, hresult⟩, rfl⟩
  · rintro ⟨_, hrs, result, hresult, rfl⟩
    obtain ⟨_, hflat, ss, hss, rfl⟩ := promotedEach_append_eq_ok.1 hrs
    obtain ⟨ps, hps, is, his, rfl⟩ := promotedEach_append_eq_ok.1 hflat
    obtain ⟨p, hp, hnested⟩ := (hcompose ps is ss hps his hss result).2 hresult
    have hinner : (evaluate env context
        (.fragment (.template inner innerForm (parts.map .text) values))).answer =
          .ok (.result p) :=
      answer_evaluate_template.2 ⟨hcallable, is, his, p, hp, rfl⟩
    exact ⟨_, promotedEach_nested.2 ⟨ps, hps, _, hinner, ss, hss, rfl⟩, result, hnested, rfl⟩

def Options.looseText (options : Options) (env : Environment) (strings values : List Value) :
    Except Failure String := do
  let context ← options.normalize
  let rendered ← (promotedEach env context values).answer
  SqlFragments.looseText strings (rendered.map Rendered.toResult)

/-- A template among the values of another one can be spliced into it: its first part goes behind
the part in front of it, its last part in front of the part behind it, and its values take its
place. -/
theorem Options.render_nested_iff_spliced {options : Options}
    (hfront : front.length = before.length + 1) (hparts : parts.length = values.length + 1)
    (hback : back.length = after.length + 1) (hleading : leadingChar? front = some c)
    (hc : isBlank c = false) (hundented : Undented parts)
    (hloose : ∀ text, options.looseText env (parts.map .text) values = .ok text → Unpadded text)
    (outer inner flat : Label) (form innerForm flatForm : TemplateForm) (rendered : Rendered) :
    options.render env (.fragment (.template outer form ((front ++ back).map .text)
        (before ++ .fragment (.template inner innerForm (parts.map .text) values) :: after))) =
        .ok rendered ↔
      options.render env (.fragment (.template flat flatForm
        ((glue (glue front parts) back).map .text) (before ++ values ++ after))) = .ok rendered := by
  unfold render
  unfold looseText at hloose
  cases hcontext : options.normalize with
  | error cause => exact Iff.rfl
  | ok context =>
    apply answer_nested_iff hfront hparts hback hleading hc hundented
    intro rs hrs text htext
    apply hloose text
    rw [hcontext]
    show (promotedEach env context values).answer.bind _ = _
    rw [hrs]
    exact htext

end

/-- A condition over two lines inside a statement, with a value in front of it and one behind. -/
theorem Options.render_nested_iff_spliced_condition :
    let options : Options := .absent
    let front := ["SELECT ", " FROM t\n  WHERE "]
    let parts := ["a = ", "\n  OR b = ", " OR c"]
    let back := ["\n  LIMIT ", "\n"]
    let before : List Value := [.int 3]
    let values : List Value := [.int 1, .text "x"]
    let after : List Value := [.int 5]
    let rendered : Rendered := .result {
      sql := .text "SELECT ? FROM t\n  WHERE a = ?\n  OR b = ? OR c\n  LIMIT ?"
      bindings := [.int 3, .int 1, .text "x", .int 5] }
    (front.length = before.length + 1 ∧ parts.length = values.length + 1 ∧
      back.length = after.length + 1 ∧ leadingChar? front = some 'S' ∧ isBlank 'S' = false ∧
      Undented parts ∧
      ∀ text, options.looseText {} (parts.map .text) values = .ok text → Unpadded text) ∧
    options.render {} (.fragment (.template 0 .statement ((front ++ back).map .text)
        (before ++ .fragment (.template 1 .statement (parts.map .text) values) :: after))) =
        .ok rendered ∧
      options.render {} (.fragment (.template 2 .statement
        ((glue (glue front parts) back).map .text) (before ++ values ++ after))) =
          .ok rendered := by
  intro options front parts back before values after rendered
  have hundented : Undented parts := by
    intro c hc
    obtain rfl : 'a' = c := by simpa [parts, leadingChar?] using hc
    decide
  have hloose : ∀ text, options.looseText {} (parts.map .text) values = .ok text →
      Unpadded text := by
    intro text htext
    have hok : options.looseText {} (parts.map .text) values =
        .ok "a = ?\n  OR b = ? OR c" := by cbv
    obtain rfl : "a = ?\n  OR b = ? OR c" = text := Except.ok.inj (hok.symm.trans htext)
    rintro c (hc | hc)
    · obtain rfl : 'a' = c := by simpa using hc
      decide
    · obtain rfl : 'c' = c := by simpa using hc
      decide
  have hnested : options.render {} (.fragment (.template 0 .statement ((front ++ back).map .text)
      (before ++ .fragment (.template 1 .statement (parts.map .text) values) :: after))) =
        .ok rendered := by cbv
  have hleading : leadingChar? front = some 'S' := by decide
  have hvisible : isBlank 'S' = false := by decide
  refine ⟨⟨rfl, rfl, rfl, hleading, hvisible, hundented, hloose⟩, hnested, ?_⟩
  exact (render_nested_iff_spliced rfl rfl rfl hleading hvisible hundented hloose 0 1 2
    .statement .statement .statement rendered).1 hnested

end SqlFragments
