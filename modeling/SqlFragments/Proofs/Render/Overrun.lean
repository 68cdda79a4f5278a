import SqlFragments.Proofs.Literal.Sign
import SqlFragments.Proofs.Render.Compose
import SqlFragments.Proofs.Render.Steps

/-!
# Overruns

A render overruns when fragments rendered to one another too often. What composes, joins or counts
never does. What writes a value does only for a fragment inside it: in the text that is taken over,
or in a value that is written as structured text. Functions of the user are taken at their word.
-/

namespace SqlFragments

/-- An answer that never complains about the state of a render. -/
def Tame {α : Type} (answer : Except Failure α) : Prop :=
  ∀ cause, answer = .error cause → cause.category ≠ .invalidState

namespace Tame

variable {α β : Type}

theorem ok (a : α) : Tame (.ok a) := fun _ h => by cases h

theorem error {cause : Failure} (h : cause.category ≠ .invalidState) :
    Tame (.error cause : Except Failure α) := by
  rintro _ ⟨⟩
  exact h

theorem wrongType : Tame (.error .wrongType : Except Failure α) := error (by decide)

theorem missingAttribute : Tame (.error .missingAttribute : Except Failure α) := error (by decide)

protected theorem bind {answer : Except Failure α} {next : α → Except Failure β}
    (h : Tame answer) (hnext : ∀ a, Tame (next a)) : Tame (answer >>= next) := by
  cases answer with
  | error cause =>
    rintro _ ⟨⟩
    exact h cause rfl
  | ok a => exact hnext a

protected theorem map {answer : Except Failure α} (f : α → β) (h : Tame answer) :
    Tame (answer.map f) := by
  cases answer with
  | error cause =>
    rintro _ ⟨⟩
    exact h cause rfl
  | ok a => exact ok (f a)

protected theorem mapM {f : α → Except Failure β} (h : ∀ a, Tame (f a)) (values : List α) :
    Tame (values.mapM f) := by
  induction values with
  | nil => exact ok []
  | cons value rest ih =>
    rw [List.mapM_cons]
    exact (h value).bind fun b => ih.bind fun bs => ok (b :: bs)

end Tame

/-! ## Texts and sums -/

theorem Number.Decimal.tame_decimals (a b : Number.Decimal) : Tame (Summand.decimals a b) := by
  unfold Summand.decimals
  split
  · exact .ok _
  · exact .error (by decide)

private theorem tame_wholeDouble (n : Int) : Tame (Summand.wholeDouble n) := by
  unfold Summand.wholeDouble
  split
  · exact .error (by decide)
  · exact .ok _

private theorem Summand.tame_plus (a b : Summand) : Tame (a.plus b) := by
  cases a <;> cases b <;> simp only [Summand.plus]
  · exact .ok _
  · exact (tame_wholeDouble _).map _
  · exact Number.Decimal.tame_decimals _ _
  · exact (tame_wholeDouble _).map _
  · exact .ok _
  · exact .wrongType
  · exact Number.Decimal.tame_decimals _ _
  · exact .wrongType
  · exact Number.Decimal.tame_decimals _ _

theorem Value.tame_plus (first second : Value) : Tame (first.plus second) := by
  unfold Value.plus
  split
  · exact .ok _
  · exact .ok _
  · exact .ok _
  · unfold Value.plusBytes
    split
    · exact .error (by decide)
    · exact .ok _
  · split
    · exact .ok _
    · exact .wrongType
  · split
    · exact Summand.tame_plus _ _
    · exact .wrongType

private theorem tame_closingSeparator (separator : Value) : Tame (closingSeparator separator) := by
  unfold closingSeparator
  split
  · exact .ok _
  · exact .wrongType
  · exact .wrongType
  · exact .missingAttribute

theorem tame_canJoin (separator : Value) : Tame (canJoin separator) := by
  unfold canJoin
  split
  all_goals first | exact .ok _ | exact .missingAttribute

theorem tame_joinWith (separator : Value) (pieces : List Value) :
    Tame (joinWith separator pieces) := by
  unfold joinWith
  split
  · split
    · exact .ok _
    · exact .wrongType
  · split
    · exact .ok _
    · exact .wrongType
  · split
    · exact .ok _
    · exact .wrongType
  · exact .missingAttribute

theorem tame_canRender (form : LeafForm) (assigned : List (String × Value)) :
    Tame (form.canRender assigned) := by
  unfold LeafForm.canRender canCount
  split
  · split
    · exact (Value.tame_plus _ _).map _
    · exact .ok _
  · exact .ok _

theorem tame_nameText (name : Value) : Tame (IdentifierEscaper.nameText name) := by
  unfold IdentifierEscaper.nameText
  split
  · exact .ok _
  · exact .wrongType
  · exact .wrongType
  · exact .missingAttribute

theorem tame_shown (value : Value) (text : String) : Tame (value.shown text) := by
  unfold Value.shown
  split
  · exact .ok _
  · next obstacle _ => cases obstacle <;> exact .error (by decide)

theorem tame_ofInt (n : Int) : Tame (Number.Whole.ofInt n) := by
  unfold Number.Whole.ofInt
  split
  · exact .ok _
  · exact .error (by decide)

theorem tame_scalar {hostMinutes : Rat} {timezone value : Value} {written : Except Failure String}
    (h : Literal.scalar? hostMinutes timezone value = some written) : Tame written := by
  rintro cause rfl
  rw [(Literal.scalar?_eq_error_iff.1 h).2]
  decide

theorem tame_key (key : Value) : Tame (Json.key key) := by
  unfold Json.key
  split
  all_goals first | exact .ok _ | exact .wrongType | exact (tame_ofInt _).map _

private theorem tame_dedentPart (indent : List Char) (part : Value) :
    Tame (dedentPart indent part) := by
  unfold dedentPart
  split
  · exact .ok _
  · exact .wrongType
  · exact .wrongType
  · exact .missingAttribute

private theorem tame_dedentParts (parts : List Value) : Tame (dedentParts parts) := by
  unfold dedentParts
  split
  · exact .error (by decide)
  · split
    · exact .ok _
    · exact .mapM (tame_dedentPart _) _
  · exact .wrongType

private theorem tame_interleave {results : List (Except Failure Result)}
    (h : ∀ result ∈ results, Tame result) (sql : String) (parts : List Value) :
    Tame (interleave sql results parts) := by
  induction results generalizing sql parts with
  | nil => exact .ok sql
  | cons result results ih =>
    rw [List.forall_mem_cons] at h
    cases result with
    | error cause =>
      rintro _ ⟨⟩
      exact h.1 cause rfl
    | ok result =>
      cases parts with
      | nil => exact .error (by decide)
      | cons part parts =>
        simp only [interleave]
        split
        · exact ih h.2 _ _
        · exact .wrongType

theorem tame_compose {strings : List Value} {results : List (Except Failure Result)}
    {context : Context} (h : ∀ result ∈ results, Tame result) :
    Tame (compose strings results context) := by
  rw [compose_eq_map]
  apply Tame.map
  refine (tame_dedentParts strings).bind fun parts => ?_
  split
  · exact (tame_interleave h _ _).bind fun sql => .ok _
  · exact .wrongType

theorem Rendered.tame_toResult (rendered : Rendered) : Tame rendered.toResult := by
  cases rendered with
  | result result => exact .ok result
  | other value => exact .missingAttribute

theorem tame_surround (context : Context) (strings : List Value) (inner : Result) :
    Tame (surround context strings inner) := by
  unfold surround
  split
  · exact tame_compose fun result hresult => List.mem_singleton.1 hresult ▸ .ok inner
  · exact .ok _

/-! ## Outcomes that overrun -/

def Outcome.Overruns {α : Type} (outcome : Outcome α) : Prop :=
  outcome.answer = .error (.resolutionTooDeep maxResolutionDepth)

namespace Outcome

variable {α β : Type}

@[simp]
theorem not_overruns_pure (a : α) : ¬ (pure a : Outcome α).Overruns := fun h => by cases h

theorem not_overruns_ofExcept {answer : Except Failure α} (h : Tame answer) :
    ¬ (ofExcept answer).Overruns := fun hoverruns => h _ hoverruns rfl

theorem overruns_bind {x : Outcome α} {f : α → Outcome β} :
    (x >>= f).Overruns ↔ x.Overruns ∨ ∃ a, x.answer = .ok a ∧ (f a).Overruns := by
  unfold Overruns
  rw [answer_bind]
  cases h : x.answer with
  | error cause =>
    constructor
    · intro hcause
      exact .inl (congrArg Except.error (Except.error.inj hcause))
    · rintro (hcause | ⟨_, ha, _⟩)
      · exact congrArg Except.error (Except.error.inj hcause)
      · cases ha
  | ok a =>
    constructor
    · exact fun hf => .inr ⟨a, rfl, hf⟩
    · rintro (hcause | ⟨_, ha, hf⟩)
      · cases hcause
      · cases ha
        exact hf

theorem overruns_bind_left {x : Outcome α} {f : α → Outcome β} (h : ∀ a, ¬ (f a).Overruns) :
    (x >>= f).Overruns ↔ x.Overruns := by
  rw [overruns_bind]
  apply or_iff_left
  rintro ⟨a, _, hf⟩
  exact h a hf

theorem not_overruns_bind {x : Outcome α} {f : α → Outcome β} (h : ¬ x.Overruns)
    (hf : ∀ a, ¬ (f a).Overruns) : ¬ (x >>= f).Overruns :=
  fun hbind => h ((overruns_bind_left hf).1 hbind)

/-- What overruns in order is the first part or, if that went well, a later one. -/
theorem overruns_bind_iff {x : Outcome α} {f : α → Outcome β} {P Q : Prop}
    (h : x.Overruns ↔ P) (hf : ∀ a, x.answer = .ok a → ((f a).Overruns ↔ Q)) :
    (x >>= f).Overruns ↔ P ∨ x.answer.isOk ∧ Q := by
  rw [overruns_bind, h]
  apply or_congr_right
  cases hx : x.answer with
  | error cause => simp [Except.isOk, Except.toBool]
  | ok a => simp [Except.isOk, Except.toBool, hf a hx]

end Outcome

/-! ## Fragments that are written out -/

section

variable (env : Environment)

def Environment.rendersInside (f : Fragment) : Bool :=
  match f with
  | .template label _ _ _ =>
    match env.remembered label with
    | .ok none => true
    | _ => false
  | f => !(f.hides "to_string" || f.hides "to_sql")

mutual

/-- The fragments that are rendered while a value is written as structured text, in order, up to
the first thing that cannot be written. -/
def Value.inlays : Value → List Fragment
  | .list _ items => Value.inlaysEach items
  | .tuple items => Value.inlaysEach items
  | .dict _ entries => Value.inlaysEntries entries
  | .fragment f => if env.rendersInside f then [f] else []
  | _ => []
termination_by structural v => v

def Value.inlaysEach : List Value → List Fragment
  | [] => []
  | value :: rest =>
    Value.inlays value ++ if (json env value).answer.isOk then Value.inlaysEach rest else []
termination_by structural vs => vs

def Value.inlaysEntries : List (Value × Value) → List Fragment
  | [] => []
  | (key, value) :: rest =>
    if (Json.key key).isOk then
      Value.inlays value ++ if (json env value).answer.isOk then Value.inlaysEntries rest else []
    else []
termination_by structural entries => entries

end

def LiteralEscaper.inlays (escaper : LiteralEscaper) (value : Value) : List Fragment :=
  match escaper with
  | standard => value.inlays env
  | _ => []

def Context.inlaysEach (context : Context) : List Value → List Fragment
  | [] => []
  | value :: rest => context.escape.inlays env value ++
      if (context.escape.write env value context.timezone fun _ => json env value).answer.isOk then
        inlaysEach context rest
      else []

def Fragment.inlays (context : Context) : Fragment → List Fragment
  | .raw (.fragment f) => if env.rendersInside f then [f] else []
  | .parameter value => if context.withParameters then [] else context.escape.inlays env value
  | .parameterList values separator =>
    if context.withParameters then []
    else if (canJoin separator).isOk then context.inlaysEach env values
    else []
  | _ => []

/-- What the library is given does not speak for it: no function of the user, and no template whose
text is looked up, claims that fragments rendered to one another too often. -/
structure Context.Honest (context : Context) : Prop where
  remembered (label : Label) :
    env.remembered label ≠ .error (.resolutionTooDeep maxResolutionDepth)
  literal {label : Label} {write : Environment → Value → Value → Outcome Value}
    (h : context.escape = .custom label write) (value timezone : Value) :
    ¬ (write env value timezone).Overruns
  name {label : Label} {write : Environment → Value → Outcome Value}
    (h : context.escapeId = .custom label write) (name : Value) : ¬ (write env name).Overruns

end

variable {env : Environment} {context : Context}

theorem Context.Honest.inlined (h : context.Honest env) : Context.inlined.Honest env where
  remembered := h.remembered
  literal := fun h => by cases h
  name := fun h => by cases h

private theorem not_overruns_expectText (value : Value) : ¬ value.expectText.Overruns := by
  cases value <;> exact fun h => by cases h

private theorem not_overruns_showText (value : Value) : ¬ value.showText.Overruns :=
  Outcome.not_overruns_ofExcept (tame_shown value value.plainText)

private theorem overruns_inline (h : context.Honest env) {f : Fragment}
    {render : Unit → Outcome Rendered} :
    (env.inline f render).Overruns ↔ env.rendersInside f ∧ (render ()).Overruns := by
  have htext : ∀ rendered : Rendered, ¬ (do
      let result ← rendered.expect
      result.sql.expectText : Outcome String).Overruns := fun rendered =>
    Outcome.not_overruns_bind (Outcome.not_overruns_ofExcept rendered.tame_toResult)
      fun result => not_overruns_expectText result.sql
  unfold Environment.inline Environment.rendersInside
  split
  · next label _ _ _ =>
    dsimp only
    cases hremembered : env.remembered label with
    | error cause =>
      refine iff_of_false ?_ fun hfalse => Bool.false_ne_true hfalse.1
      rintro ⟨⟩
      exact h.remembered label hremembered
    | ok known =>
      cases known with
      | some sql =>
        exact iff_of_false (not_overruns_expectText sql) fun hfalse => Bool.false_ne_true hfalse.1
      | none =>
        exact (Outcome.overruns_bind_left htext).trans (and_iff_right rfl).symm
  · split
    · next hhides =>
      simp only [hhides]
      exact iff_of_false (fun h => by cases h) fun hfalse => Bool.false_ne_true hfalse.1
    · next hhides =>
      simp only [hhides]
      exact (Outcome.overruns_bind_left htext).trans (and_iff_right rfl).symm

private theorem exists_mem_append_ite {P : Fragment → Prop} {front back : List Fragment}
    {c : Bool} :
    (∃ f ∈ front ++ if c then back else [], P f) ↔
      (∃ f ∈ front, P f) ∨ c ∧ ∃ f ∈ back, P f := by
  cases c <;> simp [or_and_right, exists_or]

private theorem iff_exists_mem_nil {p : Prop} {P : Fragment → Prop} (h : ¬ p) :
    p ↔ ∃ f ∈ ([] : List Fragment), P f := by
  simp [h]

private theorem overruns_inlay (h : context.Honest env) (f : Fragment) :
    (env.inline f fun _ => resolve env .inlined 0 f).Overruns ↔
      ∃ g ∈ if env.rendersInside f then [f] else [], (resolve env .inlined 0 g).Overruns := by
  rw [overruns_inline h]
  cases env.rendersInside f <;> simp

mutual

theorem overruns_json (h : context.Honest env) (value : Value) :
    (json env value).Overruns ↔
      ∃ f ∈ value.inlays env, (resolve env .inlined 0 f).Overruns := by
  match value with
  | .list _ items | .tuple items =>
    rw [json, Outcome.overruns_bind_left fun _ => Outcome.not_overruns_pure _, Value.inlays]
    exact overruns_jsonEach h items
  | .dict _ entries =>
    rw [json, Outcome.overruns_bind_left fun _ => Outcome.not_overruns_pure _, Value.inlays]
    exact overruns_jsonEntries h entries
  | .fragment f =>
    rw [json, Outcome.overruns_bind_left fun _ => Outcome.not_overruns_pure _, Value.inlays]
    exact overruns_inlay h f
  | .dateTime _ | .date _ | .bytes _ _ | .decimal _ _ | .object _ _ | .function _ =>
    apply iff_exists_mem_nil
    rw [json]
    · exact Outcome.not_overruns_bind (not_overruns_showText _) fun _ => Outcome.not_overruns_pure _
    all_goals simp
  | .int n =>
    apply iff_exists_mem_nil
    rw [json]
    exact Outcome.not_overruns_bind (Outcome.not_overruns_ofExcept (tame_ofInt n)) fun _ =>
      Outcome.not_overruns_pure _
  | .null | .bool _ | .float _ _ | .text _ => exact iff_exists_mem_nil fun h => by cases h
termination_by structural value

private theorem overruns_jsonEach (h : context.Honest env) (items : List Value) :
    (jsonEach env items).Overruns ↔
      ∃ f ∈ Value.inlaysEach env items, (resolve env .inlined 0 f).Overruns := by
  match items with
  | [] => exact iff_exists_mem_nil fun h => by cases h
  | value :: rest =>
    rw [jsonEach, Value.inlaysEach, exists_mem_append_ite]
    apply Outcome.overruns_bind_iff (overruns_json h value)
    intro _ _
    rw [Outcome.overruns_bind_left fun _ => Outcome.not_overruns_pure _]
    exact overruns_jsonEach h rest
termination_by structural items

private theorem overruns_jsonEntries (h : context.Honest env) (entries : List (Value × Value)) :
    (jsonEntries env entries).Overruns ↔
      ∃ f ∈ Value.inlaysEntries env entries, (resolve env .inlined 0 f).Overruns := by
  match entries with
  | [] => exact iff_exists_mem_nil fun h => by cases h
  | (key, value) :: rest =>
    rw [jsonEntries, Value.inlaysEntries]
    cases hkey : Json.key key with
    | error cause =>
      apply iff_exists_mem_nil
      rintro ⟨⟩
      exact tame_key key _ hkey rfl
    | ok name =>
      refine .trans ?_ exists_mem_append_ite.symm
      refine (iff_of_eq (congrArg Outcome.Overruns (pure_bind name _))).trans ?_
      apply Outcome.overruns_bind_iff (overruns_json h value)
      intro _ _
      rw [Outcome.overruns_bind_left fun _ => Outcome.not_overruns_pure _]
      exact overruns_jsonEntries h rest
termination_by structural entries

end

/-! ## Values that are written -/

theorem overruns_verbatimText (h : context.Honest env) (value : Value) :
    (verbatimText env value).Overruns ↔
      ∃ f ∈ (Fragment.raw value).inlays env context, (resolve env .inlined 0 f).Overruns := by
  cases value with
  | fragment f =>
    rw [verbatimText, plainText, Fragment.inlays]
    · exact overruns_inlay h f
    · exact fun h => by cases h
  | null => exact iff_exists_mem_nil fun h => by cases h
  | _ => exact iff_exists_mem_nil (not_overruns_showText _)

private theorem inlays_of_scalar {hostMinutes : Rat} {timezone value : Value}
    {written : Except Failure String}
    (h : Literal.scalar? hostMinutes timezone value = some written) :
    value.inlays env = [] := by
  cases value with
  | list | tuple | dict | object | function | fragment => cases h
  | _ => rfl

theorem overruns_write (h : context.Honest env) (value : Value) :
    (context.escape.write env value context.timezone fun _ => json env value).Overruns ↔
      ∃ f ∈ context.escape.inlays env value, (resolve env .inlined 0 f).Overruns := by
  cases hescape : context.escape with
  | standard =>
    rw [LiteralEscaper.write, LiteralEscaper.inlays]
    split
    · next hscalar =>
      rw [inlays_of_scalar hscalar]
      apply iff_exists_mem_nil
      exact Outcome.not_overruns_bind (Outcome.not_overruns_ofExcept (tame_scalar hscalar)) fun _ =>
        Outcome.not_overruns_pure _
    · rw [Outcome.overruns_bind_left fun _ => Outcome.not_overruns_pure _]
      exact overruns_json h value
  | custom label write =>
    exact iff_exists_mem_nil (h.literal hescape value context.timezone)
  | broken given => exact iff_exists_mem_nil fun h => by cases h

theorem not_overruns_writeText (h : context.Honest env) (s : String) (timezone : Value) :
    ¬ (context.escape.write env (.text s) timezone fun _ => pure (.text s)).Overruns := by
  cases hescape : context.escape with
  | standard => exact fun h => by cases h
  | custom label write => exact h.literal hescape (.text s) timezone
  | broken given => exact fun h => by cases h

theorem overruns_bindValue (h : context.Honest env) (value : Value) :
    (context.bind env value fun _ => json env value).Overruns ↔
      ∃ f ∈ (Fragment.parameter value).inlays env context,
        (resolve env .inlined 0 f).Overruns := by
  rw [Context.bind, Fragment.inlays]
  split
  · exact iff_exists_mem_nil (Outcome.not_overruns_pure _)
  · rw [Outcome.overruns_bind_left fun _ => Outcome.not_overruns_pure _]
    exact overruns_write h value

private theorem overruns_literalEach (h : context.Honest env) (values : List Value) :
    (literalEach env context values).Overruns ↔
      ∃ f ∈ context.inlaysEach env values, (resolve env .inlined 0 f).Overruns := by
  induction values with
  | nil => exact iff_exists_mem_nil fun h => by cases h
  | cons value rest ih =>
    rw [literalEach, Context.inlaysEach, exists_mem_append_ite]
    apply Outcome.overruns_bind_iff (overruns_write h value)
    intro _ _
    rw [Outcome.overruns_bind_left fun _ => Outcome.not_overruns_pure _]
    exact ih

theorem overruns_renderList (h : context.Honest env) (separator : Value) (values : List Value) :
    (renderList env context separator values).Overruns ↔
      ∃ f ∈ (Fragment.parameterList values separator).inlays env context,
        (resolve env .inlined 0 f).Overruns := by
  have hjoin : ∀ pieces, ¬ (do
      let sql ← Outcome.ofExcept (joinWith separator pieces)
      pure { sql := sql } : Outcome Result).Overruns := fun pieces =>
    Outcome.not_overruns_bind (Outcome.not_overruns_ofExcept (tame_joinWith separator pieces))
      fun _ => Outcome.not_overruns_pure _
  rw [renderList, Fragment.inlays]
  split
  · apply iff_exists_mem_nil
    exact Outcome.not_overruns_bind (Outcome.not_overruns_ofExcept (tame_joinWith _ _))
      fun _ => Outcome.not_overruns_pure _
  · cases hcan : canJoin separator with
    | error cause =>
      apply iff_exists_mem_nil
      rintro ⟨⟩
      exact tame_canJoin separator _ hcan rfl
    | ok =>
      refine (iff_of_eq (congrArg Outcome.Overruns (pure_bind () _))).trans ?_
      rw [Outcome.overruns_bind_left hjoin]
      exact overruns_literalEach h values

theorem not_overruns_writeName (h : context.Honest env) (name : Value) :
    ¬ (context.escapeId.write env name).Overruns := by
  cases hescape : context.escapeId with
  | standard => exact Outcome.not_overruns_ofExcept ((tame_nameText name).map _)
  | custom label write => exact h.name hescape name
  | broken given => exact fun h => by cases h

theorem not_overruns_writeNames (h : context.Honest env) (names : List Value) :
    ¬ (names.mapM (context.escapeId.write env)).Overruns := by
  induction names with
  | nil => exact Outcome.not_overruns_pure _
  | cons name rest ih =>
    rw [List.mapM_cons]
    exact Outcome.not_overruns_bind (not_overruns_writeName h name) fun _ =>
      Outcome.not_overruns_bind ih fun _ => Outcome.not_overruns_pure _

theorem not_overruns_lengthen (separator : Value) (isLast : Bool) (sql line : Value) :
    ¬ (lengthen separator isLast sql line).Overruns := by
  have hextend : ∀ separator sql added, ¬ (extendLines separator sql added).Overruns := by
    intro separator sql added
    unfold extendLines
    apply Outcome.not_overruns_bind (Outcome.not_overruns_ofExcept (Value.tame_plus sql added))
    intro extended
    split
    · exact fun h => by cases h
    · exact fun h => by cases h
  unfold lengthen
  split
  · apply Outcome.not_overruns_bind (hextend _ _ _)
    intro extended
    dsimp only
    split
    · exact Outcome.not_overruns_bind
        (Outcome.not_overruns_ofExcept (tame_closingSeparator separator)) fun _ => hextend _ _ _
    · exact Outcome.not_overruns_bind (Outcome.not_overruns_pure _) fun _ => hextend _ _ _
  · exact fun h => by cases h

end SqlFragments
