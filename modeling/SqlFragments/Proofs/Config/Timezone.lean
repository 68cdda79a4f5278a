import SqlFragments.Proofs.Config.ZoneFile
import SqlFragments.Proofs.Literal.Clock
import SqlFragments.Proofs.Literal.Scan
import SqlFragments.Proofs.Render.Clocks
import SqlFragments.Proofs.Yaml.Resolution

/-!
# Time zones of configurations

An offset in a configuration means what it means as an option, unless it is written plainly in the
form of a whole number. Then the document holds that number, which is no time zone, and dates are
written in universal time.
-/

namespace SqlFragments

open Calendar Yaml

/-! ## Renders of literals under a time zone -/

/-- The options that name a time zone and turn placeholders off. -/
def Options.literalsAt (timezone : Value) : Options :=
  .mapping 0 [(.text "timezone", .value timezone),
    (.text "with_parameters", .value (.bool false))]

def RenderConfig.literals (config : RenderConfig) (label : Label) : Options :=
  .constructed { config.toContext label with withParameters := false }.toSettings

def Value.asTimezone (given : Value) : Value :=
  if given.isTruthy then given else .text "Z"

private theorem ofFields_timezone {fields : Entries Setting} {timezone : Value} {b : Bool}
    (htimezone : fields.get? (.text "timezone") = some (.value timezone))
    (hparameters : fields.get? (.text "with_parameters") = some (.value (.bool b)))
    (hescape : fields.get? (.text "escape") = none)
    (hescapeId : fields.get? (.text "escape_id") = none)
    (hpreparing : (fields.get? (.text "preparing")).filter Setting.isTruthy = none)
    (hmethod : ((fields.get? (.text "method")).map Setting.toValue).getD .null = .null) :
    Context.ofFields fields = { withParameters := b, timezone := timezone.asTimezone } := by
  have hgiven : (((some (Setting.value timezone)).filter Setting.isTruthy).map
      Setting.toValue).getD (.text "Z") = timezone.asTimezone := by
    rw [Option.filter_some, Value.asTimezone]
    change (Option.map _ (if timezone.isTruthy = true then _ else _)).getD _ = _
    split <;> rfl
  rw [Context.ofFields_eq, htimezone, hparameters, hescape, hescapeId, hpreparing, hmethod, hgiven]
  cases b <;> rfl

theorem Options.normalize_literalsAt (timezone : Value) :
    (literalsAt timezone).normalize =
      .ok { withParameters := false, timezone := timezone.asTimezone } :=
  congrArg Except.ok (ofFields_timezone rfl rfl rfl rfl rfl rfl)

theorem RenderConfig.render_literals (timezone : Value) (label : Label) (env : Environment)
    (target : Value) :
    (({ timezone := timezone } : RenderConfig).literals label).render env target =
      (Options.literalsAt timezone).render env target := by
  have hcontext : ({ timezone := timezone } : RenderConfig).toContext label =
      { timezone := timezone.asTimezone } :=
    ofFields_timezone rfl rfl rfl rfl rfl rfl
  have hnormalize := Options.normalize_literalsAt timezone
  rw [literals, hcontext, Options.render_of_normalize hnormalize]
  exact Options.render_of_normalize (Options.normalize_toSettings hnormalize) env target

/-- Time zones whose clocks agree make one text of a tree. -/
theorem Options.render_literalsAt_congr {timezone timezone' : Value} {env : Environment}
    (h : (Literal.zoneOf timezone.asTimezone).microseconds env.hostMinutes =
      (Literal.zoneOf timezone'.asTimezone).microseconds env.hostMinutes) {target : Value}
    (hlibrary : target.IsLibrary) :
    (literalsAt timezone).render env target = (literalsAt timezone').render env target := by
  rw [render_of_normalize (normalize_literalsAt timezone),
    render_of_normalize (normalize_literalsAt timezone')]
  let context : Context := { withParameters := false, timezone := timezone'.asTimezone }
  have hescape : context.escape = .standard := rfl
  exact answer_evaluate_timezone hescape h hlibrary

theorem Options.render_literalsAt_parameter {timezone value : Value} {env : Environment}
    {s : String}
    (h : Literal.scalar? env.hostMinutes timezone.asTimezone value = some (.ok s)) :
    (literalsAt timezone).render env (.fragment (.parameter value)) =
      .ok (.result { sql := .text s }) := by
  rw [render_of_normalize (normalize_literalsAt timezone), evaluate_of_assignable rfl]
  refine ⟨rfl, ?_⟩
  simp only [Fragment.renderBy, Context.bind, LiteralEscaper.write, h]
  rfl

/-! ## Offsets in documents -/

private theorem asTimezone_text (z : OffsetText) :
    (Value.text z.text).asTimezone = .text z.text := by
  have hempty : z.text ≠ "" := z.text_ne (by decide) (by decide)
  have htruthy : (Value.text z.text).isTruthy = true := by
    simpa [Value.isTruthy] using hempty
  rw [Value.asTimezone, if_pos htruthy]

private theorem microseconds_text (z : OffsetText) (hostMinutes : Rat) :
    (Literal.zoneOf (Value.text z.text).asTimezone).microseconds hostMinutes =
      z.offset.totalMinutes * Instant.minute := by
  rw [asTimezone_text, Literal.zoneOf, z.zoneOf_text, Zone.microseconds]
  exact Offset.microseconds_eq z.offset_range.1 z.offset_range.2

/-- What YAML makes of a scalar that is an offset: a text where it is in quotes or has not the form
of a number, and a number otherwise. -/
structure ResolvesOffsets (resolve : Bool → String → Value) : Prop where
  quoted (z : OffsetText) : resolve false z.text = .text z.text
  word (z : OffsetText) (h : Scalar.isNumber z = false) : resolve true z.text = .text z.text
  number (z : OffsetText) (h : Scalar.isNumber z = true) : ∃ n, resolve true z.text = .int n

namespace ResolvesOffsets

variable {resolve : Bool → String → Value} {z : OffsetText}

theorem eq_text (hresolve : ResolvesOffsets resolve) {plain : Bool}
    (h : plain = false ∨ Scalar.isNumber z = false) : resolve plain z.text = .text z.text := by
  cases plain with
  | false => exact hresolve.quoted z
  | true => exact hresolve.word z (h.resolve_left Bool.noConfusion)

theorem microseconds_of_number (hresolve : ResolvesOffsets resolve) (h : Scalar.isNumber z = true)
    (hostMinutes : Rat) :
    (Literal.zoneOf (resolve true z.text).asTimezone).microseconds hostMinutes = 0 := by
  obtain ⟨n, hn⟩ := hresolve.number z h
  rw [hn, Value.asTimezone]
  split <;> rfl

end ResolvesOffsets

def Yaml.valueOfScalar (plain : Bool) (s : String) : Value := (Node.written plain s).draft.toValue

theorem Yaml.resolvesOffsets : ResolvesOffsets valueOfScalar where
  quoted z := rfl
  word z h := by
    have htag : Reading.scalarTag none z.text true = .text := by
      rw [Reading.scalarTag, Scalar.tagOf_offset, h]
      rfl
    rw [valueOfScalar, Node.written, htag]
    rfl
  number z h := by
    obtain ⟨n, hn⟩ := Scalar.exists_integerValue z h
    have htag : Reading.scalarTag none z.text true = .integer := by
      rw [Reading.scalarTag, Scalar.tagOf_offset, if_pos rfl, if_pos h]
    have hdraft : (Node.scalar .integer z.text).draft =
        .scalar ((Scalar.integerValue z.text).map .int) := rfl
    rw [valueOfScalar, Node.written, htag, hdraft, hn]
    exact ⟨n, rfl⟩

/-- A date shows to the millisecond whether the clocks of a time zone are those of universal
time. -/
theorem microseconds_lt_of_render {timezone : Value} {env : Environment}
    (hhost : |env.hostMinutes| < 24 * 60)
    (h : ∀ target : Value, target.IsLibrary → (Options.literalsAt timezone).render env target =
      (Options.literalsAt (.text "Z")).render env target) :
    |(Literal.zoneOf timezone.asTimezone).microseconds env.hostMinutes| < 1000 := by
  let day : Date := ⟨2000, 1, 1, by decide, by decide, by decide⟩
  have hv : (Value.date day).instant? = some ((63082281600000000 : Int)) := by decide +kernel
  have htext := h (.fragment (.parameter (.date day))) (by decide)
  rw [Options.render_literalsAt_parameter rfl, Options.render_literalsAt_parameter rfl] at htext
  simp only [Except.ok.injEq, Rendered.result.injEq, Result.mk.injEq, Value.text.injEq,
    and_true] at htext
  have hclock (timezone : Value) : Literal.dateText env.hostMinutes timezone day =
      Instant.text (Instant.landing 63082281600000000
        ((Literal.zoneOf timezone).microseconds env.hostMinutes)) :=
    Except.ok.inj (Literal.dateValueText_eq_landing hhost timezone hv)
  have hsame := Literal.quote_injective htext
  have huniversal : (Literal.zoneOf (Value.text "Z").asTimezone).microseconds env.hostMinutes = 0 :=
    rfl
  rw [hclock, hclock, Instant.text_inj (Instant.onCalendar_landing _ _)
    (Instant.onCalendar_landing _ _), huniversal] at hsame
  have hwide := Zone.abs_microseconds_le hhost timezone.asTimezone
  generalize (Literal.zoneOf timezone.asTimezone).microseconds env.hostMinutes = ahead
    at hsame hwide ⊢
  have hon : Instant.onCalendar (63082281600000000 : Int) = true := by decide +kernel
  rw [Zone.widest_eq, abs_le] at hwide
  simp only [Instant.landing, hon, if_true, Instant.limited_eq] at hsame
  rw [abs_lt]
  omega

/-! ## Configurations -/

/-- An offset that is the time zone of a configuration, plainly or in quotes, renders dates as the
same offset does as an option, unless it is no text in the document, and neither is it zero. Where
it is no text it is passed over, and dates are rendered in universal time. This is so for whatever
reads documents, if it makes of offsets what YAML does. -/
theorem Config.render_literals_iff {load : String → Except Failure Value}
    {resolve : Bool → String → Value} (hresolve : ResolvesOffsets resolve) {document : String}
    {plain : Bool} {z : OffsetText} {config : Config}
    (hsets : ∀ value, load document = .ok value → value.SetsTimezone (resolve plain z.text))
    (hconfig : Config.parseWith load document = .ok config) (label : Label) :
    ((∀ (env : Environment) (target : Value), target.IsLibrary →
      (config.render.literals label).render env target =
        (Options.literalsAt (.text z.text)).render env target) ↔
      plain = false ∨ Scalar.isNumber z = false ∨ z.offset.totalMinutes = 0) ∧
    (plain = true → Scalar.isNumber z = true → ∀ (env : Environment) (target : Value),
      target.IsLibrary → (config.render.literals label).render env target =
        (Options.literalsAt (.text "Z")).render env target) := by
  have htimezone := Config.render_of_setsTimezone hsets hconfig
  have hpassed : plain = true → Scalar.isNumber z = true → ∀ (env : Environment) (target : Value),
      target.IsLibrary → (config.render.literals label).render env target =
        (Options.literalsAt (.text "Z")).render env target := by
    rintro rfl hnumber env target hlibrary
    rw [htimezone, RenderConfig.render_literals]
    exact Options.render_literalsAt_congr (hresolve.microseconds_of_number hnumber _) hlibrary
  refine ⟨⟨?_, ?_⟩, hpassed⟩
  · intro h
    cases hplain : plain with
    | false => exact .inl rfl
    | true =>
      cases hnumber : Scalar.isNumber z with
      | false => exact .inr (.inl rfl)
      | true =>
        right
        right
        have hless : |z.offset.totalMinutes * Instant.minute| < 1000 := by
          rw [← microseconds_text z ({} : Environment).hostMinutes]
          apply microseconds_lt_of_render (by decide +kernel)
          intro target hlibrary
          rw [← h {} target hlibrary, hpassed hplain hnumber {} target hlibrary]
        rw [Instant.minute_eq, abs_lt] at hless
        omega
  · intro h env target hlibrary
    by_cases hwritten : plain = false ∨ Scalar.isNumber z = false
    · rw [htimezone, hresolve.eq_text hwritten, RenderConfig.render_literals]
    · simp only [not_or, Bool.not_eq_false] at hwritten
      rw [hpassed hwritten.1 hwritten.2 env target hlibrary]
      have hzero : z.offset.totalMinutes = 0 := by
        simpa [hwritten.1, hwritten.2] using h
      apply Options.render_literalsAt_congr _ hlibrary
      rw [microseconds_text, hzero]
      rfl

/-- An offset of ten hours and a half has the form of a number, but not in quotes. -/
theorem Config.render_literals_iff_quoted :
    let document := "render:\n  timezone: \"+10:30\"\n"
    let z : OffsetText := ⟨false, 10, some (true, 30)⟩
    let config : Config := { render := { timezone := .text "+10:30" } }
    ResolvesOffsets valueOfScalar ∧
    (∀ value, valueOf document = .ok value → value.SetsTimezone (valueOfScalar false z.text)) ∧
    Config.parseWith valueOf document = .ok config ∧
    Scalar.isNumber z = true ∧
    ∀ (env : Environment) (target : Value), target.IsLibrary →
      (config.render.literals 0).render env target =
        (Options.literalsAt (.text z.text)).render env target := by
  intro document z config
  have hdocument : document = Config.zoneFile (.between '"' (.inr rfl)) z.text := by
    decide +kernel
  have hroot : Node.parse (withLineFeeds document.toList) =
      .ok (some (Node.onlyTimezone (Node.written false z.text))) := by
    rw [hdocument]
    exact Config.root_zoneFile _ z
  have hdraft : (Node.written false z.text).draft = .scalar (.ok (.text "+10:30")) :=
    congrArg (fun s => Draft.scalar (.ok (.text s))) (by decide +kernel : z.text = "+10:30")
  have hconfig : Config.parseWith valueOf document = .ok config :=
    Config.parse_onlyTimezone (by decide +kernel) hroot hdraft
  have hsets : ∀ value, valueOf document = .ok value →
      value.SetsTimezone (valueOfScalar false z.text) := fun value =>
    Config.setsTimezone_of_root hroot (Node.setsTimezone_onlyTimezone _)
  refine ⟨resolvesOffsets, hsets, hconfig, by decide, ?_⟩
  exact (Config.render_literals_iff resolvesOffsets hsets hconfig 0).1.2 (.inl rfl)

/-- Plainly an offset of two hours is the number two, and so it is passed over. -/
theorem Config.render_literals_ne :
    let document := "render:\n  timezone: +02\n"
    let z : OffsetText := ⟨false, 2, none⟩
    let config : Config := { render := { timezone := .int 2 } }
    let midnight : TimeOfDay := ⟨0, 0, 0, 0, by decide, by decide, by decide, by decide⟩
    let moment : DateTime := ⟨⟨2020, 1, 1, by decide, by decide, by decide⟩, midnight, none⟩
    let target : Value := .fragment (.parameter (.dateTime moment))
    (∀ value, valueOf document = .ok value → value.SetsTimezone (valueOfScalar true z.text)) ∧
    Config.parseWith valueOf document = .ok config ∧
    (config.render.literals 0).render {} target =
      .ok (.result { sql := .text "'2020-01-01 00:00:00.000'" }) ∧
    (Options.literalsAt (.text z.text)).render {} target =
      .ok (.result { sql := .text "'2020-01-01 02:00:00.000'" }) := by
  intro document z config midnight moment target
  have hdocument : document = Config.zoneFile .plain z.text := by decide +kernel
  have hroot : Node.parse (withLineFeeds document.toList) =
      .ok (some (Node.onlyTimezone (Node.written true z.text))) := by
    rw [hdocument]
    exact Config.root_zoneFile _ z
  have hnumber : Scalar.value .integer "+02" = .ok (.int 2) := by cbv
  have hdraft : (Node.written true z.text).draft = .scalar (.ok (.int 2)) := by
    rw [(by decide +kernel : z.text = "+02")]
    exact congrArg Draft.scalar hnumber
  have hconfig : Config.parseWith valueOf document = .ok config :=
    Config.parse_onlyTimezone (by decide +kernel) hroot hdraft
  have hsets : ∀ value, valueOf document = .ok value →
      value.SetsTimezone (valueOfScalar true z.text) := fun value =>
    Config.setsTimezone_of_root hroot (Node.setsTimezone_onlyTimezone _)
  have hpassed : Literal.quote (Literal.dateTimeText 0 (Value.int 2).asTimezone moment) =
      "'2020-01-01 00:00:00.000'" := by decide +kernel
  have hmoved : Literal.quote (Literal.dateTimeText 0 (Value.text z.text).asTimezone moment) =
      "'2020-01-01 02:00:00.000'" := by decide +kernel
  refine ⟨hsets, hconfig, ?_, ?_⟩
  · rw [RenderConfig.render_literals]
    exact Options.render_literalsAt_parameter (congrArg (fun s => some (Except.ok s)) hpassed)
  · exact Options.render_literalsAt_parameter (congrArg (fun s => some (Except.ok s)) hmoved)

end SqlFragments
