import SqlFragments.Proofs.Journal.Format
import SqlFragments.Proofs.Render.Transcript

/-!
# Records of renders

The record of a fragment that begins to render names its kind and carries the settings of the
render. While no fragment stands in these settings, writing it down renders nothing, so what a
handler writes does not depend on what templates remember.
-/

namespace SqlFragments

open Journal Outcome

variable {env : Environment} {context : Context}

def Context.record (context : Context) (kindName : String) : Record where
  logger := "sql_strings.evaluator.evaluator"
  level := debugLevel
  message := "Rendering " ++ kindName ++ " fragment"
  modulePath := "evaluator"
  functionName := .text "to_sql"
  extra := Record.settingFields (.bool context.withParameters) context.timezone context.method

theorem Context.ofEvent?_announcement (context : Context) (kindName : String) :
    Record.ofEvent? (context.announcement kindName) = some (context.record kindName) := rfl

namespace Journal

/-- What a handler writes for a record: one line, or nothing where the record cannot be written. -/
def Handler.write (env : Environment) (handler : Handler) (record : Record) :
    List (Target × Line) :=
  match (handler.format env record).answer with
  | .ok line => [(handler.target, line)]
  | .error _ => []

def write (env : Environment) (journal : Journal) (record : Record) : List (Target × Line) :=
  (journal.handlersAt record.level).flatMap (·.write env record)

end Journal

theorem fixed_format (htimezone : context.timezone.isPure = true)
    (hmethod : context.method.isPure = true) (handler : Handler) (kindName : String) :
    Fixed fun env => handler.format env (context.record kindName) := by
  have htext : ∀ env, (context.record kindName).text env = pure (context.record kindName).message :=
    Record.text_of_arguments rfl
  simp only [Handler.format]
  split
  · simp only [Record.members, htext, pure_bind]
    refine Fixed.bind (.mapM fun field hfield => ?_) fun _ => .pure _
    have hextra : ∀ field ∈ (context.record kindName).extra, field.2.isPure = true := by
      simp [Context.record, Record.settingFields, htimezone, hmethod, Value.isPure]
    have hpure : field.2.isPure = true := @Record.forall_fields (fun value => value.isPure = true)
      _ rfl (fun _ => rfl) rfl hextra _ field hfield
    exact (fixed_json field.2 hpure).bind fun _ => .pure _
  · simp only [Record.line, htext, pure_bind]
    exact .pure _

private theorem levelName_debug : levelName debugLevel = "DEBUG" := by decide

theorem write_plain {handler : Handler} (h : handler.structured = false) (kindName : String) :
    handler.write env (context.record kindName) = [(handler.target,
      .plain (" - sql_strings.evaluator.evaluator - DEBUG - Rendering " ++ kindName ++
        " fragment"))] := by
  have hline : String.intercalate " - " ["", (context.record kindName).logger,
      levelName (context.record kindName).level, (context.record kindName).message] =
        " - sql_strings.evaluator.evaluator - DEBUG - Rendering " ++ kindName ++ " fragment" := by
    show "" ++ " - " ++ "sql_strings.evaluator.evaluator" ++ " - " ++ levelName debugLevel ++
      " - " ++ ("Rendering " ++ kindName ++ " fragment") = _
    simp [levelName_debug, ← String.append_assoc]
  rw [Handler.write, Handler.format, if_neg (by simp [h]), Record.line,
    Record.text_of_arguments rfl]
  simp only [pure_bind, answer_pure, hline]
  rfl

end SqlFragments
