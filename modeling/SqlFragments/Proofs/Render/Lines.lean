import SqlFragments.Proofs.Render.Clause

/-!
# Lines

Lines are the texts of their members that are not empty, with a separator in front of the first,
between any two and behind the last. The last separator loses the spaces at its end, but not where
the last member has no text. A statement around lines whose separator is blank shows none of this:
its text is that of the members with the separator between them.
-/

namespace SqlFragments

open Outcome Text

variable {env : Environment} {context : Context}

/-! ## Texts of lines -/

def lineTexts (texts : List String) : List String :=
  texts.filter (· ≠ "")

/-- What stands behind the last line: the whole separator where the last member has no text, and
the separator without the spaces at its end where it has one. -/
def lineEnd (separator : String) (texts : List String) : String :=
  if texts.getLast? = some "" then separator else stripEndSpaces separator

/-- The text of lines whose members have these texts. -/
def linesText (separator : String) (texts : List String) : String :=
  if lineTexts texts = [] then ""
  else separator ++ separator.intercalate (lineTexts texts) ++ lineEnd separator texts

private def grownText (separator before : String) (texts : List String) : String :=
  if lineTexts texts = [] then before
  else (if before = "" then separator else before) ++ separator.intercalate (lineTexts texts) ++
    lineEnd separator texts

private theorem lineTexts_cons {text : String} (h : text ≠ "") (texts : List String) :
    lineTexts (text :: texts) = text :: lineTexts texts := by
  simp [lineTexts, h]

private theorem lineEnd_of_lineTexts {text : String} {texts : List String}
    (h : lineTexts (text :: texts) = []) (separator : String) :
    lineEnd separator (text :: texts) = separator := by
  have hlast : (text :: texts).getLast? = some "" := by
    rw [List.getLast?_eq_getLast_of_ne_nil (List.cons_ne_nil text texts)]
    have hempty := List.filter_eq_nil_iff.1 h _ (List.getLast_mem (List.cons_ne_nil text texts))
    simpa using hempty
  rw [lineEnd, if_pos hlast]

private theorem grownText_cons_empty (separator before : String) (texts : List String) :
    grownText separator before ("" :: texts) = grownText separator before texts := by
  have hshown : lineTexts ("" :: texts) = lineTexts texts := rfl
  cases texts with
  | nil => rfl
  | cons next texts =>
    have hend : lineEnd separator ("" :: next :: texts) = lineEnd separator (next :: texts) := by
      simp [lineEnd]
    rw [grownText, grownText, hshown, hend]

private theorem grownText_cons {text : String} (h : text ≠ "") (separator before : String)
    (texts : List String) :
    grownText separator before (text :: texts) =
      grownText separator ((if before = "" then separator else before) ++ text ++
        if texts.isEmpty then stripEndSpaces separator else separator) texts := by
  rw [grownText, lineTexts_cons h, if_neg (List.cons_ne_nil _ _)]
  cases texts with
  | nil => simp [grownText, lineTexts, lineEnd, h]
  | cons next texts =>
    have hend : lineEnd separator (text :: next :: texts) = lineEnd separator (next :: texts) := by
      simp [lineEnd]
    rw [grownText, hend]
    cases hrest : lineTexts (next :: texts) with
    | nil => simp [lineEnd_of_lineTexts hrest]
    | cons shown others => simp [h, String.append_assoc]

/-! ## Renders of lines -/

private theorem answer_linesFrom {members : List Value} {results : List Result}
    {texts : List String}
    (hmembers : List.Forall₂ (fun member result =>
      (evaluate env context member).answer = .ok (.result result)) members results)
    (htexts : results.map Result.sql = texts.map .text) (separator before : String)
    (bindings : List Value) :
    (linesFrom env context (.text separator) (.text before) bindings members).answer = .ok {
      sql := .text (grownText separator before texts)
      bindings := bindings ++ results.flatMap Result.bindings } := by
  induction hmembers generalizing texts before bindings with
  | nil =>
    obtain rfl : texts = [] := by simpa using htexts
    simp [linesFrom, grownText, lineTexts]
  | @cons member result members results hmember hrest ih =>
    obtain ⟨text, rest, rfl, htext, hsqls⟩ := List.map_eq_cons_iff.1 htexts.symm
    have hlast : members.isEmpty = rest.isEmpty := by
      have hlength := congrArg List.length hsqls
      have hcount := hrest.length_eq
      rw [List.length_map, List.length_map] at hlength
      rw [Bool.eq_iff_iff, List.isEmpty_iff_length_eq_zero, List.isEmpty_iff_length_eq_zero]
      omega
    rw [linesFrom_cons, answer_bind, hmember]
    show ((lengthen (.text separator) members.isEmpty (.text before) result.sql) >>= _).answer = _
    rw [answer_bind, ← htext, answer_lengthen, hlast]
    show (linesFrom env context _ (.text _) _ members).answer = _
    rw [ih hsqls.symm, List.flatMap_cons, List.append_assoc]
    congr 3
    by_cases hempty : text = ""
    · simp [hempty, Value.isTruthy, grownText_cons_empty]
    · rw [grownText_cons hempty]
      simp [hempty, Value.isTruthy]

namespace Context.Calls

variable (hcalls : context.Calls)

include hcalls

/-- Lines come to the text that the texts of their members make. -/
theorem answer_lines {members : List Value} {results : List Result} {texts : List String}
    (hmembers : List.Forall₂ (fun member result =>
      (evaluate env context member).answer = .ok (.result result)) members results)
    (htexts : results.map Result.sql = texts.map .text) (separator : String) :
    (evaluate env context (.fragment (.lines members (.text separator)))).answer = .ok (.result {
      sql := .text (linesText separator texts)
      bindings := results.flatMap Result.bindings }) := by
  have hlines := answer_linesFrom hmembers htexts separator "" []
  rw [evaluate, resolve, answer_bind, answer_enter, hcalls.allow rfl]
  show ((linesFrom env context (.text separator) (.text "") [] members) >>= _).answer = _
  rw [answer_bind, hlines]
  rfl

end Context.Calls

/-! ## Lines with a blank separator -/

end SqlFragments
