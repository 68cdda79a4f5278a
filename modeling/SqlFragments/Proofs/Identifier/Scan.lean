import Mathlib
import SqlFragments.Proofs.Outcome
import SqlFragments.Proofs.Text.Split
import SqlFragments.Render.Dialect

/-!
# Identifiers read back

A reader of a dialect knows a segment of a name by its quotation marks and a star by itself. It
reads segments with points between them up to the end of the text. Whatever stands in a name, its
segments end where they were meant to end and read back as what they were.
-/

namespace SqlFragments.Identifier

open Text

/-! ## Reading names -/

/-- The characters that stand for one where they stand twice. -/
def Quoting.isTwin : Quoting → Char → Bool
  | doubled _ closing, c => c == closing
  | doubledWithBackslash, c => c == '"' || c == '\\'
  | backslashed, _ => false

/-- The character that a backslash means with what stands behind it, and what follows. -/
def escapeMeaning? : List Char → Option (Char × List Char)
  | '\x60' :: rest => some ('\x60', rest)
  | '\\' :: rest => some ('\\', rest)
  | 'a' :: rest => some ('\x07', rest)
  | 'b' :: rest => some ('\x08', rest)
  | 'f' :: rest => some ('\x0c', rest)
  | 'n' :: rest => some ('\n', rest)
  | 'r' :: rest => some ('\r', rest)
  | 't' :: rest => some ('\t', rest)
  | 'v' :: rest => some ('\x0b', rest)
  | 'x' :: high :: low :: rest => do
    let sixteens ← hexDigit? high
    let ones ← hexDigit? low
    return (Char.ofNat (16 * sixteens + ones), rest)
  | _ => none

/-- What a reader finds next between quotation marks, and what follows: a character of the segment,
or the mark that closes it. -/
inductive Found
  | character (c : Char) (rest : List Char)
  | closing (rest : List Char)

def Found.rest : Found → List Char
  | character _ rest => rest
  | closing rest => rest

def Quoting.next? (quoting : Quoting) : List Char → Option Found
  | [] => none
  | c :: rest =>
    if quoting = backslashed ∧ c = '\\' then
      (escapeMeaning? rest).map fun (meant, behind) => .character meant behind
    else if quoting.isTwin c ∧ rest.head? = some c then some (.character c rest.tail)
    else if c = quoting.closing then some (.closing rest)
    else if quoting.isTwin c then none
    else some (.character c rest)

theorem length_of_escapeMeaning? {cs rest : List Char} {c : Char}
    (h : escapeMeaning? cs = some (c, rest)) : rest.length < cs.length := by
  unfold escapeMeaning? at h
  split at h <;> simp only [Option.bind_eq_bind, Option.bind_eq_some_iff, Option.pure_def,
    Option.some.injEq, Prod.mk.injEq, reduceCtorEq] at h
  all_goals grind

theorem Quoting.length_of_next? {quoting : Quoting} {cs : List Char} {found : Found}
    (h : quoting.next? cs = some found) : found.rest.length < cs.length := by
  cases cs with
  | nil => cases h
  | cons c rest =>
    rw [next?] at h
    rw [List.length_cons, Nat.lt_succ_iff]
    split at h
    · obtain ⟨⟨meant, behind⟩, hmeant, rfl⟩ := Option.map_eq_some_iff.1 h
      exact Nat.le_of_lt (length_of_escapeMeaning? hmeant)
    · split at h
      · cases h
        simp [Found.rest]
      · split at h
        · cases h
          exact Nat.le_refl _
        · split at h
          · cases h
          · cases h
            exact Nat.le_refl _

/-- The characters up to the mark that closes a segment, and what stands behind it. -/
def Quoting.body? (quoting : Quoting) (cs : List Char) : Option (List Char × List Char) :=
  match _hfound : quoting.next? cs with
  | some (.character c rest) =>
    (quoting.body? rest).map fun (body, behind) => (c :: body, behind)
  | some (.closing rest) => some ([], rest)
  | none => none
termination_by cs.length
decreasing_by exact quoting.length_of_next? _hfound

theorem Quoting.body?_of_character {quoting : Quoting} {cs rest : List Char} {c : Char}
    (h : quoting.next? cs = some (.character c rest)) :
    quoting.body? cs = (quoting.body? rest).map fun (body, behind) => (c :: body, behind) := by
  rw [body?]
  split <;> simp_all

theorem Quoting.body?_of_closing {quoting : Quoting} {cs rest : List Char}
    (h : quoting.next? cs = some (.closing rest)) : quoting.body? cs = some ([], rest) := by
  rw [body?]
  split <;> simp_all

theorem Quoting.body?_of_none {quoting : Quoting} {cs : List Char}
    (h : quoting.next? cs = none) : quoting.body? cs = none := by
  rw [body?]
  split <;> simp_all

theorem Quoting.length_of_body? {quoting : Quoting} {cs body behind : List Char}
    (h : quoting.body? cs = some (body, behind)) : behind.length < cs.length := by
  induction cs using Quoting.body?.induct quoting generalizing body with
  | case1 cs c rest hfound ih =>
    rw [body?_of_character hfound] at h
    obtain ⟨⟨body, behind'⟩, hbody, heq⟩ := Option.map_eq_some_iff.1 h
    cases heq
    exact Nat.lt_trans (ih hbody) (length_of_next? hfound)
  | case2 cs rest hfound =>
    rw [body?_of_closing hfound] at h
    cases h
    exact length_of_next? hfound
  | case3 cs hfound =>
    rw [body?_of_none hfound] at h
    cases h

/-- The segment at the head of a text, and what stands behind it: a star, or what is quoted. -/
def Quoting.segment? (quoting : Quoting) : List Char → Option (List Char × List Char)
  | [] => none
  | c :: rest =>
    if c = '*' then some (['*'], rest)
    else if c = quoting.opening then quoting.body? rest
    else none

theorem Quoting.length_of_segment? {quoting : Quoting} {cs segment behind : List Char}
    (h : quoting.segment? cs = some (segment, behind)) : behind.length < cs.length := by
  cases cs with
  | nil => cases h
  | cons c rest =>
    rw [segment?] at h
    rw [List.length_cons, Nat.lt_succ_iff]
    split at h
    · cases h
      exact Nat.le_refl _
    · split at h
      · exact Nat.le_of_lt (length_of_body? h)
      · cases h

/-- Reads a name: segments with points between them, and nothing behind the last one. -/
def Quoting.scan? (quoting : Quoting) (cs : List Char) : Option (List (List Char)) :=
  match _hsegment : quoting.segment? cs with
  | some (segment, []) => some [segment]
  | some (segment, '.' :: rest) => (quoting.scan? rest).map (segment :: ·)
  | _ => none
termination_by cs.length
decreasing_by exact Nat.lt_trans (Nat.lt_succ_self _) (quoting.length_of_segment? _hsegment)

theorem Quoting.scan?_of_last {quoting : Quoting} {cs segment : List Char}
    (h : quoting.segment? cs = some (segment, [])) : quoting.scan? cs = some [segment] := by
  rw [scan?]
  split <;> simp_all

theorem Quoting.scan?_of_point {quoting : Quoting} {cs segment rest : List Char}
    (h : quoting.segment? cs = some (segment, '.' :: rest)) :
    quoting.scan? cs = (quoting.scan? rest).map (segment :: ·) := by
  rw [scan?]
  split <;> simp_all

/-! ## Reading what was written -/

private theorem hex_two : ∀ n < 128, ∃ high low, hex 2 n = [high, low] ∧
    hexDigit? high = some (n / 16) ∧ hexDigit? low = some (n % 16) := by
  intro n hn
  have hpair : ∀ n < 128, (hex 2 n).length = 2 ∧
      (hex 2 n).map hexDigit? = [some (n / 16), some (n % 16)] := by decide +kernel
  obtain ⟨hlength, hdigits⟩ := hpair n hn
  obtain ⟨high, low, hhex⟩ := List.length_eq_two.1 hlength
  rw [hhex] at hdigits
  simp only [List.map_cons, List.map_nil, List.cons.injEq, and_true] at hdigits
  exact ⟨high, low, hhex, hdigits⟩

theorem escapeMeaning?_of_control {c : Char} (h : c.toNat < 128) (rest : List Char) :
    ∃ letters, controlEscape c = '\\' :: letters ∧
      escapeMeaning? (letters ++ rest) = some (c, rest) := by
  unfold controlEscape
  split_ifs with h1 h2 h3 h4 h5 h6 h7
  · exact ⟨['a'], rfl, h1 ▸ rfl⟩
  · exact ⟨['b'], rfl, h2 ▸ rfl⟩
  · exact ⟨['f'], rfl, h3 ▸ rfl⟩
  · exact ⟨['n'], rfl, h4 ▸ rfl⟩
  · exact ⟨['r'], rfl, h5 ▸ rfl⟩
  · exact ⟨['t'], rfl, h6 ▸ rfl⟩
  · exact ⟨['v'], rfl, h7 ▸ rfl⟩
  · obtain ⟨high, low, hhex, hhigh, hlow⟩ := hex_two c.toNat h
    refine ⟨'x' :: hex 2 c.toNat, rfl, ?_⟩
    rw [hhex, List.cons_append, List.cons_append, List.singleton_append]
    simp [escapeMeaning?, hhigh, hlow, Nat.div_add_mod]

theorem Quoting.next?_inner (quoting : Quoting) (c : Char) (rest : List Char) :
    quoting.next? (quoting.inner c ++ rest) = some (.character c rest) := by
  cases quoting with
  | doubled opening closing =>
    by_cases hc : c = closing <;> simp [inner, next?, isTwin, Quoting.closing, hc]
  | doubledWithBackslash =>
    by_cases hc : c = '"' ∨ c = '\\'
    · rcases hc with rfl | rfl <;> simp [inner, next?, isTwin]
    · rw [not_or] at hc
      simp [inner, next?, isTwin, Quoting.closing, hc]
  | backslashed =>
    by_cases hc : c = '\x60' ∨ c = '\\'
    · rcases hc with rfl | rfl <;> simp [inner, next?, escapeMeaning?]
    · by_cases hcontrol : c.toNat < 0x20 ∨ c.toNat = 0x7F
      · obtain ⟨letters, hletters, hmeaning⟩ :=
          escapeMeaning?_of_control (c := c) (by omega) rest
        rw [inner, if_neg hc, if_pos hcontrol, hletters]
        simp [next?, hmeaning]
      · rw [not_or] at hc
        simp [inner, next?, isTwin, Quoting.closing, hc, hcontrol]

theorem Quoting.next?_closing (quoting : Quoting) {rest : List Char}
    (h : rest.head? ≠ some quoting.closing) :
    quoting.next? (quoting.closing :: rest) = some (.closing rest) := by
  have hmark : ¬ (quoting = backslashed ∧ quoting.closing = '\\') := by
    rintro ⟨rfl, hclosing⟩
    exact absurd hclosing (by decide)
  rw [next?, if_neg hmark, if_neg fun htwin => h htwin.2, if_pos rfl]

/-- A segment ends at its own closing mark, whatever follows but that mark. -/
theorem Quoting.body?_flatMap_inner (quoting : Quoting) (segment : List Char) {rest : List Char}
    (h : rest.head? ≠ some quoting.closing) :
    quoting.body? (segment.flatMap quoting.inner ++ quoting.closing :: rest) =
      some (segment, rest) := by
  induction segment with
  | nil => exact body?_of_closing (quoting.next?_closing h)
  | cons c segment ih =>
    rw [List.flatMap_cons, List.append_assoc, body?_of_character (quoting.next?_inner c _), ih]
    rfl

/-- Whether the marks of a quoting are told from a star and from a point. -/
structure Quoting.Legible (quoting : Quoting) : Prop where
  opening : quoting.opening ≠ '*'
  closing : quoting.closing ≠ '.'

theorem Quoting.segment?_quote {quoting : Quoting} (hlegible : quoting.Legible)
    (segment : List Char) {rest : List Char} (h : rest.head? ≠ some quoting.closing) :
    quoting.segment? (quoting.quote segment ++ rest) = some (segment, rest) := by
  rw [quote, List.cons_append, List.cons_append, segment?, if_neg hlegible.opening, if_pos rfl,
    List.append_assoc, List.singleton_append]
  exact quoting.body?_flatMap_inner segment h

def writeSegment (quote : List Char → List Char) (segment : List Char) : List Char :=
  if segment = ['*'] then segment else quote segment

theorem writeWith_eq (quote : List Char → List Char) (name : List Char) :
    writeWith quote name = ['.'].intercalate ((segments name).map (writeSegment quote)) := rfl

theorem Quoting.segment?_writeSegment {quoting : Quoting} (hlegible : quoting.Legible)
    (segment : List Char) {rest : List Char} (h : rest.head? ≠ some quoting.closing) :
    quoting.segment? (writeSegment quoting.quote segment ++ rest) = some (segment, rest) := by
  unfold writeSegment
  split
  · next hstar =>
    rw [hstar]
    rfl
  · exact segment?_quote hlegible segment h

theorem Quoting.scan?_intercalate {quoting : Quoting} (hlegible : quoting.Legible)
    (segment : List Char) (rest : List (List Char)) :
    quoting.scan? (['.'].intercalate ((segment :: rest).map (writeSegment quoting.quote))) =
      some (segment :: rest) := by
  induction rest generalizing segment with
  | nil =>
    rw [List.map_singleton, List.intercalate_singleton]
    have hend : ([] : List Char).head? ≠ some quoting.closing := by simp
    apply scan?_of_last
    simpa using segment?_writeSegment hlegible segment hend
  | cons next rest ih =>
    have hpoint : ∀ behind, ('.' :: behind : List Char).head? ≠ some quoting.closing :=
      fun _ hmark => hlegible.closing (Option.some.inj hmark).symm
    rw [List.map_cons, List.map_cons, List.intercalate_cons_cons, List.append_assoc,
      List.singleton_append, scan?_of_point (segment?_writeSegment hlegible segment (hpoint _)),
      ← List.map_cons, ih]
    rfl

theorem Quoting.scan?_write {quoting : Quoting} (hlegible : quoting.Legible) (name : String) :
    quoting.scan? (quoting.write name).toList = some (segments name.toList) := by
  obtain ⟨segment, rest, hsegments⟩ :=
    List.exists_cons_of_ne_nil (List.splitOn_ne_nil '.' name.toList)
  have hsegments : segments name.toList = segment :: rest := hsegments
  rw [write, String.toList_ofList, writeWith_eq, hsegments]
  exact scan?_intercalate hlegible segment rest

/-! ## Names -/

theorem segments_append (a b : String) :
    segments (a ++ "." ++ b).toList = segments a.toList ++ segments b.toList := by
  rw [String.toList_append, String.toList_append, List.append_assoc]
  exact List.splitOn_append_cons_self a.toList b.toList

theorem segments_injective : Function.Injective fun name : String => segments name.toList := by
  intro a b h
  have hjoined := congrArg (['.'].intercalate ·) h
  simp only [segments, List.intercalate_splitOn] at hjoined
  exact String.toList_inj.1 hjoined

theorem writeWith_append (quote : List Char → List Char) (a b : String) :
    writeWith quote (a ++ "." ++ b).toList =
      writeWith quote a.toList ++ '.' :: writeWith quote b.toList := by
  have hsegments : ∀ name : List Char, (segments name).map (writeSegment quote) ≠ [] := by
    intro name
    rw [Ne, List.map_eq_nil_iff]
    exact List.splitOn_ne_nil '.' name
  rw [writeWith_eq, segments_append, List.map_append,
    intercalate_append ['.'] (hsegments a.toList) (hsegments b.toList)]
  rfl

theorem Quoting.write_append (quoting : Quoting) (a b : String) :
    quoting.write (a ++ "." ++ b) = quoting.write a ++ "." ++ quoting.write b := by
  rw [write, writeWith_append, ← String.toList_inj, String.toList_append, String.toList_append]
  simp [write]

theorem Quoting.write_injective {quoting : Quoting} (hlegible : quoting.Legible) :
    Function.Injective quoting.write := by
  intro a b h
  apply segments_injective
  have hscan := scan?_write hlegible a
  rw [h, scan?_write hlegible b] at hscan
  exact (Option.some.inj hscan).symm

/-! ## Dialects -/

def quotings : List Quoting :=
  [.double, .backtick, .doubled '[' ']', .doubled '\'' '\'', .doubledWithBackslash, .backslashed]

theorem mem_quotings_of_quotingOf? {name : String} {quoting : Quoting}
    (h : quotingOf? name = some quoting) : quoting ∈ quotings := by
  unfold quotingOf? at h
  split_ifs at h <;> cases h <;> decide

theorem mem_quotings_of_quotingOfText {s : String} {quoting : Quoting}
    (h : quotingOfText s = .ok quoting) : quoting ∈ quotings := by
  simp only [quotingOfText] at h
  split at h
  · next found hfound =>
    obtain ⟨_, _, rfl⟩ := Outcome.map_eq_ok.1 h
    exact mem_quotings_of_quotingOf? hfound
  · cases h

private theorem legible_of_mem {quoting : Quoting} (h : quoting ∈ quotings) : quoting.Legible := by
  have hmarks : ∀ quoting ∈ quotings, quoting.opening ≠ '*' ∧ quoting.closing ≠ '.' := by decide
  obtain ⟨hopening, hclosing⟩ := hmarks quoting h
  exact ⟨hopening, hclosing⟩

end SqlFragments.Identifier

namespace SqlFragments.IdentifierEscaper

open Identifier

variable {env : Environment} {dialect : Value} {quoting : Quoting}

theorem mem_quotings_of_dialectQuoting (h : (dialectQuoting env dialect).answer = .ok quoting) :
    quoting ∈ quotings := by
  unfold dialectQuoting at h
  split at h
  · split at h
    · rw [Outcome.answer_ofExcept] at h
      exact mem_quotings_of_quotingOfText h
    · obtain ⟨_, _, h⟩ := Outcome.answer_bind_eq_ok.1 h
      cases h
  · cases h
    decide

theorem legible_of_dialectQuoting (h : (dialectQuoting env dialect).answer = .ok quoting) :
    quoting.Legible :=
  legible_of_mem (mem_quotings_of_dialectQuoting h)

/-- Whether a quoter quotes every segment in one way for a dialect. -/
def Quoter.Follows (quoter : Quoter) (env : Environment) (dialect : Value) (quoting : Quoting) :
    Prop :=
  ∀ segment, (quoter env dialect segment).answer = .ok (quoting.quote segment)

theorem follows_dialectQuoter (h : (dialectQuoting env dialect).answer = .ok quoting) :
    dialectQuoter.Follows env dialect quoting :=
  fun _ => Outcome.answer_bind_eq_ok.2 ⟨quoting, h, rfl⟩

/-- Where every segment is quoted in one way, every name is written in that way. -/
theorem answer_ofQuoter {quoter : Quoter} (h : quoter.Follows env dialect quoting) (label : Label)
    (name : String) :
    ((ofQuoter quoter label dialect).write env (.text name)).answer =
      .ok (.text (quoting.write name)) := by
  have hsegments : List.Forall₂ (fun segment written => (if segment = ['*'] then pure segment
        else quoter env dialect segment : Outcome (List Char)).answer = .ok written)
      (segments name.toList) ((segments name.toList).map (writeSegment quoting.quote)) := by
    rw [List.forall₂_map_right_iff, List.forall₂_same]
    intro segment _
    unfold writeSegment
    split
    · rfl
    · exact h segment
  refine Outcome.answer_bind_eq_ok.2 ⟨quoting.write name, ?_, rfl⟩
  exact Outcome.answer_bind_eq_ok.2 ⟨name, rfl,
    Outcome.answer_bind_eq_ok.2 ⟨_, Outcome.answer_mapM_eq_ok.2 hsegments, rfl⟩⟩

def dialectNames : List String :=
  "" :: doubleQuoteDialects ++ backtickDialects ++ bracketDialects ++
    ["dax", "clickhouse", "bigquery"]

private theorem quotingOfText_of_mem : ∀ name ∈ dialectNames,
    (quotingOf? name).isSome = true ∧ (quotingOfText name).toOption = quotingOf? name := by
  decide +kernel

theorem dialectQuoting_of_mem (env : Environment) {name : String} (h : name ∈ dialectNames) :
    ∃ quoting, quotingOf? name = some quoting ∧
      (dialectQuoting env (.text name)).answer = .ok quoting := by
  obtain ⟨hsome, htext⟩ := quotingOfText_of_mem name h
  obtain ⟨quoting, hquoting⟩ := Option.isSome_iff_exists.1 hsome
  refine ⟨quoting, hquoting, ?_⟩
  unfold dialectQuoting
  split
  · rw [hquoting] at htext
    show quotingOfText name = .ok quoting
    cases hanswer : quotingOfText name with
    | error cause => simp [hanswer, Except.toOption] at htext
    | ok found => simpa [hanswer, Except.toOption] using htext
  · next hempty =>
    obtain rfl : name = "" := by simpa [Value.isTruthy] using hempty
    exact congrArg Except.ok (Option.some.inj hquoting)

/-- Names that are written in a dialect read back as the segments that went in, whatever quotes the
segments, if it quotes them in the way of the dialect. A quoted segment is read up to its own
closing mark, whatever it holds and whatever follows but that mark. So no two names are written
alike, and a point between names stays a point. The quoter that knows the dialects by their names
quotes in their ways. -/
theorem ofQuoter_reads_back (quoter : Quoter) (env : Environment) (label : Label) :
    (∀ name ∈ dialectNames, ∃ quoting, quotingOf? name = some quoting ∧
      (dialectQuoting env (.text name)).answer = .ok quoting) ∧
    (∀ dialect quoting, (dialectQuoting env dialect).answer = .ok quoting →
      quoting.Legible ∧ dialectQuoter.Follows env dialect quoting) ∧
    ∀ dialect quoting, quoting.Legible → quoter.Follows env dialect quoting →
      (∀ name : String, ∃ written : String,
        ((ofQuoter quoter label dialect).write env (.text name)).answer = .ok (.text written) ∧
        quoting.scan? written.toList = some (segments name.toList)) ∧
      (∀ segment rest, rest.head? ≠ some quoting.closing →
        quoting.segment? (quoting.quote segment ++ rest) = some (segment, rest)) ∧
      (∀ a b : String,
        ((ofQuoter quoter label dialect).write env (.text a)).answer =
          ((ofQuoter quoter label dialect).write env (.text b)).answer → a = b) ∧
      ∀ a b : String, ∃ front back : String,
        ((ofQuoter quoter label dialect).write env (.text a)).answer = .ok (.text front) ∧
        ((ofQuoter quoter label dialect).write env (.text b)).answer = .ok (.text back) ∧
        ((ofQuoter quoter label dialect).write env (.text (a ++ "." ++ b))).answer =
          .ok (.text (front ++ "." ++ back)) := by
  refine ⟨fun name => dialectQuoting_of_mem env, fun dialect quoting h =>
    ⟨legible_of_dialectQuoting h, follows_dialectQuoter h⟩,
    fun dialect quoting hlegible hfollows => ?_⟩
  have hwrite := answer_ofQuoter hfollows label
  refine ⟨fun name => ?_, fun segment rest => Quoting.segment?_quote hlegible segment,
    fun a b hab => ?_, fun a b => ?_⟩
  · exact ⟨quoting.write name, hwrite name, Quoting.scan?_write hlegible name⟩
  · rw [hwrite, hwrite, Except.ok.injEq, Value.text.injEq] at hab
    exact Quoting.write_injective hlegible hab
  · refine ⟨quoting.write a, quoting.write b, hwrite a, hwrite b, ?_⟩
    rw [hwrite, Quoting.write_append]

/-- A name with a backtick, a backslash and a line end, whose second segment is empty. -/
theorem ofQuoter_reads_back_bigquery :
    Quoting.backslashed.Legible ∧
    dialectQuoter.Follows {} (.text "bigquery") .backslashed ∧
    ∃ written : String,
      ((ofQuoter dialectQuoter 0 (.text "bigquery")).write {} (.text "a\x60\\\n..*")).answer =
        .ok (.text written) ∧
      Quoting.backslashed.scan? written.toList = some [['a', '\x60', '\\', '\n'], [], ['*']] := by
  have h : (dialectQuoting {} (.text "bigquery")).answer = .ok .backslashed := by cbv
  have hreads := ofQuoter_reads_back dialectQuoter {} 0
  obtain ⟨hlegible, hfollows⟩ := hreads.2.1 _ _ h
  refine ⟨hlegible, hfollows, ?_⟩
  obtain ⟨written, hwritten, hscan⟩ := (hreads.2.2 _ _ hlegible hfollows).1 "a\x60\\\n..*"
  exact ⟨written, hwritten, hscan.trans (by cbv)⟩

end SqlFragments.IdentifierEscaper
