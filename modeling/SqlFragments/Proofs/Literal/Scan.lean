import SqlFragments.Literal.Basic
import SqlFragments.Proofs.Text.Placeholder

/-!
# Literals read back

A reader of a statement knows a literal by its apostrophes: one opens it, a backslash in it takes
the next character along, and the next apostrophe closes it. Whatever text a literal was written
for, it ends where it was meant to end and reads back as that text.
-/

namespace SqlFragments.Literal

open Text

/-! ## Texts between apostrophes -/

def escapeTable : List (Char × Char) :=
  [('\x00', '0'), ('\x08', 'b'), ('\t', 't'), ('\n', 'n'), ('\r', 'r'), ('\x1a', 'Z'),
    ('"', '"'), ('\'', '\''), ('\\', '\\')]

def replacement (c : Char) : List Char :=
  match escapeTable.lookup c with
  | some letter => ['\\', letter]
  | none => [c]

def letterMeaning? : Char → Option Char
  | '0' => some '\x00'
  | 'b' => some '\x08'
  | 't' => some '\t'
  | 'n' => some '\n'
  | 'r' => some '\r'
  | 'Z' => some '\x1a'
  | '"' => some '"'
  | '\'' => some '\''
  | '\\' => some '\\'
  | _ => none

/-- The text that characters between apostrophes stand for, if every backslash is in front of a
letter with a meaning. -/
def decode? : List Char → Option (List Char)
  | [] => some []
  | '\\' :: letter :: rest => do
    let c ← letterMeaning? letter
    let cs ← decode? rest
    return c :: cs
  | ['\\'] => none
  | c :: rest => (decode? rest).map (c :: ·)

private theorem escapeLetter?_of_mem :
    ∀ entry ∈ escapeTable, escapeLetter? entry.1 = some entry.2 := by
  decide

theorem escapeLetter?_eq_some_iff {c letter : Char} :
    escapeLetter? c = some letter ↔ (c, letter) ∈ escapeTable := by
  constructor
  · intro h
    unfold escapeLetter? at h
    split at h <;> cases h <;> decide
  · exact escapeLetter?_of_mem (c, letter)

private theorem escapeLetter?_eq_lookup (c : Char) : escapeLetter? c = escapeTable.lookup c := by
  cases hletter : escapeLetter? c with
  | some letter =>
    unfold escapeLetter? at hletter
    split at hletter <;> cases hletter <;> rfl
  | none =>
    symm
    rw [List.lookup_eq_none_iff]
    intro entry hentry
    have hne : c ≠ entry.1 := by
      rintro rfl
      rw [escapeLetter?_of_mem entry hentry] at hletter
      cases hletter
    simpa using hne

theorem escaped_eq_flatMap (cs : List Char) : escaped cs = cs.flatMap replacement := by
  induction cs with
  | nil => rfl
  | cons c cs ih =>
    rw [escaped, List.flatMap_cons, ← ih, replacement, ← escapeLetter?_eq_lookup]
    cases escapeLetter? c <;> rfl

theorem letterMeaning?_eq_some_iff {c letter : Char} :
    letterMeaning? letter = some c ↔ escapeLetter? c = some letter := by
  constructor
  · intro h
    unfold letterMeaning? at h
    split at h <;> cases h <;> rfl
  · intro h
    unfold escapeLetter? at h
    split at h <;> cases h <;> rfl

private theorem ne_of_escapeLetter?_eq_none {c : Char} (h : escapeLetter? c = none) :
    c ≠ '\'' ∧ c ≠ '\\' := by
  constructor <;> rintro rfl <;> cases h

theorem decode?_escaped (cs : List Char) : decode? (escaped cs) = some cs := by
  induction cs with
  | nil => rfl
  | cons c cs ih =>
    rw [escaped]
    cases hletter : escapeLetter? c with
    | some letter => simp [decode?, letterMeaning?_eq_some_iff.2 hletter, ih]
    | none =>
      have hplain := ne_of_escapeLetter?_eq_none hletter
      simp [decode?, hplain.2, ih]

theorem mapM_decode? (texts : List String) :
    (texts.map fun s => escaped s.toList).mapM decode? = some (texts.map String.toList) := by
  induction texts with
  | nil => rfl
  | cons s texts ih => simp [List.mapM_cons, decode?_escaped, ih]

/-! ## Literals in a text -/

/-- The characters up to the apostrophe that closes a literal, and what stands behind it. -/
def body? : List Char → Option (List Char × List Char)
  | [] => none
  | '\'' :: rest => some ([], rest)
  | '\\' :: c :: rest => (body? rest).map fun (body, behind) => ('\\' :: c :: body, behind)
  | c :: rest => (body? rest).map fun (body, behind) => (c :: body, behind)

theorem suffix_of_body? {cs body behind : List Char} (h : body? cs = some (body, behind)) :
    '\'' :: behind <:+ cs := by
  induction cs using body?.induct generalizing body with
  | case1 => cases h
  | case2 rest =>
    cases h
    exact List.suffix_rfl
  | case3 c rest ih =>
    obtain ⟨⟨body, behind⟩, hbody, heq⟩ := Option.map_eq_some_iff.1 h
    cases heq
    exact (ih hbody).trans ((List.suffix_cons c rest).trans (List.suffix_cons _ _))
  | case4 c rest hclose hescape ih =>
    rw [body?] at h
    · obtain ⟨⟨body, behind⟩, hbody, heq⟩ := Option.map_eq_some_iff.1 h
      cases heq
      exact (ih hbody).trans (List.suffix_cons c rest)
    · exact hclose
    · exact hescape

/-- A written text ends at its own closing apostrophe, whatever follows. -/
theorem body?_escaped (cs behind : List Char) :
    body? (escaped cs ++ '\'' :: behind) = some (escaped cs, behind) := by
  induction cs with
  | nil => rfl
  | cons c cs ih =>
    rw [escaped]
    cases hletter : escapeLetter? c with
    | some letter => simp [body?, ih]
    | none =>
      have hplain := ne_of_escapeLetter?_eq_none hletter
      simp [body?, hplain.1, hplain.2, ih]

def leading? : List Char → Option (List Char × List Char)
  | '\'' :: rest => body? rest
  | _ => none

theorem leading?_quote_append (s : String) (behind : List Char) :
    leading? ((quote s).toList ++ behind) = some (escaped s.toList, behind) := by
  rw [toList_quote, List.cons_append, List.cons_append, List.append_assoc, leading?]
  exact body?_escaped s.toList behind

theorem quote_injective : Function.Injective quote := by
  intro s s' h
  have hs := leading?_quote_append s []
  rw [h, leading?_quote_append, Option.some.injEq, Prod.mk.injEq] at hs
  have hdecoded : some s'.toList = some s.toList := by
    rw [← decode?_escaped, ← decode?_escaped, hs.1]
  exact String.toList_inj.1 (Option.some.inj hdecoded).symm

/-- A literal is the text with each of nine characters replaced, also where there is nothing to
replace and the text is taken over as it is. Whatever follows it, a reader takes it up to its own
closing apostrophe, and what stands between the apostrophes means the text, by the letters of the
nine. So no two texts have one literal. -/
theorem quote_reads_back :
    (∀ c letter, letterMeaning? letter = some c ↔ (c, letter) ∈ escapeTable) ∧
    (∀ s : String, quote s = String.ofList ('\'' :: s.toList.flatMap replacement ++ ['\''])) ∧
    (∀ (s : String) (behind : List Char), ∃ body,
      (quote s).toList = '\'' :: body ++ ['\''] ∧
      leading? ((quote s).toList ++ behind) = some (body, behind) ∧
      decode? body = some s.toList) ∧
    Function.Injective quote := by
  refine ⟨?_, ?_, ?_, quote_injective⟩
  · intro c letter
    rw [letterMeaning?_eq_some_iff, escapeLetter?_eq_some_iff]
  · intro s
    rw [← escaped_eq_flatMap, ← toList_quote, String.ofList_toList]
  · intro s behind
    exact ⟨escaped s.toList, toList_quote s, leading?_quote_append s behind, decode?_escaped _⟩

example : leading? "'it\\'s' OR 'x'".toList = some ("it\\'s".toList, " OR 'x'".toList) := by decide

/-- What a reader finds in a text: the characters outside of literals, and what stands between the
apostrophes of each literal. -/
structure Scan where
  outside : List Char := []
  bodies : List (List Char) := []

/-- Reads a text from left to right; one that ends in a literal cannot be read. -/
def scan? (cs : List Char) : Option Scan :=
  match cs with
  | [] => some {}
  | c :: rest =>
    if c = '\'' then
      match _hbody : body? rest with
      | some (body, behind) => (scan? behind).map fun s => { s with bodies := body :: s.bodies }
      | none => none
    else (scan? rest).map fun s => { s with outside := c :: s.outside }
termination_by cs.length
decreasing_by
  · have := (suffix_of_body? _hbody).length_le
    simp only [List.length_cons] at this ⊢
    omega
  · simp

theorem scan?_cons_of_ne {c : Char} (h : c ≠ '\'') (rest : List Char) :
    scan? (c :: rest) = (scan? rest).map fun s => { s with outside := c :: s.outside } := by
  rw [scan?, if_neg h]

theorem scan?_quote_append (s : String) (behind : List Char) :
    scan? ((quote s).toList ++ behind) =
      (scan? behind).map fun found => { found with bodies := escaped s.toList :: found.bodies } := by
  rw [toList_quote, List.cons_append, List.cons_append, List.append_assoc, scan?, if_pos rfl]
  split
  · next body rest h =>
    rw [List.singleton_append, body?_escaped, Option.some.injEq, Prod.mk.injEq] at h
    rw [h.1, h.2]
  · next h =>
    rw [List.singleton_append, body?_escaped] at h
    cases h

/-- A text without apostrophes whose marks were filled in with literals is read as the text without
its marks and as these literals. -/
theorem scan?_of_filled {cs filled : List Char} {texts : List String}
    (h : Filled cs (texts.map fun s => (quote s).toList) filled) (hcs : '\'' ∉ cs) :
    scan? filled = some ⟨cs.filter (· != '?'), texts.map fun s => escaped s.toList⟩ := by
  generalize hliterals : texts.map (fun s => (quote s).toList) = literals at h
  induction h generalizing texts with
  | nil =>
    rw [List.map_eq_nil_iff.1 hliterals, scan?]
    rfl
  | @keep cs filled literals c hc rest ih =>
    rw [List.mem_cons, not_or] at hcs
    rw [scan?_cons_of_ne (Ne.symm hcs.1), ih hcs.2 hliterals]
    simp [hc]
  | @put cs filled literals literal rest ih =>
    rw [List.mem_cons, not_or] at hcs
    obtain ⟨s, texts, rfl, rfl, hrest⟩ := List.map_eq_cons_iff.1 hliterals
    rw [scan?_quote_append, ih hcs.2 hrest]
    rfl

end SqlFragments.Literal
