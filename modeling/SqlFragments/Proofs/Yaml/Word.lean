import SqlFragments.Yaml.Document

/-!
# Words in documents

A word that holds no gaps, quotes or backslashes is taken over as it is, whether it is written
plainly or between quotes.
-/

namespace SqlFragments.Yaml

def isInner (c : Char) : Bool :=
  !isSeparator (some c) && !"\uFEFF'\"\\".toList.contains c

structure IsWord (word : List Char) : Prop where
  inner : ∀ c ∈ word, isInner c = true
  nonempty : word ≠ []
  first : word.head? ≠ some '#'
  last : word.getLast? ≠ some ':'

private theorem ne_of_isInner {c : Char} (h : isInner c = true) :
    isSeparator (some c) = false ∧ isBreak c = false ∧ c ≠ '\uFEFF' ∧ c ≠ '\'' ∧ c ≠ '"' ∧
      c ≠ '\\' := by
  simp only [isInner, isSeparator, Bool.and_eq_true, Bool.not_eq_true', Bool.or_eq_false_iff] at h ⊢
  refine ⟨h.1, h.1.2, ?_⟩
  refine ⟨?_, ?_, ?_, ?_⟩ <;> rintro rfl <;> exact absurd h.2 (by decide)

theorem IsWord.isSeparator_eq_false {word : List Char} (h : IsWord word) {c : Char}
    (hc : c ∈ word) : isSeparator (some c) = false :=
  (ne_of_isInner (h.inner c hc)).1

theorem next_of_isInner {c : Char} (h : isInner c = true) (rest : List Char)
    (index line column : Nat) :
    Cursor.next ⟨c :: rest, index, line, column⟩ = ⟨rest, index + 1, line, column + 1⟩ := by
  obtain ⟨-, hbreak, hmark, -⟩ := ne_of_isInner h
  simp [Cursor.next, hbreak, hmark]

theorem skip_of_isInner {word : List Char} (h : ∀ c ∈ word, isInner c = true) (rest : List Char)
    (index line column : Nat) :
    Cursor.skip ⟨word ++ rest, index, line, column⟩ word.length =
      ⟨rest, index + word.length, line, column + word.length⟩ := by
  induction word generalizing index column with
  | nil => rfl
  | cons c word ih =>
    rw [List.forall_mem_cons] at h
    rw [List.cons_append, List.length_cons, Cursor.skip, next_of_isInner h.1, ih h.2,
      Nat.add_right_comm, Nat.add_right_comm column, Nat.add_assoc, Nat.add_assoc column]

theorem wordLength_word {word : List Char} (h : ∀ c ∈ word, isInner c = true)
    (hlast : word.getLast? ≠ some ':') (rest : List Char) :
    wordLength false (word ++ '\n' :: rest) = word.length := by
  induction word with
  | nil => rfl
  | cons c word ih =>
    rw [List.forall_mem_cons] at h
    obtain ⟨hseparator, -⟩ := ne_of_isInner h.1
    have hcolon : (c == ':' && isSeparator (word ++ '\n' :: rest).head?) = false := by
      cases word with
      | nil =>
        have hcolon : c ≠ ':' := fun hc => hlast (congrArg some hc)
        rw [beq_false_of_ne hcolon, Bool.false_and]
      | cons d word =>
        have hnext := (ne_of_isInner (h.2 d List.mem_cons_self)).1
        rw [List.cons_append, List.head?_cons, hnext, Bool.and_false]
    have hlast' : word.getLast? ≠ some ':' := by
      cases word with
      | nil => simp
      | cons d word => rwa [List.getLast?_cons_cons] at hlast
    rw [List.cons_append, wordLength, List.length_cons, ← ih h.2 hlast']
    simp only [hseparator, hcolon, Bool.false_and, Bool.or_false, Bool.false_eq_true, if_false]

/-- A word that is the last one of a document is a plain scalar, if its line goes on from a line
that is indented. -/
theorem scanPlain_word {word : List Char} (h : IsWord word) {indent : Int} (hindent : 0 < indent)
    (fuel index line column : Nat) :
    scanPlain false indent (fuel + 1) ⟨word ++ ['\n'], index, line, column⟩ [] [] false =
      (word, true, ⟨[], index + word.length + 1, line + 1, 0⟩) := by
  have hfirst : Cursor.peek? ⟨word ++ ['\n'], index, line, column⟩ 0 ≠ some '#' := by
    rw [Cursor.peek?, List.drop_zero, List.head?_append, Option.or_of_isSome]
    · exact h.first
    · rw [List.isSome_head?]
      exact h.nonempty
  have hspaces (index line column : Nat) : plainSpaces fuel ⟨['\n'], index, line, column⟩ =
      ([' '], true, ⟨[], index + 1, line + 1, 0⟩) := by
    cases fuel <;> rfl
  have hlength : word.length ≠ 0 := fun hzero => h.nonempty (List.length_eq_zero_iff.1 hzero)
  rw [scanPlain, if_neg hfirst]
  simp only [wordLength_word h.inner h.last, skip_of_isInner h.inner, hspaces, if_neg hlength]
  simp [hindent]

theorem scanQuoted_word {word : List Char} (h : ∀ c ∈ word, isInner c = true) {mark : Char}
    (hmark : mark = '\'' ∨ mark = '"') (rest text : List Char) (fuel index line column : Nat) :
    scanQuoted mark (fuel + word.length + 1) ⟨word ++ mark :: '\n' :: rest, index, line, column⟩
        text =
      .ok (text.reverse ++ word,
        ⟨'\n' :: rest, index + word.length + 1, line, column + word.length + 1⟩) := by
  induction word generalizing text index column with
  | nil => rcases hmark with rfl | rfl <;> simp [scanQuoted, Cursor.next, isBreak]
  | cons c word ih =>
    rw [List.forall_mem_cons] at h
    obtain ⟨hseparator, -, -, hsingle, hdouble, hbackslash⟩ := ne_of_isInner h.1
    have hopen : c ≠ mark := by
      rintro rfl
      rcases hmark with hmark | hmark
      · exact hsingle hmark
      · exact hdouble hmark
    rw [List.length_cons, List.cons_append, ← Nat.add_assoc, scanQuoted]
    simp only [hsingle, hopen, hbackslash, hseparator, false_and, if_false, next_of_isInner h.1]
    rw [ih h.2]
    simp [Nat.add_comm, Nat.add_left_comm]

theorem withLineFeeds_eq_self {cs : List Char} (h : '\r' ∉ cs) : withLineFeeds cs = cs := by
  fun_induction withLineFeeds cs with
  | case1 rest ih => simp at h
  | case2 rest hnext ih => simp at h
  | case3 c rest hpair hreturn ih =>
    rw [List.mem_cons, not_or] at h
    rw [ih h.2]
  | case4 => rfl

/-! ## Scalars among tokens -/

namespace Lexer

variable {s s' : Lexer}

theorem plainScalar_of_scan (hkey : s.keyAllowed = false) {text : List Char} {ended : Bool}
    {c : Cursor} (hscan : scanPlain (s.flowDepth != 0) (s.indent + 1) s.bound s.cursor [] [] false =
      (text, ended, c)) :
    s.plainScalar =
      .ok ({ s.allowKey ended with cursor := c }.push (.scalar (String.ofList text) true)) := by
  rw [plainScalar, noteCandidate, if_neg (by simp [hkey])]
  simp only [bind, Except.bind, hscan]
  rfl

theorem quotedScalar_of_scan (hkey : s.keyAllowed = false) {mark : Char} {text : List Char}
    {c : Cursor} (hscan : scanQuoted mark s.bound s.cursor.next [] = .ok (text, c)) :
    s.quotedScalar mark =
      .ok ({ s.allowKey false with cursor := c }.push (.scalar (String.ofList text) false)) := by
  rw [quotedScalar, noteCandidate, if_neg (by simp [hkey])]
  simp only [bind, Except.bind, hscan]
  rfl

section

variable {c : Char} {rest : List Char} (hnext : toNextToken s.bound s = s')
  (hcandidates : s'.candidates = []) (hclose : s'.closeBlocks s'.cursor.column = s')
  (hrest : s'.cursor.rest = c :: rest) (hcolumn : s'.cursor.column ≠ 0)

include hcandidates

private theorem dropStale_of_nil : s'.dropStale = .ok s' := by
  rw [dropStale, hcandidates]
  cases s'
  cases hcandidates
  rfl

include hnext hclose hrest hcolumn

theorem step_of_sign (hsign : c = '+' ∨ c = '-') (hinner : isSeparator rest.head? = false) :
    s.step = s'.plainScalar.map (·, false) := by
  have hstarts : startsPlain (s'.flowDepth != 0) c rest.head? = true := by
    rcases hsign with rfl | rfl
    · have hmark : indicators.contains '+' = false := by decide
      rw [startsPlain, hmark]
      rfl
    · rw [startsPlain, hinner]
      exact Bool.or_true _
  rw [step, hnext, dropStale_of_nil hcandidates]
  rcases hsign with rfl | rfl <;>
    simp [bind, Except.bind, hclose, hrest, hcolumn, hstarts, hinner]

theorem step_of_quote (hquote : c = '\'' ∨ c = '"') :
    s.step = (s'.quotedScalar c).map (·, false) := by
  rw [step, hnext, dropStale_of_nil hcandidates]
  rcases hquote with rfl | rfl <;> simp [bind, Except.bind, hclose, hrest, hcolumn]

end

end Lexer

end SqlFragments.Yaml
