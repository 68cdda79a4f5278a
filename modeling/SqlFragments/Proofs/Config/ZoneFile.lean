import Mathlib
import SqlFragments.Proofs.Config.Document
import SqlFragments.Proofs.Yaml.Resolution
import SqlFragments.Proofs.Yaml.Word

/-!
# Configurations in files

A file of two lines that sets just the time zone. Every offset can be written in it, plainly or in
quotes, and every such file is read.
-/

namespace SqlFragments

open Calendar Text Yaml

/-- How a scalar is written in a document: plainly, or between two marks. -/
inductive Quoting
  | plain
  | between (mark : Char) (hmark : mark = '\'' ∨ mark = '"')

namespace Quoting

def isPlain : Quoting → Bool
  | plain => true
  | between _ _ => false

def write (text : List Char) : Quoting → List Char
  | plain => text
  | between mark _ => mark :: text ++ [mark]

end Quoting

def Config.zoneLines (written : List Char) : List Char :=
  "render:\n  timezone: ".toList ++ (written ++ ['\n'])

theorem Config.zoneLines_eq (written : List Char) :
    zoneLines written = "render:\n  timezone: ".toList ++ (written ++ ['\n']) := rfl

def Config.zoneFile (quoting : Quoting) (timezone : String) : String :=
  String.ofList (zoneLines (quoting.write timezone.toList))

/-! ## Tokens of files -/

namespace Yaml

private def zonePath : List Token :=
  [.blockMappingStart, .key, .scalar "render" true, .value, .blockMappingStart, .key,
    .scalar "timezone" true, .value]

private def atZone (rest : List Char) (index column bound : Nat) : Lexer where
  cursor := ⟨rest, index, 1, column⟩
  bound := bound
  tokens := zonePath.toArray
  keyAllowed := false
  indents := [2, 0, -1]

private def behindZone (s : String) (plain : Bool) (cursor : Cursor) (bound : Nat) : Lexer where
  cursor := cursor
  bound := bound
  tokens := (zonePath ++ [Token.scalar s plain]).toArray
  keyAllowed := plain
  indents := [2, 0, -1]

private theorem run_zonePath (rest : List Char) (bound fuel : Nat) :
    Lexer.run (fuel + 4)
        { cursor := { rest := "render:\n  timezone: ".toList ++ rest }, bound := bound + 20 } =
      Lexer.run fuel (atZone (' ' :: rest) 19 11 (bound + 20)) := by
  cbv

private theorem length_zoneLines (written : List Char) :
    (Config.zoneLines written).length = written.length + 21 := by
  have hkeys : "render:\n  timezone: ".toList.length = 20 := rfl
  rw [Config.zoneLines_eq, List.length_append, List.length_append, hkeys, List.length_singleton]
  omega

private theorem tokensOf_zoneLines (written : List Char) :
    tokensOf (Config.zoneLines written) = Lexer.run (2 * written.length + 40)
      (atZone (' ' :: (written ++ ['\n'])) 19 11 (written.length + 2 + 20)) := by
  have htokens (rest : List Char) : tokensOf ("render:\n  timezone: ".toList ++ rest) =
    Lexer.run (2 * ("render:\n  timezone: ".toList ++ rest).length + 2)
      { cursor := { rest := "render:\n  timezone: ".toList ++ rest },
        bound := ("render:\n  timezone: ".toList ++ rest).length + 1 } := rfl
  have hlength := length_zoneLines written
  have hfuel : 2 * (written.length + 21) + 2 = 2 * written.length + 40 + 4 := by omega
  have hbound : written.length + 21 + 1 = written.length + 2 + 20 := by omega
  rw [Config.zoneLines_eq] at hlength ⊢
  rw [htokens, hlength, hfuel, hbound, run_zonePath]

private theorem run_end_plain (s : String) (index bound fuel : Nat) :
    Lexer.run (fuel + 2) (behindZone s true ⟨[], index, 2, 0⟩ (bound + 20)) =
      (zonePath ++ [.scalar s true, .blockEnd, .blockEnd, .finish], none) := by
  cbv

private theorem run_end_quoted (s : String) (index column bound fuel : Nat) :
    Lexer.run (fuel + 2) (behindZone s false ⟨['\n'], index, 1, column⟩ (bound + 20)) =
      (zonePath ++ [.scalar s false, .blockEnd, .blockEnd, .finish], none) := by
  cbv

private theorem closeBlocks_atZone (rest : List Char) (index bound : Nat) :
    (atZone rest index 12 bound).closeBlocks 12 = atZone rest index 12 bound := by
  cbv

private theorem step_plain {c d : Char} {word : List Char} (hword : IsWord (c :: d :: word))
    (hc : c = '+' ∨ c = '-') (bound : Nat) :
    (atZone (' ' :: (c :: d :: word ++ ['\n'])) 19 11 (bound + 20)).step =
      .ok (behindZone (String.ofList (c :: d :: word)) true
        ⟨[], 20 + (c :: d :: word).length + 1, 2, 0⟩ (bound + 20), false) := by
  have hnext : Lexer.toNextToken (bound + 20)
      (atZone (' ' :: (c :: d :: word ++ ['\n'])) 19 11 (bound + 20)) =
      atZone (c :: d :: word ++ ['\n']) 20 12 (bound + 20) := by
    rcases hc with rfl | rfl <;> cbv
  have hinner : isSeparator (d :: word ++ ['\n']).head? = false :=
    hword.isSeparator_eq_false (by simp)
  have hscalar : (atZone (c :: (d :: word ++ ['\n'])) 20 12 (bound + 20)).plainScalar = _ :=
    Lexer.plainScalar_of_scan rfl
      (scanPlain_word hword (by decide : (0 : Int) < 3) (bound + 19) 20 1 12)
  rw [Lexer.step_of_sign hnext rfl (closeBlocks_atZone _ _ _) rfl (by decide : (12 : Nat) ≠ 0) hc
    hinner, hscalar]
  rfl

private theorem step_quoted {mark : Char} (hmark : mark = '\'' ∨ mark = '"') {word : List Char}
    (h : ∀ c ∈ word, isInner c = true) (bound : Nat) :
    (atZone (' ' :: mark :: (word ++ mark :: ['\n'])) 19 11 (bound + word.length + 20)).step =
      .ok (behindZone (String.ofList word) false
        ⟨['\n'], 21 + word.length + 1, 1, 13 + word.length + 1⟩ (bound + word.length + 20),
        false) := by
  have hnext : Lexer.toNextToken (bound + word.length + 20)
      (atZone (' ' :: mark :: (word ++ mark :: ['\n'])) 19 11 (bound + word.length + 20)) =
      atZone (mark :: (word ++ mark :: ['\n'])) 20 12 (bound + word.length + 20) := by
    rcases hmark with rfl | rfl <;> cbv
  have hopen : Cursor.next ⟨mark :: (word ++ mark :: ['\n']), 20, 1, 12⟩ =
      ⟨word ++ mark :: ['\n'], 21, 1, 13⟩ := by
    rcases hmark with rfl | rfl <;> rfl
  have hscan := scanQuoted_word h hmark [] [] (bound + 19) 21 1 13
  have hfuel : bound + 19 + word.length + 1 = bound + word.length + 20 := by omega
  rw [hfuel, ← hopen] at hscan
  have hscalar : (atZone (mark :: (word ++ mark :: ['\n'])) 20 12
      (bound + word.length + 20)).quotedScalar mark = _ :=
    Lexer.quotedScalar_of_scan rfl hscan
  rw [Lexer.step_of_quote hnext rfl (closeBlocks_atZone _ _ _) rfl (by decide : (12 : Nat) ≠ 0)
    hmark, hscalar]
  rfl

private theorem isWord_text (z : OffsetText) : IsWord z.text.toList where
  inner c hc := by
    have hall : ("+-:".toList ++ "0123456789".toList).all isInner = true := by decide +kernel
    exact List.all_eq_true.1 hall c (OffsetText.mem_text hc)
  nonempty := by simp
  first := by
    rcases z.sign_eq with h | h <;> simp [h]
  last := by
    have hdigit : ∀ n : Fin 100, (n.val % 10).digitChar ≠ ':' := by decide +kernel
    obtain ⟨negative, hours, _ | ⟨_ | _, minutes⟩⟩ := z <;>
      simp [OffsetText.size, OffsetText.behind, padded_two, hdigit]

theorem tokensOf_zoneFile (quoting : Quoting) (z : OffsetText) :
    tokensOf (Config.zoneFile quoting z.text).toList = ([.blockMappingStart, .key,
      .scalar "render" true, .value, .blockMappingStart, .key, .scalar "timezone" true, .value,
      .scalar z.text quoting.isPlain, .blockEnd, .blockEnd, .finish], none) := by
  have hword := isWord_text z
  rw [Config.zoneFile, String.toList_ofList, tokensOf_zoneLines]
  cases quoting with
  | plain =>
    obtain ⟨d, word, hsize⟩ : ∃ d word, z.size = d :: word :=
      ⟨_, _, congrArg (· ++ z.behind) (padded_two z.hours)⟩
    have htext : z.text = String.ofList (z.sign :: d :: word) :=
      congrArg (fun size => String.ofList (z.sign :: size)) hsize
    rw [OffsetText.toList_text, hsize] at hword
    rw [Quoting.write, OffsetText.toList_text, hsize, htext, Lexer.run,
      step_plain hword z.sign_eq]
    exact run_end_plain _ _ _ _
  | between mark hmark =>
    have hrest : Quoting.write z.text.toList (.between mark hmark) ++ ['\n'] =
        mark :: (z.text.toList ++ mark :: ['\n']) := by
      simp [Quoting.write]
    have hlength : (Quoting.write z.text.toList (.between mark hmark)).length + 2 + 20 =
        4 + z.text.toList.length + 20 := by
      simp [Quoting.write]
      omega
    rw [hrest, hlength, Lexer.run, step_quoted hmark hword.inner, String.ofList_toList]
    exact run_end_quoted _ _ _ _ _

end Yaml

namespace Config

private theorem isAllowed_of_mem {quoting : Quoting} {z : OffsetText} {c : Char}
    (h : c ∈ (zoneFile quoting z.text).toList) : (isAllowed c && c != '\r') = true := by
  have hkeys : "render:\n  timezone: ".toList.all (fun c => isAllowed c && c != '\r') = true := by
    decide +kernel
  have htext : ∀ c ∈ z.text.toList, (isAllowed c && c != '\r') = true := by
    have hall : ("+-:".toList ++ "0123456789".toList).all (fun c => isAllowed c && c != '\r') =
        true := by
      decide +kernel
    exact fun c hc => List.all_eq_true.1 hall c (OffsetText.mem_text hc)
  rw [zoneFile, String.toList_ofList, zoneLines_eq, List.mem_append, List.mem_append,
    List.mem_singleton] at h
  rcases h with h | h | rfl
  · exact List.all_eq_true.1 hkeys c h
  · cases quoting with
    | plain => exact htext c h
    | between mark hmark =>
      rw [Quoting.write, List.mem_append, List.mem_cons, List.mem_singleton] at h
      rcases h with (rfl | h) | rfl
      · rcases hmark with rfl | rfl <;> decide
      · exact htext c h
      · rcases hmark with rfl | rfl <;> decide
  · decide

private theorem withLineFeeds_zoneFile (quoting : Quoting) (z : OffsetText) :
    withLineFeeds (zoneFile quoting z.text).toList = (zoneFile quoting z.text).toList :=
  withLineFeeds_eq_self fun h => absurd (isAllowed_of_mem h) (by decide)

/-- A file that sets just an offset as its time zone is such a document, however it is written. -/
theorem root_zoneFile (quoting : Quoting) (z : OffsetText) :
    Node.parse (withLineFeeds (zoneFile quoting z.text).toList) =
      .ok (some (Node.onlyTimezone (Node.written quoting.isPlain z.text))) := by
  have htokens := tokensOf_zoneFile quoting z
  rw [withLineFeeds_zoneFile]
  exact Node.parse_onlyTimezone (congrArg Prod.fst htokens)
    (congrArg (fun tokens => tokens.2.isNone) htokens)

end Config

end SqlFragments
