import Mathlib
import SqlFragments.Proofs.Config.Document

/-!
# Keys of sections

A section of a configuration document may only name what it knows. Unknown keys are refused by
their names, in order, and those of the section for renders before those of the journal. The names
are put together as texts, so among unknown keys one that is no text, such as a number or a date,
is a failure of another kind.
-/

namespace SqlFragments

namespace Config

/-! ## Names in order -/

private theorem pairwise_lt_eraseDups :
    (texts : List String) → texts.Pairwise (· ≤ ·) → texts.eraseDups.Pairwise (· < ·)
  | [], _ => .nil
  | first :: rest, h => by
    obtain ⟨hfirst, hrest⟩ := List.pairwise_cons.1 h
    rw [List.eraseDups_cons, List.pairwise_cons]
    refine ⟨fun b hb => ?_, pairwise_lt_eraseDups _ (hrest.filter _)⟩
    obtain ⟨hmem, hne⟩ := List.mem_filter.1 (List.mem_eraseDups.1 hb)
    exact lt_of_le_of_ne (hfirst b hmem) fun heq => by simp [heq] at hne
termination_by texts => texts.length
decreasing_by exact Nat.lt_succ_of_le (List.length_filter_le _ _)

theorem pairwise_sorted (texts : List String) : (sorted texts).Pairwise (· < ·) := by
  apply pairwise_lt_eraseDups _
  have htrans (a b c : String) (hab : decide (a ≤ b) = true) (hbc : decide (b ≤ c) = true) :
      decide (a ≤ c) = true :=
    decide_eq_true (le_trans (of_decide_eq_true hab) (of_decide_eq_true hbc))
  have htotal (a b : String) : (decide (a ≤ b) || decide (b ≤ a)) = true := by
    simpa using le_total a b
  exact (List.pairwise_mergeSort htrans htotal texts).imp fun h => of_decide_eq_true h

theorem mem_sorted {texts : List String} {s : String} : s ∈ sorted texts ↔ s ∈ texts := by
  rw [sorted, List.mem_eraseDups, List.mem_mergeSort]

/-! ## Unknown keys -/

def unknownIn (known : List String) (given : Entries Value) : List Value :=
  (given.map (·.1)).filter fun key => !isKnown known key

theorem mem_unknownIn {known : List String} {given : Entries Value} {key : Value} :
    key ∈ unknownIn known given ↔
      key ∈ given.map (·.1) ∧ ∀ name ∈ known, key ≠ .text name := by
  rw [unknownIn, List.mem_filter, Bool.not_eq_true', Bool.eq_false_iff]
  refine and_congr_right fun _ => ?_
  cases key with
  | text s =>
    simp only [isKnown, Ne, List.contains_iff_mem, Value.text.injEq]
    exact ⟨fun h name hname hs => h (hs ▸ hname), fun h hs => h s hs rfl⟩
  | _ => exact iff_of_true nofun fun _ _ => nofun

def refusal (place : String) (unknown : List Value) : Failure :=
  match unknown.mapM Value.text? with
  | some texts => .unknownKeys place (sorted texts)
  | none => .wrongType

theorem checkNames_eq (known : List String) (place : String) (given : Entries Value) :
    checkNames known place (given.map (·.1)) =
      if unknownIn known given = [] then .ok ()
      else .error (refusal place (unknownIn known given)) := by
  rw [checkNames, ← unknownIn]
  cases unknownIn known given with
  | nil => rfl
  | cons key rest =>
    rw [if_neg (List.cons_ne_nil key rest), refusal]
    dsimp only
    cases (key :: rest).mapM Value.text? <;> rfl

theorem mapM_text?_map (texts : List String) :
    (texts.map Value.text).mapM Value.text? = some texts := by
  induction texts with
  | nil => rfl
  | cons s texts ih =>
    rw [List.map_cons, List.mapM_cons, ih]
    rfl

theorem mapM_text?_eq_none {keys : List Value} {key : Value} (hkey : key ∈ keys)
    (h : ∀ s, key ≠ .text s) : keys.mapM Value.text? = none := by
  induction keys with
  | nil => cases hkey
  | cons first rest ih =>
    rw [List.mapM_cons]
    rcases List.mem_cons.1 hkey with rfl | hrest
    · cases key with
      | text s => exact absurd rfl (h s)
      | _ => rfl
    · rw [ih hrest]
      cases first.text? <;> rfl

theorem refusal_of_texts {place : String} {unknown : List Value}
    (h : ∀ key ∈ unknown, ∃ s, key = .text s) :
    ∃ keys, refusal place unknown = .unknownKeys place keys ∧ keys.Pairwise (· < ·) ∧
      ∀ s, s ∈ keys ↔ .text s ∈ unknown := by
  have htexts : unknown ∈ Set.range (List.map Value.text) := by
    rw [Set.range_list_map]
    exact fun key hkey => (h key hkey).imp fun s hs => hs.symm
  obtain ⟨texts, rfl⟩ := htexts
  refine ⟨sorted texts, ?_, pairwise_sorted texts, fun s => ?_⟩
  · rw [refusal, mapM_text?_map]
  · rw [mem_sorted, List.mem_map_of_injective fun _ _ => Value.text.inj]

theorem refusal_of_other {place : String} {unknown : List Value} {key : Value}
    (hkey : key ∈ unknown) (h : ∀ s, key ≠ .text s) : refusal place unknown = .wrongType := by
  rw [refusal, mapM_text?_eq_none hkey h]

/-! ## Documents -/

/-- The entries of what is empty or a mapping. -/
def entries? : Value → Option (Entries Value)
  | .null => some []
  | .dict _ entries => some entries
  | _ => none

/-- What a document gives in a section, where the document is empty or a mapping and the section is
left out, empty or a mapping. -/
def given? (place : String) (document : Value) : Option (Entries Value) := do
  let sections ← entries? document
  entries? ((sections.get? (.text place)).getD .null)

/-- The first section that has unknown keys, with these keys; the last section where none has. -/
def firstUnknown (render logging : Entries Value) : String × List Value :=
  if unknownIn RenderConfig.names render = [] then
    ("logging", unknownIn LoggingConfig.names logging)
  else ("render", unknownIn RenderConfig.names render)

theorem unknownIn_eq_nil_iff {known : List String} {given : Entries Value} :
    unknownIn known given = [] ↔ ∀ key ∈ given.map (·.1), ∃ name ∈ known, key = .text name := by
  rw [List.eq_nil_iff_forall_not_mem]
  refine forall_congr' fun key => ?_
  rw [mem_unknownIn, not_and]
  simp only [not_forall, not_not, exists_prop]

theorem firstUnknown_eq_nil_iff {render logging : Entries Value} :
    (firstUnknown render logging).2 = [] ↔
      (∀ key ∈ render.map (·.1), ∃ name ∈ RenderConfig.names, key = .text name) ∧
        ∀ key ∈ logging.map (·.1), ∃ name ∈ LoggingConfig.names, key = .text name := by
  rw [← unknownIn_eq_nil_iff, ← unknownIn_eq_nil_iff, firstUnknown]
  split
  · next hnone => exact ⟨fun h => ⟨hnone, h⟩, fun h => h.2⟩
  · next hsome => exact ⟨fun h => absurd h hsome, fun h => absurd h.1 hsome⟩

theorem entriesOf_eq {data : Value} {given : Entries Value} (h : entries? data = some given)
    (known : List String) (place : String) :
    entriesOf known place data = (checkNames known place (given.map (·.1))).map fun _ => given := by
  cases data with
  | null =>
    cases h
    rfl
  | dict label entries =>
    cases h
    cases given with
    | nil => rfl
    | cons entry rest =>
      have htruthy : (Value.dict label (entry :: rest)).isTruthy = true := rfl
      rw [entriesOf, if_pos htruthy]
      rfl
  | _ => cases h

theorem ofDocument_eq_sections {document : Value} {sections : Entries Value}
    (h : entries? document = some sections) :
    ofDocument document = (do
      let render ← entriesOf RenderConfig.names "render"
        ((sections.get? (.text "render")).getD .null)
      let logging ← entriesOf LoggingConfig.names "logging"
        ((sections.get? (.text "logging")).getD .null)
      return ⟨RenderConfig.ofEntries render, LoggingConfig.ofEntries logging⟩) := by
  cases document with
  | null =>
    cases h
    rfl
  | dict label entries =>
    cases h
    cases sections with
    | nil => rfl
    | cons entry rest => rfl
  | _ => cases h

theorem ofDocument_eq {document : Value} {render logging : Entries Value}
    (hrender : given? "render" document = some render)
    (hlogging : given? "logging" document = some logging) :
    ofDocument document =
      if (firstUnknown render logging).2 = [] then
        .ok ⟨RenderConfig.ofEntries render, LoggingConfig.ofEntries logging⟩
      else .error (refusal (firstUnknown render logging).1 (firstUnknown render logging).2) := by
  obtain ⟨sections, hsections, hrender⟩ := Option.bind_eq_some_iff.1 hrender
  obtain ⟨sections', hsections', hlogging⟩ := Option.bind_eq_some_iff.1 hlogging
  obtain rfl := Option.some.inj (hsections.symm.trans hsections')
  rw [ofDocument_eq_sections hsections, entriesOf_eq hrender, entriesOf_eq hlogging,
    checkNames_eq, checkNames_eq, firstUnknown]
  by_cases hnone : unknownIn RenderConfig.names render = []
  · rw [if_pos hnone, if_pos hnone]
    dsimp only
    split <;> rfl
  · rw [if_neg hnone, if_neg hnone, if_neg hnone]
    rfl

theorem fields_ofEntries_render (given : Entries Value) :
    (RenderConfig.ofEntries given).fields = ({} : RenderConfig).fields.map fun (name, usual) =>
      (name, (given.get? (.text name)).getD usual) := rfl

theorem fields_ofEntries_logging (given : Entries Value) :
    (LoggingConfig.ofEntries given).fields = ({} : LoggingConfig).fields.map fun (name, usual) =>
      (name, (given.get? (.text name)).getD usual) := rfl

/-! ## Two documents -/

def lettered : String := "render:\n  b: 1\n  a: 2\nlogging:\n  3: 4\n"

private theorem tokensOf_lettered : Yaml.tokensOf lettered.toList =
    ([.blockMappingStart, .key, .scalar "render" true, .value, .blockMappingStart, .key,
      .scalar "b" true, .value, .scalar "1" true, .key, .scalar "a" true, .value,
      .scalar "2" true, .blockEnd, .key, .scalar "logging" true, .value, .blockMappingStart, .key,
      .scalar "3" true, .value, .scalar "4" true, .blockEnd, .blockEnd, .finish], none) := by
  cbv

def numbered : String := "render:\n  1: x\n"

private theorem tokensOf_numbered : Yaml.tokensOf numbered.toList =
    ([.blockMappingStart, .key, .scalar "render" true, .value, .blockMappingStart, .key,
      .scalar "1" true, .value, .scalar "x" true, .blockEnd, .blockEnd, .finish], none) := by
  cbv

private theorem valueOf_lettered : Yaml.valueOf lettered = .ok (.dict 0
    [(.text "render", .dict 0 [(.text "b", .int 1), (.text "a", .int 2)]),
      (.text "logging", .dict 0 [(.int 3, .int 4)])]) := by
  have hlines : Yaml.withLineFeeds lettered.toList = lettered.toList := by decide
  have hroot : Yaml.Node.parse (Yaml.withLineFeeds lettered.toList) = .ok (some (.mapping .mapping
      [(.written true "render", .mapping .mapping [(.written true "b", .written true "1"),
        (.written true "a", .written true "2")]),
      (.written true "logging", .mapping .mapping [(.written true "3", .written true "4")])])) := by
    rw [hlines, Yaml.Node.parse_of_tokens (congrArg Prod.fst tokensOf_lettered)
      (by rw [tokensOf_lettered]; rfl)]
    rfl
  rw [Yaml.valueOf_eq hroot, if_pos (by decide)]
  rfl

private theorem valueOf_numbered : Yaml.valueOf numbered =
    .ok (.dict 0 [(.text "render", .dict 0 [(.int 1, .text "x")])]) := by
  have hlines : Yaml.withLineFeeds numbered.toList = numbered.toList := by decide
  have hroot : Yaml.Node.parse (Yaml.withLineFeeds numbered.toList) = .ok (some (.mapping .mapping
      [(.written true "render", .mapping .mapping [(.written true "1", .written true "x")])])) := by
    rw [hlines, Yaml.Node.parse_of_tokens (congrArg Prod.fst tokensOf_numbered)
      (by rw [tokensOf_numbered]; rfl)]
    rfl
  rw [Yaml.valueOf_eq hroot, if_pos (by decide)]
  rfl

/-! ## What is refused -/

/-- A document is a configuration just if its sections only have keys they know: the fields that
are given have their values and the others their defaults. Otherwise the unknown keys of the first
section that has any are named, in order, but only if all of them are texts; if one is not, there
is a failure of another kind. -/
theorem parse_unknownKeys_iff {text : String} {document : Value} {render logging : Entries Value}
    (hdocument : Yaml.valueOf text = .ok document)
    (hrender : given? "render" document = some render)
    (hlogging : given? "logging" document = some logging) :
    ((∃ cause, parse text = .error cause ∧ cause.category = .invalidArgument) ↔
      (firstUnknown render logging).2 ≠ [] ∧
        ∀ key ∈ (firstUnknown render logging).2, ∃ s, key = .text s) ∧
    (∀ cause, parse text = .error cause → cause.category = .invalidArgument →
      ∃ keys, cause.message? = some ("Unknown keys in '" ++ (firstUnknown render logging).1 ++
          "' config section: " ++ String.intercalate ", " keys) ∧
        keys.Pairwise (· < ·) ∧ ∀ s, s ∈ keys ↔ .text s ∈ (firstUnknown render logging).2) ∧
    ((∃ key ∈ (firstUnknown render logging).2, ∀ s, key ≠ .text s) →
      parse text = .error .wrongType) ∧
    ((∀ key ∈ render.map (·.1), ∃ name ∈ RenderConfig.names, key = .text name) →
      (∀ key ∈ logging.map (·.1), ∃ name ∈ LoggingConfig.names, key = .text name) →
      ∃ config, parse text = .ok config ∧
        config.render.fields = ({} : RenderConfig).fields.map (fun (name, usual) =>
          (name, (render.get? (.text name)).getD usual)) ∧
        config.logging.fields = ({} : LoggingConfig).fields.map (fun (name, usual) =>
          (name, (logging.get? (.text name)).getD usual))) := by
  have hparse : parse text = ofDocument document := parseWith_of_value hdocument
  rw [hparse, ofDocument_eq hrender hlogging, ← and_imp, ← firstUnknown_eq_nil_iff]
  generalize firstUnknown render logging = found
  obtain ⟨place, unknown⟩ := found
  dsimp only
  by_cases hnone : unknown = []
  · rw [if_pos hnone]
    refine ⟨iff_of_false ?_ fun h => h.1 hnone, ?_, ?_, fun _ =>
      ⟨_, rfl, fields_ofEntries_render render, fields_ofEntries_logging logging⟩⟩
    · rintro ⟨cause, ⟨⟩, -⟩
    · rintro cause ⟨⟩
    · rintro ⟨key, hkey, -⟩
      rw [hnone] at hkey
      cases hkey
  · rw [if_neg hnone]
    by_cases htexts : ∀ key ∈ unknown, ∃ s, key = .text s
    · obtain ⟨keys, hrefusal, hsorted, hkeys⟩ := refusal_of_texts htexts
      rw [hrefusal]
      refine ⟨iff_of_true ⟨_, rfl, rfl⟩ ⟨hnone, htexts⟩, ?_, ?_, fun h => absurd h hnone⟩
      · rintro cause ⟨⟩ -
        exact ⟨keys, rfl, hsorted, hkeys⟩
      · rintro ⟨key, hkey, hother⟩
        obtain ⟨s, hs⟩ := htexts key hkey
        exact absurd hs (hother s)
    · obtain ⟨key, hkey, hother⟩ : ∃ key ∈ unknown, ∀ s, key ≠ .text s := by
        simpa only [not_forall, not_exists, exists_prop] using htexts
      rw [refusal_of_other hkey hother]
      refine ⟨iff_of_false ?_ fun h => htexts h.2, ?_, fun _ => rfl, fun h => absurd h hnone⟩
      · rintro ⟨cause, ⟨⟩, ⟨⟩⟩
      · rintro cause ⟨⟩ ⟨⟩

/-- The unknown keys of the first section are named in order, whatever stands in the next. -/
theorem parse_unknownKeys_iff_letters :
    ∃ document render logging, Yaml.valueOf lettered = .ok document ∧
      given? "render" document = some render ∧ given? "logging" document = some logging ∧
      ∃ cause keys, parse lettered = .error cause ∧
        cause.message? = some ("Unknown keys in 'render' config section: " ++
          String.intercalate ", " keys) ∧
        keys.Pairwise (· < ·) ∧
        ∀ s, s ∈ keys ↔ Value.text s ∈ [.text "b", .text "a"] := by
  refine ⟨_, _, _, valueOf_lettered, rfl, rfl, ?_⟩
  obtain ⟨hrefused, hnamed, -, -⟩ := parse_unknownKeys_iff valueOf_lettered rfl rfl
  have htexts : ∀ key ∈ [Value.text "b", .text "a"], ∃ s, key = .text s := by
    simp
  obtain ⟨cause, hcause, hcategory⟩ := hrefused.2 ⟨List.cons_ne_nil _ _, htexts⟩
  obtain ⟨keys, hmessage, hsorted, hkeys⟩ := hnamed cause hcause hcategory
  exact ⟨cause, keys, hcause, hmessage, hsorted, hkeys⟩

/-- A number that is an unknown key is no such failure. -/
theorem parse_unknownKeys_number :
    ∃ document render logging, Yaml.valueOf numbered = .ok document ∧
      given? "render" document = some render ∧ given? "logging" document = some logging ∧
      (∃ key ∈ render.map (·.1), ∀ name ∈ RenderConfig.names, key ≠ .text name) ∧
      ¬ ∃ cause, parse numbered = .error cause ∧ cause.category = .invalidArgument := by
  refine ⟨_, _, _, valueOf_numbered, rfl, rfl, ⟨.int 1, List.mem_singleton_self _, nofun⟩, ?_⟩
  rintro ⟨cause, hcause, hcategory⟩
  have hparse : parse numbered = .error .wrongType := parseWith_of_value valueOf_numbered
  cases hparse.symm.trans hcause
  cases hcategory

end Config

end SqlFragments
