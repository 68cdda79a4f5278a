import SqlFragments.Config
import SqlFragments.Proofs.Render.Options

/-!
# Sections of configuration documents

A configuration document that can be read is a dictionary. Of the sections of one name the last
counts, and a section that sets a single thing leaves all else at its default.
-/

namespace SqlFragments

/-! ## The last entry of a name -/

theorem Value.text_sameKey {s : String} {key : Value} :
    (Value.text s).sameKey key = true ↔ key = .text s := by
  constructor
  · intro h
    cases key with
    | text t =>
      have ht : s = t := by
        simpa [Value.sameKey, Value.same?, Value.identicalNaN, Value.equal?] using h
      rw [ht]
    | _ => cases h
  · rintro rfl
    exact Value.sameKey_text.2 rfl

namespace Entries

variable {α : Type}

theorem get?_insert_of_ne_text (entries : Entries α) {key : Value} {s : String} (a : α)
    (hne : key ≠ .text s) : (entries.insert key a).get? (.text s) = entries.get? (.text s) := by
  have hkey : key.sameKey (.text s) = false := by
    rw [Bool.eq_false_iff, Ne, Value.sameKey_text]
    exact hne
  induction entries with
  | nil => simp [insert, get?, hkey]
  | cons entry rest ih =>
    rw [insert]
    split
    · next hsame =>
      have hentry : entry.1.sameKey (.text s) = false := by
        rw [Bool.eq_false_iff, Ne, Value.sameKey_text]
        intro htext
        rw [htext, Value.text_sameKey] at hsame
        exact hne hsame
      simp [get?, hentry]
    · by_cases hentry : entry.1.sameKey (.text s) = true
      · simp [get?, hentry]
      · simpa [get?, hentry] using ih

theorem get?_ofList_last (before after : List (Value × α)) {s : String} (a : α)
    (hafter : ∀ pair ∈ after, pair.1 ≠ .text s) :
    (ofList (before ++ (.text s, a) :: after)).get? (.text s) = some a := by
  rw [ofList, List.foldl_append, List.foldl_cons]
  have hlast := get?_insert_self
    (before.foldl (fun entries pair => insert entries pair.1 pair.2) []) s a
  generalize insert _ _ a = entries at hlast ⊢
  induction after generalizing entries with
  | nil => exact hlast
  | cons pair after ih =>
    rw [List.forall_mem_cons] at hafter
    exact ih hafter.2 _ ((get?_insert_of_ne_text entries pair.2 hafter.1).trans hlast)

end Entries

/-! ## Mappings of a document -/

namespace Yaml

theorem Draft.toPairs_eq_map (entries : List (Draft × Draft)) :
    toPairs entries = entries.map fun (key, value) => (toValue key, toValue value) := by
  induction entries with
  | nil => rfl
  | cons entry rest ih => rw [toPairs, ih, List.map_cons]

namespace Node

theorem ownEntries_append (before after : List (Node × Node)) :
    ownEntries (before ++ after) = ownEntries before ++ ownEntries after := by
  induction before with
  | nil => rfl
  | cons entry rest ih =>
    obtain ⟨key, node⟩ := entry
    rw [List.cons_append]
    cases key with
    | scalar tag text => cases tag <;> simp [ownEntries, ih]
    | sequence | mapping => simp [ownEntries, ih]

theorem ownEntries_text (s : String) (node : Node) (rest : List (Node × Node)) :
    ownEntries ((.scalar .text s, node) :: rest) =
      (.scalar (.ok (.text s)), node.draft) :: ownEntries rest := rfl

theorem toValue_mapping {entries : List (Node × Node)} {value : Value}
    (h : (Node.mapping .mapping entries).toValue = .ok value) :
    ∃ taken, value =
      .dict 0 (Entries.ofList (Draft.toPairs (taken ++ ownEntries entries))) := by
  rw [toValue] at h
  have hdraft : (Node.mapping .mapping entries).draft =
      (Draft.joined? (ownEntries entries) (takenOver entries)).elim .fault .dict := by rw [draft]
  rw [hdraft, Draft.joined?] at h
  cases htaken : (takenOver entries).mapM Draft.taken? with
  | none =>
    rw [htaken] at h
    cases h
  | some taken =>
    rw [htaken] at h
    split at h
    · cases h
    · cases h
      exact ⟨taken.flatten, rfl⟩

/-- A scalar that is written plainly or in quotes. -/
def written (plain : Bool) (s : String) : Node := .scalar (Reading.scalarTag none s plain) s

/-- Whether a document has a section for renders, and its last one sets just the time zone. -/
inductive SetsTimezone : Node → Node → Prop
  | intro {zone : Node} (before after : List (Node × Node))
      (hlast : ∀ entry ∈ ownEntries after, entry.1.toValue ≠ .text "render") :
      SetsTimezone (.mapping .mapping (before ++
        (.scalar .text "render", .mapping .mapping [(.scalar .text "timezone", zone)]) :: after))
        zone

end Node

theorem Node.parse_of_tokens {text : List Char} {tokens : List Token}
    (htokens : (tokensOf text).1 = tokens) (hend : (tokensOf text).2.isNone = true) :
    Node.parse text =
      ((Reading.document (4 * tokens.length + 4)).run
        { tokens, ending := .badDocumentStructure }).map (·.1) := by
  rw [Option.isNone_iff_eq_none] at hend
  simp only [Node.parse, htokens, hend]
  rfl

def Node.onlyTimezone (zone : Node) : Node :=
  .mapping .mapping [(.scalar .text "render",
    .mapping .mapping [(.scalar .text "timezone", zone)])]

theorem Node.setsTimezone_onlyTimezone (zone : Node) : (onlyTimezone zone).SetsTimezone zone :=
  .intro [] [] fun _ h => by cases h

theorem Node.parse_onlyTimezone {text : List Char} {s : String} {plain : Bool}
    (htokens : (tokensOf text).1 = [.blockMappingStart, .key, .scalar "render" true, .value,
      .blockMappingStart, .key, .scalar "timezone" true, .value, .scalar s plain, .blockEnd,
      .blockEnd, .finish]) (hend : (tokensOf text).2.isNone = true) :
    Node.parse text = .ok (some (onlyTimezone (written plain s))) := by
  rw [Node.parse_of_tokens htokens hend]
  rfl

theorem valueOf_eq {text : String} {root : Node}
    (hroot : Node.parse (withLineFeeds text.toList) = .ok (some root)) :
    valueOf text = if (withLineFeeds text.toList).all isAllowed = true then root.toValue
      else .error .badDocumentCharacter := by
  unfold valueOf
  dsimp only
  split
  · rw [hroot]
    rfl
  · rfl

end Yaml

/-- Whether a document has a section for renders that sets just the time zone. -/
inductive Value.SetsTimezone : Value → Value → Prop
  | intro {entries : Entries Value} {zone : Value} (label label' : Label)
      (hsection : entries.get? (.text "render") =
        some (.dict label' [(.text "timezone", zone)])) :
      SetsTimezone (.dict label entries) zone

namespace Config

theorem parseWith_of_value {load : String → Except Failure Value} {text : String}
    {document : Value} (h : load text = .ok document) :
    parseWith load text = ofDocument document := by
  rw [parseWith, h]
  rfl

theorem entriesOf_dict {known : List String} {place : String} {label : Label}
    {given entries : Entries Value}
    (h : entriesOf known place (.dict label given) = .ok entries) : entries = given := by
  unfold entriesOf at h
  split at h
  · obtain ⟨names, _, h⟩ := Outcome.bind_eq_ok.1 h
    obtain ⟨_, _, h⟩ := Outcome.bind_eq_ok.1 h
    cases h
    rfl
  · next hempty =>
    cases h
    cases given with
    | nil => rfl
    | cons entry rest => exact absurd rfl hempty

theorem render_of_ofDocument {label label' : Label} {entries settings : Entries Value}
    {config : Config} (hsection : entries.get? (.text "render") = some (.dict label' settings))
    (h : ofDocument (.dict label entries) = .ok config) :
    config.render = RenderConfig.ofEntries settings := by
  have htruthy : (Value.dict label entries).isTruthy = true := by
    cases entries with
    | nil => cases hsection
    | cons entry rest => rfl
  rw [ofDocument, if_pos htruthy] at h
  obtain ⟨sections, hsections, h⟩ := Outcome.bind_eq_ok.1 h
  cases hsections
  obtain ⟨render, hrender, h⟩ := Outcome.bind_eq_ok.1 h
  dsimp only at hrender
  rw [hsection] at hrender
  obtain ⟨logging, _, h⟩ := Outcome.bind_eq_ok.1 h
  cases h
  rw [entriesOf_dict hrender]

theorem render_of_setsTimezone {load : String → Except Failure Value} {document : String}
    {zone : Value} {config : Config}
    (hsets : ∀ value, load document = .ok value → value.SetsTimezone zone)
    (hconfig : parseWith load document = .ok config) : config.render = { timezone := zone } := by
  obtain ⟨value, hvalue, hconfig⟩ := Outcome.bind_eq_ok.1 hconfig
  obtain ⟨_, _, hsection⟩ := hsets value hvalue
  exact render_of_ofDocument hsection hconfig

theorem setsTimezone_of_root {document : String} {root zone : Yaml.Node} {value : Value}
    (hroot : Yaml.Node.parse (Yaml.withLineFeeds document.toList) = .ok (some root))
    (hsets : root.SetsTimezone zone) (hvalue : Yaml.valueOf document = .ok value) :
    value.SetsTimezone zone.draft.toValue := by
  rw [Yaml.valueOf_eq hroot] at hvalue
  split at hvalue
  case isFalse => cases hvalue
  obtain ⟨before, after, hlast⟩ := hsets
  obtain ⟨taken, rfl⟩ := Yaml.Node.toValue_mapping hvalue
  refine .intro 0 0 ?_
  rw [Yaml.Node.ownEntries_append, ← List.append_assoc, Yaml.Draft.toPairs_eq_map,
    List.map_append, Yaml.Node.ownEntries_text, List.map_cons]
  refine Entries.get?_ofList_last _ _ _ ?_
  intro pair hpair
  obtain ⟨entry, hentry, rfl⟩ := List.mem_map.1 hpair
  exact hlast entry hentry

/-- A document that only sets the time zone is read, if the time zone is. -/
theorem parse_onlyTimezone {document : String} {zone : Yaml.Node} {value : Value}
    (hallowed : (Yaml.withLineFeeds document.toList).all Yaml.isAllowed = true)
    (hroot : Yaml.Node.parse (Yaml.withLineFeeds document.toList) =
      .ok (some (Yaml.Node.onlyTimezone zone))) (hzone : zone.draft = .scalar (.ok value)) :
    Config.parse document = .ok { render := { timezone := value } } := by
  have hdraft : (Yaml.Node.onlyTimezone zone).draft =
      .dict [(.scalar (.ok (.text "render")),
        .dict [(.scalar (.ok (.text "timezone")), zone.draft)])] := rfl
  have hvalue : Yaml.valueOf document =
      .ok (.dict 0 [(.text "render", .dict 0 [(.text "timezone", value)])]) := by
    rw [Yaml.valueOf_eq hroot, if_pos hallowed, Yaml.Node.toValue, hdraft, hzone]
    rfl
  exact parseWith_of_value hvalue

end Config

end SqlFragments
