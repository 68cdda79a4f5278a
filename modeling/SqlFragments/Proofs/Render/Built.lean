import SqlFragments.Fragment.Build
import SqlFragments.Proofs.Render.Nodes

/-!
# Built trees

The trees that the functions of the library accept one step at a time. What these functions check
when a fragment is built holds at every node later on: there is one literal part more than values.
-/

namespace SqlFragments

open Outcome

/-! ## Shapes -/

/-- Whether a fragment has the shape that rendering it relies on: literal parts, separators and
columns are texts, and the literal parts are as many as its values need. -/
def Fragment.isShaped : Fragment → Bool
  | .raw _ | .identifier _ | .parameter _ => true
  | .parameterList _ separator => separator.text?.isSome
  | .columnList columns separator => columns.all (·.text?.isSome) && separator.text?.isSome
  | .lines _ separator => separator.text?.isSome
  | .clause strings _ => strings.all (·.text?.isSome) && strings.length == 2
  | .template _ _ strings values =>
    strings.all (·.text?.isSome) && strings.length == values.length + 1
  | _ => false

def Value.isShaped : Value → Bool
  | .null | .text _ => true
  | .fragment f => f.isShaped
  | _ => false

theorem Fragment.assignable_of_isShaped {f : Fragment} (h : f.isShaped = true) :
    f.assignable? = none := by
  cases f with
  | leaf | probe | deferred | endless | unrenderable => cases h
  | _ => rfl

/-! ## Building -/

/-- The trees that can be built with texts for literal parts, separators and columns, and with
nothing, texts and such trees in lines and clauses. -/
inductive Value.IsBuilt : Value → Prop
  | null : IsBuilt .null
  | text (s : String) : IsBuilt (.text s)
  | verbatim (value : Value) : IsBuilt (.fragment (Fragment.verbatim value))
  | parameter (value : Value) : IsBuilt (.fragment (.parameter value))
  | named {name : Value} {f : Fragment} (h : Fragment.named name = .ok f) : IsBuilt (.fragment f)
  | parameters {given : Value} {separator : Option String} {f : Fragment}
      (h : Fragment.parameters given (separator.map .text) = .ok f) : IsBuilt (.fragment f)
  | columns {given : Value} {names : List String} {separator : Option String} {f : Fragment}
      (hgiven : given.items? = some (names.map .text))
      (h : Fragment.columns given (separator.map .text) = .ok f) : IsBuilt (.fragment f)
  | joined {given : Value} {members : List Value} {separator : Option String} {f : Fragment}
      (hgiven : given.items? = some members) (hmembers : ∀ member ∈ members, IsBuilt member)
      (h : Fragment.joined given (separator.map .text) = .ok f) : IsBuilt (.fragment f)
  | conditional {given : Value} {strings : List String} {values : List Value} {f : Fragment}
      (hgiven : given.items? = some (strings.map .text)) (hvalues : ∀ value ∈ values, IsBuilt value)
      (h : Fragment.conditional given values = .ok f) : IsBuilt (.fragment f)
  | statement {label : Label} {given : Value} {strings : List String} {values : List Value}
      {f : Fragment} (hgiven : given.items? = some (strings.map .text))
      (hvalues : ∀ value ∈ values, value.isPlain = false → IsBuilt value)
      (h : Fragment.statement label given values = .ok f) : IsBuilt (.fragment f)
  | functionCall {label : Label} {given : Value} {strings : List String} {names : List Value}
      {f : Fragment} (hgiven : given.items? = some (strings.map .text))
      (h : Fragment.functionCall label given names = .ok f) : IsBuilt (.fragment f)

theorem Fragment.literalParts_eq_ok {kind : Kind} {given : Value} {parts items : List Value}
    {count : Nat} (hgiven : given.items? = some items)
    (h : Fragment.literalParts kind given count = .ok parts) :
    parts = items ∧ items.length = count + 1 := by
  unfold Fragment.literalParts at h
  rw [hgiven] at h
  dsimp only at h
  split at h
  · next hlength =>
    cases h
    exact ⟨rfl, hlength⟩
  · cases h

theorem Fragment.members_eq_ok {kind : Kind} {given : Value} {members items : List Value}
    (hgiven : given.items? = some items) (h : Fragment.members kind given = .ok members) :
    members = items := by
  unfold Fragment.members at h
  rw [hgiven] at h
  cases h
  rfl

theorem Fragment.conditional_eq_ok {given : Value} {values : List Value} {f : Fragment}
    (h : Fragment.conditional given values = .ok f) :
    ∃ value parts, values = [value] ∧ Fragment.literalParts .clause given 1 = .ok parts ∧
      f = .clause parts value := by
  unfold Fragment.conditional at h
  split at h
  · next value =>
    obtain ⟨parts, hparts, h⟩ := bind_eq_ok.1 h
    cases h
    exact ⟨value, parts, rfl, hparts, rfl⟩
  · cases h

private theorem isShaped_named {name : Value} {f : Fragment} (h : Fragment.named name = .ok f) :
    f.isShaped = true := by
  cases name with
  | text s =>
    rw [Fragment.named] at h
    cases h
    split <;> rfl
  | _ => cases h

theorem Fragment.named_of_mapM {names : List Value} {fragments : List Fragment}
    (h : names.mapM Fragment.named = .ok fragments) :
    fragments.length = names.length ∧
      ∀ f ∈ fragments, ∃ name, Fragment.named name = .ok f := by
  induction names generalizing fragments with
  | nil =>
    cases h
    exact ⟨rfl, fun _ hf => by cases hf⟩
  | cons name names ih =>
    rw [List.mapM_cons] at h
    obtain ⟨first, hfirst, h⟩ := bind_eq_ok.1 h
    obtain ⟨rest, hrest, h⟩ := bind_eq_ok.1 h
    cases h
    obtain ⟨hlength, hnamed⟩ := ih hrest
    rw [List.forall_mem_cons]
    exact ⟨by simp [hlength], ⟨name, hfirst⟩, hnamed⟩

private theorem isSome_separator {usual : Value} (husual : usual.text?.isSome = true)
    (separator : Option String) : ((separator.map Value.text).getD usual).text?.isSome = true := by
  cases separator with
  | none => exact husual
  | some s => rfl

private theorem all_texts (strings : List String) :
    (strings.map Value.text).all (·.text?.isSome) = true := by
  simp [Value.text?]

namespace Value.IsBuilt

theorem isShaped {target : Value} (h : target.IsBuilt) : target.isShaped = true := by
  cases h with
  | null | text | verbatim | parameter => rfl
  | named h => exact isShaped_named h
  | @parameters given separator f h =>
    obtain ⟨values, -, h⟩ := bind_eq_ok.1 h
    cases h
    exact isSome_separator rfl separator
  | @columns given names separator f hgiven h =>
    obtain ⟨columns, hcolumns, h⟩ := bind_eq_ok.1 h
    cases h
    cases Fragment.members_eq_ok hgiven hcolumns
    rw [Value.isShaped, Fragment.isShaped, all_texts, isSome_separator rfl separator]
    rfl
  | @joined given members separator f hgiven hmembers h =>
    obtain ⟨values, -, h⟩ := bind_eq_ok.1 h
    cases h
    exact isSome_separator rfl separator
  | @conditional given strings values f hgiven hvalues h =>
    obtain ⟨value, parts, rfl, hparts, rfl⟩ := Fragment.conditional_eq_ok h
    obtain ⟨rfl, hlength⟩ := Fragment.literalParts_eq_ok hgiven hparts
    rw [Value.isShaped, Fragment.isShaped, all_texts, hlength]
    rfl
  | @statement label given strings values f hgiven hvalues h =>
    obtain ⟨parts, hparts, h⟩ := bind_eq_ok.1 h
    cases h
    obtain ⟨rfl, hlength⟩ := Fragment.literalParts_eq_ok hgiven hparts
    rw [Value.isShaped, Fragment.isShaped, all_texts, hlength]
    simp
  | @functionCall label given strings names f hgiven h =>
    obtain ⟨parts, hparts, h⟩ := bind_eq_ok.1 h
    obtain ⟨values, hvalues, h⟩ := bind_eq_ok.1 h
    cases h
    obtain ⟨rfl, hlength⟩ := Fragment.literalParts_eq_ok hgiven hparts
    rw [Value.isShaped, Fragment.isShaped, all_texts, hlength, List.length_map,
      (Fragment.named_of_mapM hvalues).1]
    simp

theorem part {f : Fragment} (h : (Value.fragment f).IsBuilt) : ∀ part ∈ f.parts, part.IsBuilt := by
  cases h with
  | verbatim | parameter => exact fun _ hpart => by cases hpart
  | @named name f h =>
    cases name with
    | text s =>
      rw [Fragment.named] at h
      cases h
      split <;> exact fun _ hpart => by cases hpart
    | _ => cases h
  | parameters h | columns _ h =>
    obtain ⟨_, _, h⟩ := bind_eq_ok.1 h
    cases h
    exact fun _ hpart => by cases hpart
  | joined hgiven hmembers h =>
    obtain ⟨_, hlines, h⟩ := bind_eq_ok.1 h
    cases h
    cases Fragment.members_eq_ok hgiven hlines
    exact hmembers
  | conditional _ hvalues h =>
    obtain ⟨value, parts, rfl, _, rfl⟩ := Fragment.conditional_eq_ok h
    exact hvalues
  | @statement label given strings values f hgiven hvalues h =>
    obtain ⟨parts, _, h⟩ := bind_eq_ok.1 h
    cases h
    intro part hpart
    obtain ⟨value, hvalue, rfl⟩ := List.mem_map.1 hpart
    unfold Value.promoted
    split
    · exact .parameter value
    · next hplain => exact hvalues value hvalue (Bool.eq_false_iff.2 hplain)
  | functionCall _ h =>
    obtain ⟨_, _, h⟩ := bind_eq_ok.1 h
    obtain ⟨fragments, hfragments, h⟩ := bind_eq_ok.1 h
    cases h
    intro part hpart
    rw [Fragment.parts, List.map_map] at hpart
    obtain ⟨f, hf, rfl⟩ := List.mem_map.1 hpart
    obtain ⟨name, hname⟩ := (Fragment.named_of_mapM hfragments).2 f hf
    exact .named hname

theorem node {target inner : Value} (h : target.IsBuilt) (hinner : inner ∈ target.occurrences) :
    inner.IsBuilt :=
  forall_occurrences (fun _ hf => hf.part) h inner hinner

end Value.IsBuilt

end SqlFragments
