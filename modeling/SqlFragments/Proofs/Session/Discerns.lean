import Mathlib.Data.List.Perm.Subperm
import SqlFragments.Proofs.Render.Options
import SqlFragments.Proofs.Session.Book
import SqlFragments.Session.Step

/-!
# Settings that are told from each other

A template compares the settings of a render with those that it remembers. Settings that are
nothing, truth values, texts or functions are the same or equal only when they are one, so options
of such settings agree only when they stand for one context. Numbers are other: zero equals false,
but only false turns placeholders off.
-/

namespace SqlFragments

/-! ## Settings that agree -/

/-- Named settings that have the names of others, each with a setting that is the same as the
other's or equal. As no name comes twice, as many names that are all among those of the others are
the same names. -/
structure Entries.Alike (left right : Entries Setting) : Prop where
  length : left.length = right.length
  settings : ∀ field ∈ left, ∃ other, right.get? field.1 = some other ∧
    field.2.same? other = some true

private theorem settingsAgree?_eq_some_true_iff {left right : Entries Setting} :
    settingsAgree? right left = some true ↔
      ∀ field ∈ left, ∃ other, right.get? field.1 = some other ∧
        field.2.same? other = some true := by
  induction left with
  | nil => exact iff_of_true rfl fun _ hfield => by cases hfield
  | cons field rest ih =>
    obtain ⟨key, setting⟩ := field
    rw [settingsAgree?, List.forall_mem_cons, ← ih]
    cases hother : right.get? key with
    | none => simp
    | some other =>
      cases hsame : setting.same? other with
      | none => simp [Value.andAlso, hsame]
      | some same => cases same <;> simp [Value.andAlso, hsame]

theorem fieldsAgree?_eq_some_true_iff {left right : Entries Setting} :
    fieldsAgree? left right = some true ↔ left.Alike right := by
  constructor
  · intro h
    unfold fieldsAgree? at h
    split at h
    · next hshape => exact ⟨hshape.1, settingsAgree?_eq_some_true_iff.1 h⟩
    · cases h
  · intro h
    have hnames : left.all (fun field => (right.get? field.1).isSome) = true := by
      rw [List.all_eq_true]
      intro field hfield
      obtain ⟨other, hother, _⟩ := h.settings field hfield
      rw [hother]
      rfl
    rw [fieldsAgree?, if_pos ⟨h.length, hnames⟩]
    exact settingsAgree?_eq_some_true_iff.2 h.settings

namespace Entries

theorem mem_of_get? {fields : Entries Setting} {name : String} {setting : Setting}
    (h : fields.get? (.text name) = some setting) : (.text name, setting) ∈ fields := by
  obtain ⟨entry, hentry, rfl⟩ := Option.map_eq_some_iff.1 h
  obtain ⟨key, setting⟩ := entry
  have hkey := List.find?_some hentry
  rw [Value.sameKey_text] at hkey
  cases hkey
  exact List.mem_of_find?_eq_some hentry

private theorem get?_of_mem {fields : Entries Setting} {name : String} {setting : Setting}
    (hmem : (.text name, setting) ∈ fields) : ∃ other, fields.get? (.text name) = some other := by
  cases h : fields.get? (.text name) with
  | some other => exact ⟨other, rfl⟩
  | none =>
    have hfind := List.find?_eq_none.1 (Option.map_eq_none_iff.1 h) _ hmem
    exact absurd (Value.sameKey_text.2 rfl) hfind

theorem Alike.isSome_get? {left right : Entries Setting} (h : left.Alike right)
    (hnames : ∀ field ∈ left, ∃ name, field.1 = .text name) (hnodup : (left.map (·.1)).Nodup)
    (name : String) : (left.get? (.text name)).isSome = (right.get? (.text name)).isSome := by
  cases hset : left.get? (.text name) with
  | some setting =>
    obtain ⟨other, hother, _⟩ := h.settings _ (mem_of_get? hset)
    rw [hother]
    rfl
  | none =>
    cases hother : right.get? (.text name) with
    | none => rfl
    | some other =>
      -- The names on the left are all names on the right, and as many, so they are the same.
      have hsubset : left.map (·.1) ⊆ right.map (·.1) := by
        intro key hkey
        obtain ⟨field, hfield, rfl⟩ := List.mem_map.1 hkey
        obtain ⟨s, hs⟩ := hnames field hfield
        obtain ⟨_, hget, _⟩ := h.settings field hfield
        rw [hs] at hget ⊢
        exact List.mem_map_of_mem (mem_of_get? hget)
      have hperm := (List.subperm_of_subset hnodup hsubset).perm_of_length_le
        (by simp [h.length])
      have hname : Value.text name ∈ right.map (·.1) := List.mem_map_of_mem (mem_of_get? hother)
      obtain ⟨field, hfield, hkey⟩ := List.mem_map.1 (hperm.mem_iff.2 hname)
      obtain ⟨key, setting⟩ := field
      cases hkey
      obtain ⟨found, hfound⟩ := get?_of_mem hfield
      rw [hset] at hfound
      cases hfound

end Entries

/-! ## Renders under settings that agree -/

def Result.Same (r r' : Result) : Prop :=
  r = r' ∨ r.equal? r' = some true

/-- Settings that a template rendered under are told from others: where the comparison takes the
two for the same, a render under the others gives an equal result, and where they cannot be
compared, it fails alike. -/
def Book.Discerns (book : Book) (f : Fragment) (left right : Entries Setting) : Prop :=
  ∀ r, book.rendered (.ofFields left) f = .ok (.result r) →
    match fieldsAgree? left right with
    | some true => ∃ r', book.rendered (.ofFields right) f = .ok (.result r') ∧ r.Same r'
    | some false => True
    | none => book.rendered (.ofFields right) f = .error .badNumber

/-! ## Plain settings -/

/-- A setting that equals no other one: nothing, a truth value, a text, or the function that its
label stands for. -/
inductive Setting.Plain (functions : Label → Setting) : Setting → Prop
  | null : Setting.Plain functions (.value .null)
  | bool (b : Bool) : Setting.Plain functions (.value (.bool b))
  | text (s : String) : Setting.Plain functions (.value (.text s))
  | function {setting : Setting} {label : Label} (hvalue : setting.toValue = .function label)
    (hsetting : functions label = setting) : Setting.Plain functions setting

structure Entries.Plain (functions : Label → Setting) (fields : Entries Setting) : Prop where
  names : ∀ field ∈ fields, ∃ name, field.1 = .text name
  nodup : (fields.map (·.1)).Nodup
  settings : ∀ field ∈ fields, field.2.Plain functions

variable {functions : Label → Setting}

private def Value.isAtom : Value → Bool
  | null | bool _ | text _ | function _ => true
  | _ => false

private theorem same_of_isAtom {v w : Value} (hv : v.isAtom = true) (hw : w.isAtom = true) :
    ∃ same, v.same? w = some same ∧ (same = true → v = w) := by
  cases v with
  | null =>
    cases w with
    | null => exact ⟨true, rfl, fun _ => rfl⟩
    | bool | text | function => exact ⟨false, rfl, nofun⟩
    | _ => cases hw
  | bool b =>
    cases w with
    | bool c =>
      refine ⟨b == c, ?_, fun h => congrArg _ (beq_iff_eq.1 h)⟩
      cases b <;> cases c <;> rfl
    | null | text | function => exact ⟨false, rfl, nofun⟩
    | _ => cases hw
  | text s =>
    cases w with
    | text t => exact ⟨s == t, rfl, fun h => congrArg _ (beq_iff_eq.1 h)⟩
    | null | bool | function => exact ⟨false, rfl, nofun⟩
    | _ => cases hw
  | function l =>
    cases w with
    | function m => exact ⟨l == m, rfl, fun h => congrArg _ (beq_iff_eq.1 h)⟩
    | null | bool | text => exact ⟨false, rfl, nofun⟩
    | _ => cases hw
  | _ => cases hv

namespace Setting.Plain

private theorem isAtom {a : Setting} (ha : a.Plain functions) : a.toValue.isAtom = true := by
  cases ha with
  | function hvalue => rw [hvalue]; rfl
  | _ => rfl

theorem same? {a b : Setting} (ha : a.Plain functions) (hb : b.Plain functions) :
    ∃ same, a.same? b = some same ∧ (same = true → a = b) := by
  obtain ⟨same, hsame, heq⟩ := same_of_isAtom ha.isAtom hb.isAtom
  refine ⟨same, hsame, fun h => ?_⟩
  have hvalues := heq h
  cases ha with
  | function ha hfa =>
    rw [ha] at hvalues
    cases hb with
    | function hb hfb =>
      rw [hb] at hvalues
      cases hvalues
      exact hfa.symm.trans hfb
    | _ => cases hvalues
  | null | bool | text =>
    cases hb with
    | function hb =>
      rw [hb] at hvalues
      cases hvalues
    | _ => cases hvalues <;> rfl

theorem filed {a : Setting} {book : Book} (ha : a.Plain functions) : a.toValue.Filed book := by
  cases ha with
  | function hvalue =>
    rw [hvalue]
    trivial
  | _ => trivial

end Setting.Plain

namespace Entries.Plain

variable {left right : Entries Setting}

private theorem settingsAgree (hleft : ∀ field ∈ left, field.2.Plain functions)
    (hright : ∀ field ∈ right, field.2.Plain functions) :
    ∃ agree, settingsAgree? right left = some agree := by
  induction left with
  | nil => exact ⟨true, rfl⟩
  | cons field rest ih =>
    obtain ⟨key, setting⟩ := field
    rw [List.forall_mem_cons] at hleft
    rw [settingsAgree?]
    cases hother : right.get? key with
    | none => exact ⟨false, rfl⟩
    | some other =>
      have hplain : other.Plain functions := by
        obtain ⟨entry, hentry, rfl⟩ := Option.map_eq_some_iff.1 hother
        exact hright entry (List.mem_of_find?_eq_some hentry)
      obtain ⟨same, hsame, _⟩ := hleft.1.same? hplain
      simp only [hsame]
      cases same with
      | false => exact ⟨false, rfl⟩
      | true => exact ih hleft.2

private theorem get?_eq (hleft : left.Plain functions) (hright : right.Plain functions)
    (h : left.Alike right) (name : String) :
    left.get? (.text name) = right.get? (.text name) := by
  have hnames := h.isSome_get? hleft.names hleft.nodup name
  cases hset : left.get? (.text name) with
  | none =>
    rw [hset, Option.isSome_none, eq_comm, Option.isSome_eq_false_iff,
      Option.isNone_iff_eq_none] at hnames
    exact hnames.symm
  | some setting =>
    have hmem := mem_of_get? hset
    obtain ⟨other, hother, hsame⟩ := h.settings _ hmem
    obtain ⟨same, hdecided, heq⟩ :=
      (hleft.settings _ hmem).same? (hright.settings _ (mem_of_get? hother))
    rw [hsame] at hdecided
    cases hdecided
    have hsetting : setting = other := heq rfl
    rw [hsetting]
    exact hother.symm

theorem fieldsAgree (hleft : left.Plain functions) (hright : right.Plain functions) :
    ∃ agree, fieldsAgree? left right = some agree ∧
      (agree = true → Context.ofFields left = Context.ofFields right) := by
  have hagree : ∃ agree, fieldsAgree? left right = some agree := by
    unfold fieldsAgree?
    split
    · exact settingsAgree hleft.settings hright.settings
    · exact ⟨false, rfl⟩
  obtain ⟨agree, hagree⟩ := hagree
  refine ⟨agree, hagree, ?_⟩
  rintro rfl
  have hget := get?_eq hleft hright (fieldsAgree?_eq_some_true_iff.1 hagree)
  rw [Context.ofFields_eq, Context.ofFields_eq]
  simp only [hget]

end Entries.Plain

/-! ## Renders under plain settings -/

theorem Entries.Plain.steady {book : Book} {fields : Entries Setting}
    (hfields : fields.Plain functions)
    (hfunctions : ∀ label, (functions label).toLiteralEscaper.Steady book ∧
      (functions label).toIdentifierEscaper.Steady book) :
    (Context.ofFields fields).Steady book := by
  have hplain : ∀ name setting, fields.get? (.text name) = some setting →
      setting.Plain functions :=
    fun name setting h => hfields.settings _ (mem_of_get? h)
  rw [Context.ofFields_eq]
  refine ⟨?_, ?_, ?_, ?_⟩
  · cases h : (fields.get? (.text "escape")).filter Setting.isTruthy with
    | none => trivial
    | some setting =>
      cases hplain _ setting (Option.filter_eq_some_iff.1 h).1 with
      | function _ hsetting =>
        rw [← hsetting]
        exact (hfunctions _).1
      | _ => trivial
  · cases h : (fields.get? (.text "escape_id")).filter Setting.isTruthy with
    | none => trivial
    | some setting =>
      cases hplain _ setting (Option.filter_eq_some_iff.1 h).1 with
      | function _ hsetting =>
        rw [← hsetting]
        exact (hfunctions _).2
      | _ => trivial
  · cases h : (fields.get? (.text "timezone")).filter Setting.isTruthy with
    | none => trivial
    | some setting => exact (hplain _ setting (Option.filter_eq_some_iff.1 h).1).filed
  · cases h : fields.get? (.text "method") with
    | none => trivial
    | some setting => exact (hplain _ setting h).filed

theorem Book.discerns_of_plain (book : Book) (f : Fragment) {left right : Entries Setting}
    (hleft : left.Plain functions) (hright : right.Plain functions) :
    book.Discerns f left right := by
  intro r hr
  obtain ⟨agree, hagree, hcontext⟩ := hleft.fieldsAgree hright
  rw [hagree]
  cases agree with
  | false => trivial
  | true =>
    rw [hcontext rfl] at hr
    exact ⟨r, hr, .inl rfl⟩

end SqlFragments
