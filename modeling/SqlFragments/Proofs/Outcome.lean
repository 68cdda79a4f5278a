import Mathlib.Data.List.Forall2
import SqlFragments.Outcome

/-!
# Answers

The answers of the parts that outcomes are made of, what an outcome settles on step by step, and
the comparison of two outcomes step by step.
-/

namespace SqlFragments.Outcome

variable {α β γ δ : Type}

@[simp]
theorem answer_ofExcept (answer : Except Failure α) : (ofExcept answer).answer = answer := rfl

@[simp]
theorem answer_emit (event : Event) : (emit event).answer = .ok () := rfl

@[simp]
theorem fail_bind (cause : Failure) (f : α → Outcome β) : (fail cause >>= f) = fail cause := rfl

theorem ofExcept_bind_pure (answer : Except Failure α) (f : α → β) :
    (do
      let a ← ofExcept answer
      pure (f a) : Outcome β) = ofExcept (answer.map f) := by
  cases answer <;> rfl

theorem map_eq_ok {answer : Except Failure α} {f : α → β} {b : β} :
    answer.map f = .ok b ↔ ∃ a, answer = .ok a ∧ f a = b := by
  cases answer with
  | error cause =>
    constructor
    · intro h
      cases h
    · rintro ⟨_, h, _⟩
      cases h
  | ok a =>
    constructor
    · intro h
      cases h
      exact ⟨a, rfl, rfl⟩
    · rintro ⟨_, h, rfl⟩
      cases h
      rfl

theorem bind_eq_ok {answer : Except Failure α} {f : α → Except Failure β} {b : β} :
    answer.bind f = .ok b ↔ ∃ a, answer = .ok a ∧ f a = .ok b := by
  cases answer with
  | error cause =>
    constructor
    · intro h
      cases h
    · rintro ⟨_, h, _⟩
      cases h
  | ok a =>
    constructor
    · intro h
      exact ⟨a, rfl, h⟩
    · rintro ⟨_, h, hf⟩
      cases h
      exact hf

theorem exists_of_forall₂ {R : α → β → Prop} {as : List α} {bs : List β}
    (h : List.Forall₂ R as bs) : ∀ a ∈ as, ∃ b ∈ bs, R a b := by
  induction h with
  | nil => exact fun _ ha => by cases ha
  | @cons a b as bs hrelated _ ih =>
    rw [List.forall_mem_cons]
    refine ⟨⟨b, List.mem_cons_self, hrelated⟩, fun other hother => ?_⟩
    obtain ⟨b', hb', hrelated'⟩ := ih other hother
    exact ⟨b', List.mem_cons_of_mem b hb', hrelated'⟩

theorem answer_mapM_eq_ok {f : α → Outcome β} {as : List α} {bs : List β} :
    (as.mapM f).answer = .ok bs ↔ List.Forall₂ (fun a b => (f a).answer = .ok b) as bs := by
  induction as generalizing bs with
  | nil =>
    rw [List.mapM_nil, List.forall₂_nil_left_iff, answer_pure, Except.ok.injEq, eq_comm]
  | cons a as ih =>
    rw [List.mapM_cons, answer_bind_eq_ok, List.forall₂_cons_left_iff]
    simp only [answer_bind_eq_ok, ih, answer_pure, Except.ok.injEq]
    constructor
    · rintro ⟨b, hb, bs, hbs, rfl⟩
      exact ⟨b, bs, hb, hbs, rfl⟩
    · rintro ⟨b, bs, hb, hbs, rfl⟩
      exact ⟨b, hb, bs, hbs, rfl⟩

theorem answer_mapM_error {f : α → Outcome β} {as : List α} {a : α} (ha : a ∈ as)
    (h : ¬ ∃ b, (f a).answer = .ok b) : ∃ cause, (as.mapM f).answer = .error cause := by
  cases hall : (as.mapM f).answer with
  | error cause => exact ⟨cause, rfl⟩
  | ok bs =>
    obtain ⟨b, _, hb⟩ := exists_of_forall₂ (answer_mapM_eq_ok.1 hall) a ha
    exact absurd ⟨b, hb⟩ h

theorem answer_bind_eq_error {x : Outcome α} {f : α → Outcome β} {cause : Failure} :
    (x >>= f).answer = .error cause ↔
      x.answer = .error cause ∨ ∃ a, x.answer = .ok a ∧ (f a).answer = .error cause := by
  rw [answer_bind]
  cases hx : x.answer with
  | error failure =>
    constructor
    · intro h
      cases h
      exact .inl rfl
    · rintro (h | ⟨_, h, _⟩)
      · cases h
        rfl
      · cases h
  | ok a =>
    constructor
    · exact fun h => .inr ⟨a, rfl, h⟩
    · rintro (h | ⟨_, h, hf⟩)
      · cases h
      · cases h
        exact hf

/-- An outcome that succeeds with a value of some sort or fails for a cause of some sort. -/
inductive Settles (Q : α → Prop) (P : Failure → Prop) (x : Outcome α) : Prop
  | ok {a : α} (hx : x.answer = .ok a) (holds : Q a)
  | error {cause : Failure} (hx : x.answer = .error cause) (holds : P cause)

namespace Settles

variable {Q : α → Prop} {R : β → Prop} {P : Failure → Prop} {x : Outcome α}

protected theorem pure {a : α} (holds : Q a) : Settles Q P (pure a) :=
  .ok rfl holds

protected theorem bind {f : α → Outcome β} (first : Settles Q P x)
    (next : ∀ a, Q a → Settles R P (f a)) : Settles R P (x >>= f) := by
  cases first with
  | error hx holds => exact .error (answer_bind_eq_error.2 (.inl hx)) holds
  | ok hx holds =>
    cases next _ holds with
    | error hf result => exact .error (answer_bind_eq_error.2 (.inr ⟨_, hx, hf⟩)) result
    | ok hf result => exact .ok (answer_bind_eq_ok.2 ⟨_, hx, hf⟩) result

theorem mono {P' : Failure → Prop} (h : Settles Q P x) (hcause : ∀ cause, P cause → P' cause) :
    Settles Q P' x := by
  cases h with
  | ok hx holds => exact .ok hx holds
  | error hx holds => exact .error hx (hcause _ holds)

protected theorem mapM {f : α → Outcome β} {as : List α} (h : ∀ a ∈ as, Settles R P (f a)) :
    Settles (fun bs => bs.length = as.length ∧ ∀ b ∈ bs, R b) P (as.mapM f) := by
  induction as with
  | nil => exact .pure ⟨rfl, fun _ hb => by cases hb⟩
  | cons a as ih =>
    rw [List.forall_mem_cons] at h
    rw [List.mapM_cons]
    apply h.1.bind
    intro b hb
    apply (ih h.2).bind
    rintro bs ⟨hlength, hbs⟩
    exact .pure ⟨by simp [hlength], List.forall_mem_cons.2 ⟨hb, hbs⟩⟩

end Settles

/-- Two outcomes that succeed together with related values or fail together for one cause. -/
inductive Matching (R : α → β → Prop) (x : Outcome α) (y : Outcome β) : Prop
  | ok {a : α} {b : β} (hx : x.answer = .ok a) (hy : y.answer = .ok b) (related : R a b)
  | error {cause : Failure} (hx : x.answer = .error cause) (hy : y.answer = .error cause)

namespace Matching

variable {R : α → β → Prop} {S : γ → δ → Prop} {x : Outcome α} {y : Outcome β}

protected theorem pure {a : α} {b : β} (related : R a b) : Matching R (pure a) (pure b) :=
  .ok rfl rfl related

theorem of_answer_eq {x y : Outcome α} (h : x.answer = y.answer) : Matching Eq x y := by
  cases hx : x.answer with
  | error cause => exact .error hx (h ▸ hx)
  | ok a => exact .ok hx (h ▸ hx) rfl

theorem answer_eq {x y : Outcome α} (h : Matching Eq x y) : x.answer = y.answer := by
  cases h with
  | error hx hy => rw [hx, hy]
  | ok hx hy related => rw [hx, hy, related]

theorem same (x : Outcome α) : Matching (fun a b => a = b ∧ x.answer = .ok a) x x := by
  cases hx : x.answer with
  | error cause => exact .error hx hx
  | ok a => exact .ok hx hx ⟨rfl, rfl⟩

protected theorem bind {f : α → Outcome γ} {g : β → Outcome δ} (first : Matching R x y)
    (next : ∀ a b, R a b → Matching S (f a) (g b)) : Matching S (x >>= f) (y >>= g) := by
  cases first with
  | error hx hy =>
    apply Matching.error
    · rw [answer_bind, hx]
      rfl
    · rw [answer_bind, hy]
      rfl
  | ok hx hy related =>
    cases next _ _ related with
    | error hf hg =>
      apply Matching.error
      · rw [answer_bind, hx]
        exact hf
      · rw [answer_bind, hy]
        exact hg
    | ok hf hg result =>
      exact .ok (answer_bind_eq_ok.2 ⟨_, hx, hf⟩) (answer_bind_eq_ok.2 ⟨_, hy, hg⟩) result

protected theorem mapM {f : α → Outcome γ} {g : β → Outcome δ} {as : List α} {bs : List β}
    (h : List.Forall₂ (fun a b => Matching S (f a) (g b)) as bs) :
    Matching (List.Forall₂ S) (as.mapM f) (bs.mapM g) := by
  induction h with
  | nil => exact .pure .nil
  | cons hhead _ ih =>
    rw [List.mapM_cons, List.mapM_cons]
    apply hhead.bind
    intro c d hcd
    apply ih.bind
    intro cs ds hrest
    exact .pure (.cons hcd hrest)

protected theorem map {x : Except Failure α} {y : Except Failure β} {f : α → γ} {g : β → δ}
    (first : Matching R (ofExcept x) (ofExcept y)) (next : ∀ a b, R a b → S (f a) (g b)) :
    Matching S (ofExcept (x.map f)) (ofExcept (y.map g)) := by
  cases first with
  | error hx hy =>
    rw [answer_ofExcept] at hx hy
    rw [hx, hy]
    exact .error rfl rfl
  | ok hx hy related =>
    rw [answer_ofExcept] at hx hy
    rw [hx, hy]
    exact .ok rfl rfl (next _ _ related)

end Matching

/-- Two outcomes that match, unless the second one is refused. -/
inductive MatchingUnless (P : Failure → Prop) (R : α → β → Prop) (x : Outcome α)
    (y : Outcome β) : Prop
  | matching (h : Matching R x y)
  | refused {cause : Failure} (hy : y.answer = .error cause) (h : P cause)

protected theorem MatchingUnless.bind {P : Failure → Prop} {R : α → β → Prop} {S : γ → δ → Prop}
    {x : Outcome α} {y : Outcome β} {f : α → Outcome γ} {g : β → Outcome δ}
    (first : MatchingUnless P R x y) (next : ∀ a b, R a b → MatchingUnless P S (f a) (g b)) :
    MatchingUnless P S (x >>= f) (y >>= g) := by
  cases first with
  | refused hy h => exact .refused (answer_bind_eq_error.2 (.inl hy)) h
  | matching first =>
    cases first with
    | error hx hy =>
      exact .matching (.error (answer_bind_eq_error.2 (.inl hx)) (answer_bind_eq_error.2 (.inl hy)))
    | ok hx hy related =>
      cases next _ _ related with
      | refused hg h => exact .refused (answer_bind_eq_error.2 (.inr ⟨_, hy, hg⟩)) h
      | matching result =>
        cases result with
        | error hf hg =>
          exact .matching (.error (answer_bind_eq_error.2 (.inr ⟨_, hx, hf⟩))
            (answer_bind_eq_error.2 (.inr ⟨_, hy, hg⟩)))
        | ok hf hg result =>
          exact .matching (.ok (answer_bind_eq_ok.2 ⟨_, hx, hf⟩) (answer_bind_eq_ok.2 ⟨_, hy, hg⟩)
            result)

def Compatible (R : α → β → Prop) (x : Outcome α) (y : Outcome β) : Prop :=
  ∀ a b, x.answer = .ok a → y.answer = .ok b → R a b

namespace Compatible

variable {R : α → β → Prop} {S : γ → δ → Prop} {x : Outcome α} {y : Outcome β}

protected theorem pure {a : α} {b : β} (related : R a b) : Compatible R (pure a) (pure b) := by
  intro _ _ ha hb
  cases ha
  cases hb
  exact related

theorem same (x : Outcome α) : Compatible (fun a b => a = b ∧ x.answer = .ok a) x x := by
  intro a b ha hb
  rw [ha] at hb
  cases hb
  exact ⟨rfl, ha⟩

protected theorem bind {f : α → Outcome γ} {g : β → Outcome δ} (first : Compatible R x y)
    (next : ∀ a b, R a b → Compatible S (f a) (g b)) : Compatible S (x >>= f) (y >>= g) := by
  intro c d hc hd
  obtain ⟨a, ha, hc⟩ := answer_bind_eq_ok.1 hc
  obtain ⟨b, hb, hd⟩ := answer_bind_eq_ok.1 hd
  exact next a b (first a b ha hb) c d hc hd

end Compatible

theorem Matching.and_compatible {R S : α → β → Prop} {x : Outcome α} {y : Outcome β}
    (h : Matching R x y) (hcompatible : Compatible S x y) :
    Matching (fun a b => R a b ∧ S a b) x y := by
  cases h with
  | ok hx hy related => exact .ok hx hy ⟨related, hcompatible _ _ hx hy⟩
  | error hx hy => exact .error hx hy

end SqlFragments.Outcome
