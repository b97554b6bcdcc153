import Mathlib.Data.List.Forall2

/-!
# Computations That May Fail

A computation that may fail stops at its first failure. What holds of the
stages of such a computation, apart from what the stages are.

A sequence of stages succeeds when each of them does, so success can be taken
apart into existentials and order plays no part in it. Failure is the other way
round: it is one stage that fails, and order decides which. Over a list this
means that the failure is that of the first element that has one.

## Theorems

* `toOption_eq_of_iff`: Computations that differ in their failures only.
* `bind_eq_ok_iff`, `bind_eq_error_iff`: Two stages.
* `mapM_eq_ok_iff`, `exists_mapM_iff`, `mapM_eq_error_iff`: One stage for each element of a list.
* `forall_ok_iff`: A property of the results of a list.
* `forall₂_exists_iff`, `forall₂_append_left_iff`: Lists related element by
  element, through a third list and cut in two.
-/

namespace Captions

section Outcome

variable {α β ε : Type}

theorem ok_bind (a : α) (f : α → Except ε β) : (Except.ok a >>= f) = f a := rfl

theorem ok_ne_error (a : α) (fault : ε) : (Except.ok a : Except ε α) ≠ .error fault :=
  fun h => nomatch h

theorem error_ne_ok (fault : ε) (a : α) : (Except.error fault : Except ε α) ≠ .ok a :=
  fun h => nomatch h

theorem exists_of_toBool (x : Except ε α) (h : x.toBool = true) : ∃ a, x = .ok a := by
  rcases x with fault | a
  · exact absurd h Bool.false_ne_true
  · exact ⟨a, rfl⟩

theorem exists_of_toOption_map {γ : Type} (x : Except ε α) (f : α → γ) (c : γ)
    (h : x.toOption.map f = some c) : ∃ a, x = .ok a ∧ f a = c := by
  rcases x with fault | a
  · exact absurd h.symm (Option.some_ne_none c)
  · exact ⟨a, rfl, Option.some.inj h⟩

/-- What two computations succeed with is the same if each succeeds with what the
    other does. -/
theorem toOption_eq_of_iff {ε' : Type} (x : Except ε α) (y : Except ε' α)
    (h : ∀ a, x = .ok a ↔ y = .ok a) : x.toOption = y.toOption := by
  rcases x with e | a
  · rcases y with e' | a'
    · rfl
    · exact absurd ((h a').mpr rfl) (error_ne_ok _ _)
  · rw [(h a).mp rfl]
    rfl

theorem bind_eq_ok_iff (x : Except ε α) (f : α → Except ε β) (b : β) :
    (x >>= f) = .ok b ↔ ∃ a, x = .ok a ∧ f a = .ok b := by
  rcases x with fault | a
  · simp only [bind, Except.bind, reduceCtorEq, false_and, exists_false]
  · simp only [bind, Except.bind, Except.ok.injEq, exists_eq_left']

theorem bind_eq_error_iff (x : Except ε α) (f : α → Except ε β) (fault : ε) :
    (x >>= f) = .error fault ↔ x = .error fault ∨ ∃ a, x = .ok a ∧ f a = .error fault := by
  rcases x with other | a
  · simp only [bind, Except.bind, reduceCtorEq, false_and, exists_false, or_false,
      Except.error.injEq]
  · simp only [bind, Except.bind, reduceCtorEq, Except.ok.injEq, exists_eq_left', false_or]

theorem pure_eq_ok_iff (a b : α) : (pure a : Except ε α) = .ok b ↔ b = a := by
  rw [pure, Except.instMonad]
  exact ⟨fun h => (Except.ok.inj h).symm, fun h => congrArg Except.ok h.symm⟩

theorem pure_ne_error (a : α) (fault : ε) : (pure a : Except ε α) ≠ .error fault :=
  ok_ne_error a fault

theorem mapM_eq_ok_iff (f : α → Except ε β) (l : List α) (r : List β) :
    l.mapM f = .ok r ↔ List.Forall₂ (fun a b => f a = .ok b) l r := by
  induction l generalizing r with
  | nil =>
      rw [List.mapM_nil, List.forall₂_nil_left_iff]
      exact ⟨fun h => (Except.ok.inj h).symm, fun h => congrArg Except.ok h.symm⟩
  | cons a l ih =>
      simp only [List.mapM_cons, bind_eq_ok_iff, pure_eq_ok_iff, ih, List.forall₂_cons_left_iff]
      constructor
      · rintro ⟨b, ha, bs, hl, rfl⟩
        exact ⟨b, bs, ha, hl, rfl⟩
      · rintro ⟨b, bs, ha, hl, rfl⟩
        exact ⟨b, ha, bs, hl, rfl⟩

/-- What holds of all that comes of a list, said of the list. -/
theorem forall_ok_iff (f : α → Except ε β) (P : β → Prop) (l : List α) (r : List β)
    (h : List.Forall₂ (fun a b => f a = .ok b) l r) :
    (∀ a ∈ l, ∀ b, f a = .ok b → P b) ↔ ∀ b ∈ r, P b := by
  induction h with
  | nil => simp only [List.not_mem_nil, false_imp_iff, implies_true]
  | cons hab _ ih => simp only [List.forall_mem_cons, hab, Except.ok.injEq, forall_eq', ih]

theorem forall₂_exists_iff {γ : Type} (R : α → β → Prop) (S : β → γ → Prop) (l : List α)
    (r : List γ) :
    (∃ m, List.Forall₂ R l m ∧ List.Forall₂ S m r)
      ↔ List.Forall₂ (fun a c => ∃ b, R a b ∧ S b c) l r := by
  constructor
  · rintro ⟨m, hl, hr⟩
    induction hl generalizing r with
    | nil =>
        rw [List.forall₂_nil_left_iff] at hr
        rw [hr]
        exact List.Forall₂.nil
    | cons hab _ ih =>
        rw [List.forall₂_cons_left_iff] at hr
        rcases hr with ⟨c, r', hbc, hr', rfl⟩
        exact List.Forall₂.cons ⟨_, hab, hbc⟩ (ih r' hr')
  · intro h
    induction h with
    | nil => exact ⟨[], List.Forall₂.nil, List.Forall₂.nil⟩
    | cons hac _ ih =>
        rcases hac with ⟨b, hab, hbc⟩
        rcases ih with ⟨m, hl, hr⟩
        exact ⟨b :: m, List.Forall₂.cons hab hl, List.Forall₂.cons hbc hr⟩

theorem forall₂_append_left_iff (R : α → β → Prop) (l m : List α) (r : List β) :
    List.Forall₂ R (l ++ m) r
      ↔ ∃ r₁ r₂, r = r₁ ++ r₂ ∧ List.Forall₂ R l r₁ ∧ List.Forall₂ R m r₂ := by
  constructor
  · intro h
    induction l generalizing r with
    | nil => exact ⟨[], r, rfl, List.Forall₂.nil, h⟩
    | cons a l ih =>
        rw [List.cons_append, List.forall₂_cons_left_iff] at h
        rcases h with ⟨b, r', hab, hrest, rfl⟩
        rcases ih r' hrest with ⟨r₁, r₂, rfl, h₁, h₂⟩
        exact ⟨b :: r₁, r₂, rfl, List.Forall₂.cons hab h₁, h₂⟩
  · rintro ⟨r₁, r₂, rfl, h₁, h₂⟩
    exact List.rel_append h₁ h₂

/-- A list fails by its first element that does. -/
theorem mapM_eq_error_iff (f : α → Except ε β) (l : List α) (fault : ε) :
    l.mapM f = .error fault ↔ ∃ before a after, l = before ++ a :: after ∧
      (∀ c ∈ before, ∃ b, f c = .ok b) ∧ f a = .error fault := by
  induction l with
  | nil =>
      refine iff_of_false (by rw [List.mapM_nil]; exact pure_ne_error [] fault) ?_
      rintro ⟨before, a, after, h, -⟩
      exact absurd h.symm (List.append_ne_nil_of_right_ne_nil _ (List.cons_ne_nil _ _))
  | cons c l ih =>
      simp only [List.mapM_cons, bind_eq_error_iff, pure_ne_error, and_false, exists_false,
        or_false, ih]
      constructor
      · rintro (hc | ⟨b, hc, before, a, after, rfl, hbefore, ha⟩)
        · exact ⟨[], c, l, rfl, fun d hd => absurd hd List.not_mem_nil, hc⟩
        · refine ⟨c :: before, a, after, rfl, fun d hd => ?_, ha⟩
          rcases List.mem_cons.mp hd with rfl | hd
          · exact ⟨b, hc⟩
          · exact hbefore d hd
      · rintro ⟨_ | ⟨d, before⟩, a, after, hl, hbefore, ha⟩
        · rw [List.nil_append, List.cons.injEq] at hl
          rw [← hl.1] at ha
          exact Or.inl ha
        · rw [List.cons_append, List.cons.injEq] at hl
          rcases hbefore d List.mem_cons_self with ⟨b, hb⟩
          rw [← hl.1] at hb
          exact Or.inr ⟨b, hb, before, a, after, hl.2,
            fun e he => hbefore e (List.mem_cons_of_mem d he), ha⟩

/-- A list succeeds when each of its elements does. -/
theorem exists_mapM_iff (f : α → Except ε β) (l : List α) :
    (∃ r, l.mapM f = .ok r) ↔ ∀ a ∈ l, ∃ b, f a = .ok b := by
  constructor
  · rintro ⟨r, hr⟩
    rw [mapM_eq_ok_iff] at hr
    induction hr with
    | nil => intro a ha; exact absurd ha List.not_mem_nil
    | cons hab _ ih =>
        intro a ha
        rcases List.mem_cons.mp ha with rfl | ha
        · exact ⟨_, hab⟩
        · exact ih a ha
  · intro h
    rcases hl : l.mapM f with fault | r
    · rcases (mapM_eq_error_iff f l fault).mp hl with ⟨before, a, after, rfl, _, ha⟩
      rcases h a (List.mem_append_right _ List.mem_cons_self) with ⟨b, hb⟩
      exact absurd (ha.symm.trans hb) (error_ne_ok _ _)
    · exact ⟨r, rfl⟩

end Outcome

end Captions
