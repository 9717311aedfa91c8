import Mathlib.Data.List.Forall2
import PathQuery.Traced

/-!
# Outcomes of sequences

When a sequence of computations succeeds, each of its parts has; when it fails, the first part that
failed gives its error. `Except.Meets` says in what values and in which errors a computation can
end, and sequences keep it.
-/

set_option autoImplicit false

/-- Of two lists that are related one by one each item has its counterpart. -/
theorem List.Forall₂.exists_of_mem {α β : Type} {related : α → β → Prop} {as : List α} {bs : List β}
    {b : β} (h : Forall₂ related as bs) (hb : b ∈ bs) : ∃ a ∈ as, related a b := by
  induction h with
  | nil => cases hb
  | cons hfirst _ ih =>
    rcases mem_cons.mp hb with rfl | hb
    · exact ⟨_, mem_cons_self, hfirst⟩
    · obtain ⟨a, ha, hrelated⟩ := ih hb
      exact ⟨a, mem_cons_of_mem _ ha, hrelated⟩

namespace Except

variable {ε α β : Type}

theorem bind_eq_ok_iff {x : Except ε α} {f : α → Except ε β} {b : β} :
    x.bind f = .ok b ↔ ∃ a, x = .ok a ∧ f a = .ok b := by
  cases x with
  | error e => simp [Except.bind]
  | ok a => simp [Except.bind]

theorem map_eq_ok_iff {x : Except ε α} {f : α → β} {b : β} :
    x.map f = .ok b ↔ ∃ a, x = .ok a ∧ f a = b := by
  cases x with
  | error e => simp [Except.map]
  | ok a => simp [Except.map]

theorem map_eq_error_iff {x : Except ε α} {f : α → β} {e : ε} :
    x.map f = .error e ↔ x = .error e := by
  cases x with
  | error e' => simp [Except.map]
  | ok a => simp [Except.map]

@[simp] theorem ok_bind (a : α) (f : α → Except ε β) : (Except.ok a).bind f = f a := rfl

@[simp] theorem error_bind (e : ε) (f : α → Except ε β) : (Except.error e).bind f = .error e := rfl

theorem map_map {γ : Type} (x : Except ε α) (f : α → β) (g : β → γ) :
    (x.map f).map g = x.map fun a => g (f a) := by
  cases x <;> rfl

theorem map_bind {γ : Type} (x : Except ε α) (f : α → Except ε β) (g : β → γ) :
    (x.bind f).map g = x.bind fun a => (f a).map g := by
  cases x <;> rfl

theorem bind_unit_eq_ok_iff {x : Except ε Unit} {y : Except ε β} {b : β} :
    (x.bind fun _ => y) = .ok b ↔ x = .ok () ∧ y = .ok b := by
  rw [bind_eq_ok_iff]
  constructor
  · rintro ⟨_, hx, hy⟩
    exact ⟨hx, hy⟩
  · rintro ⟨hx, hy⟩
    exact ⟨(), hx, hy⟩

/-- Of a first part whose value is not used, only the success counts. -/
theorem bind_const (x : Except ε α) (y : Except ε β) :
    (x.bind fun _ => y) = (x.map fun _ => ()).bind fun _ => y := by
  cases x <;> rfl

/-- Ends with a value that is good, or with an error that is fine. -/
def Meets (good : α → Prop) (fine : ε → Prop) : Except ε α → Prop
  | .ok a => good a
  | .error e => fine e

namespace Meets

variable {good : α → Prop} {fine : ε → Prop} {x : Except ε α}

theorem iff : x.Meets good fine ↔ (∀ a, x = .ok a → good a) ∧ ∀ e, x = .error e → fine e := by
  cases x with
  | error e => simp [Meets]
  | ok a => simp [Meets]

theorem good_of (h : x.Meets good fine) {a : α} (hx : x = .ok a) : good a :=
  (iff.mp h).1 a hx

theorem fine_of (h : x.Meets good fine) {e : ε} (hx : x = .error e) : fine e :=
  (iff.mp h).2 e hx

theorem bind {good' : β → Prop} {f : α → Except ε β} (h : x.Meets good fine)
    (hf : ∀ a, x = .ok a → good a → (f a).Meets good' fine) : (x.bind f).Meets good' fine := by
  cases x with
  | error e => exact h
  | ok a => exact hf a rfl h

theorem map {good' : β → Prop} {f : α → β} (h : x.Meets good fine)
    (hf : ∀ a, x = .ok a → good a → good' (f a)) : (x.map f).Meets good' fine := by
  cases x with
  | error e => exact h
  | ok a => exact hf a rfl h

theorem mono {good' : α → Prop} (h : x.Meets good fine)
    (hgood : ∀ a, x = .ok a → good a → good' a) : x.Meets good' fine := by
  cases x with
  | error e => exact h
  | ok a => exact hgood a rfl h

end Meets

theorem forM_eq_ok_iff {f : α → Except ε Unit} {items : List α} :
    items.forM f = .ok () ↔ ∀ item ∈ items, f item = .ok () := by
  induction items with
  | nil => exact iff_of_true rfl nofun
  | cons first rest ih =>
    rw [List.forall_mem_cons, ← ih]
    exact bind_unit_eq_ok_iff

/-! ## Sequences -/

theorem mapM_cons (f : α → Except ε β) (a : α) (as : List α) :
    (a :: as).mapM f = (f a).bind fun b => (as.mapM f).map fun bs => b :: bs := by
  rw [List.mapM_cons]
  cases f a with
  | error e => rfl
  | ok b => cases as.mapM f <;> rfl

theorem mapM_congr {f g : α → Except ε β} {as : List α} (h : ∀ a ∈ as, f a = g a) :
    as.mapM f = as.mapM g := by
  induction as with
  | nil => rfl
  | cons first rest ih =>
    obtain ⟨hfirst, hrest⟩ := List.forall_mem_cons.mp h
    rw [mapM_cons, mapM_cons, hfirst, ih hrest]

theorem mapM_eq_map {f : α → Except ε β} {g : α → β} {as : List α}
    (h : ∀ a ∈ as, f a = .ok (g a)) : as.mapM f = .ok (as.map g) :=
  (mapM_congr h).trans List.mapM_pure

theorem exists_mapM_eq_ok_iff {f : α → Except ε β} {as : List α} :
    (∃ bs, as.mapM f = .ok bs) ↔ ∀ a ∈ as, ∃ b, f a = .ok b := by
  induction as with
  | nil => exact iff_of_true ⟨[], rfl⟩ nofun
  | cons first rest ih =>
    rw [List.forall_mem_cons, ← ih, mapM_cons]
    constructor
    · rintro ⟨bs, h⟩
      obtain ⟨b, hb, h⟩ := bind_eq_ok_iff.mp h
      obtain ⟨others, hothers, _⟩ := map_eq_ok_iff.mp h
      exact ⟨⟨b, hb⟩, others, hothers⟩
    · rintro ⟨⟨b, hb⟩, others, hothers⟩
      exact ⟨b :: others, by rw [hb, hothers]; rfl⟩

/-- Each item has its value. -/
theorem mapM_eq_ok_iff {f : α → Except ε β} {as : List α} {bs : List β} :
    as.mapM f = .ok bs ↔ List.Forall₂ (fun a b => f a = .ok b) as bs := by
  induction as generalizing bs with
  | nil =>
    rw [List.forall₂_nil_left_iff]
    exact ⟨fun h => by cases h; rfl, fun h => by rw [h]; rfl⟩
  | cons first rest ih =>
    rw [mapM_cons, List.forall₂_cons_left_iff]
    constructor
    · intro h
      obtain ⟨b, hb, h⟩ := bind_eq_ok_iff.mp h
      obtain ⟨others, hothers, rfl⟩ := map_eq_ok_iff.mp h
      exact ⟨b, others, hb, ih.mp hothers, rfl⟩
    · rintro ⟨b, others, hb, hothers, rfl⟩
      rw [hb, ih.mpr hothers]
      rfl

/-- Which computation fails first does not depend on what is made of the values. -/
theorem mapM_map_ignored {γ : Type} (f : α → Except ε β) (g : α → β → γ) (as : List α) :
    ((as.mapM fun a => (f a).map (g a)).map fun _ => ()) = (as.mapM f).map fun _ => () := by
  induction as with
  | nil => rfl
  | cons first rest ih =>
    rw [mapM_cons, mapM_cons]
    cases f first with
    | error e => rfl
    | ok b =>
      change ((rest.mapM fun a => (f a).map (g a)).map _).map _ = ((rest.mapM f).map _).map _
      rw [map_map, map_map, ih]

/-- Both succeed with values that are alike, or both fail with the same error. -/
inductive Agree (like : α → β → Prop) : Except ε α → Except ε β → Prop where
  | ok {a : α} {b : β} : like a b → Agree like (.ok a) (.ok b)
  | error (e : ε) : Agree like (.error e) (.error e)

theorem Agree.eq_self (x : Except ε α) : Agree (· = ·) x x := by
  cases x with
  | ok a => exact .ok rfl
  | error e => exact .error e

theorem Agree.eq {x y : Except ε α} (h : Agree (· = ·) x y) : x = y := by
  cases h with
  | ok heq => exact congrArg Except.ok heq
  | error e => rfl

theorem Agree.imp {like like' : α → β → Prop} {x : Except ε α} {y : Except ε β}
    (h : Agree like x y) (himp : ∀ a b, like a b → like' a b) : Agree like' x y := by
  cases h with
  | ok hlike => exact .ok (himp _ _ hlike)
  | error e => exact .error e

theorem Agree.bind {γ δ : Type} {like : α → β → Prop} {like' : γ → δ → Prop} {x : Except ε α}
    {y : Except ε β} (h : Agree like x y) {f : α → Except ε γ} {g : β → Except ε δ}
    (hfg : ∀ a b, like a b → Agree like' (f a) (g b)) : Agree like' (x.bind f) (y.bind g) := by
  cases h with
  | ok hlike => exact hfg _ _ hlike
  | error e => exact .error e

theorem Agree.map {γ δ : Type} {like : α → β → Prop} {like' : γ → δ → Prop} {x : Except ε α}
    {y : Except ε β} (h : Agree like x y) {f : α → γ} {g : β → δ}
    (hfg : ∀ a b, like a b → like' (f a) (g b)) : Agree like' (x.map f) (y.map g) := by
  cases h with
  | ok hlike => exact .ok (hfg _ _ hlike)
  | error e => exact .error e

theorem Agree.symm {like : α → β → Prop} {x : Except ε α} {y : Except ε β} (h : Agree like x y) :
    Agree (fun b a => like a b) y x := by
  cases h with
  | ok hlike => exact .ok hlike
  | error e => exact .error e

theorem Agree.eq_error {like : α → β → Prop} {x : Except ε α} {y : Except ε β}
    (h : Agree like x y) {e : ε} (hx : x = .error e) : y = .error e := by
  cases h with
  | ok _ => cases hx
  | error e' => exact congrArg Except.error (Except.error.inj hx)

theorem Agree.bind_eq {γ : Type} {like : α → β → Prop} {x : Except ε α} {y : Except ε β}
    (h : Agree like x y) {f : α → Except ε γ} {g : β → Except ε γ}
    (hfg : ∀ a b, like a b → g b = f a) : y.bind g = x.bind f := by
  cases h with
  | ok hlike => exact hfg _ _ hlike
  | error e => rfl

theorem Agree.map_eq {γ : Type} {like : α → β → Prop} {x : Except ε α} {y : Except ε β}
    (h : Agree like x y) {f : α → γ} {g : β → γ} (hfg : ∀ a b, like a b → g b = f a) :
    y.map g = x.map f := by
  cases h with
  | ok hlike => exact congrArg Except.ok (hfg _ _ hlike)
  | error e => rfl

end Except

namespace PathQuery.Traced

variable {α β ε δ : Type}

@[simp] theorem result_ofExcept (x : Except Error α) : (ofExcept x : Traced ε α).result = x := rfl

theorem ofExcept_ok_bind (a : α) (f : α → Traced ε β) : ofExcept (.ok a) >>= f = f a :=
  pure_bind a f

theorem ofExcept_bind (x : Except Error α) (f : α → Except Error β) :
    (ofExcept (x.bind f) : Traced ε β) = ofExcept x >>= fun a => ofExcept (f a) := by
  cases x <;> rfl

/-- What follows only matters for the value of a success. -/
theorem bind_congr_of_ok {x : Traced ε α} {f g : α → Traced ε β}
    (h : ∀ a, x.result = .ok a → f a = g a) : x >>= f = x >>= g := by
  cases hx : x.result with
  | ok a => rw [bind_of_ok hx, bind_of_ok hx, h a hx]
  | error e => rw [bind_of_error hx, bind_of_error hx]

@[simp] theorem result_mapTrail (f : ε → δ) (x : Traced ε α) : (x.mapTrail f).result = x.result :=
  rfl

@[simp] theorem result_map (f : α → β) (x : Traced ε α) : (f <$> x).result = x.result.map f := by
  rw [map_eq_pure_bind, result_bind]
  cases x.result <;> rfl

theorem result_mapM_cons (f : α → Traced ε β) (a : α) (as : List α) :
    ((a :: as).mapM f).result =
      (f a).result.bind fun b => (as.mapM f).result.map fun bs => b :: bs := by
  simp only [List.mapM_cons, bind_pure_comp, result_bind, result_map]

theorem result_mapM (f : α → Traced ε β) (as : List α) :
    (as.mapM f).result = as.mapM fun a => (f a).result := by
  induction as with
  | nil => rfl
  | cons first rest ih => rw [result_mapM_cons, ih, Except.mapM_cons]

theorem result_mapM_eq_filterMap {f : α → Traced ε β} {items : List α}
    (h : ∀ item ∈ items, ∃ b, (f item).result = .ok b) :
    (items.mapM f).result = .ok (items.filterMap fun item => (f item).result.toOption) := by
  induction items with
  | nil => rfl
  | cons first rest ih =>
    obtain ⟨⟨b, hb⟩, hrest⟩ := List.forall_mem_cons.mp h
    rw [result_mapM_cons, hb, ih hrest, List.filterMap_cons, hb]
    rfl

theorem exists_of_mem_mapM {f : α → Traced ε β} {as : List α} {bs : List β} {b : β}
    (h : (as.mapM f).result = .ok bs) (hb : b ∈ bs) : ∃ a ∈ as, (f a).result = .ok b := by
  rw [result_mapM] at h
  exact (Except.mapM_eq_ok_iff.mp h).exists_of_mem hb

/-! ## Failures that are looked at -/

/-- A computation whose failure can be looked at. -/
def attempt (x : Traced ε α) : Traced ε (Except Error α) :=
  ⟨x.trail, .ok x.result⟩

theorem catchError_eq (x : Traced ε α) (f : Error → Traced ε α) :
    x.catchError f = x.attempt >>= fun outcome =>
      match outcome with
      | .ok a => Pure.pure a
      | .error error => f error := by
  obtain ⟨trail, result⟩ := x
  cases result with
  | ok a =>
    ext1
    · exact (List.append_nil trail).symm
    · rfl
  | error error => rfl

theorem attempt_map (f : α → β) (x : Traced ε α) :
    (f <$> x).attempt = Except.map f <$> x.attempt := by
  obtain ⟨trail, result⟩ := x
  cases result with
  | ok a => rfl
  | error error => exact congrArg (Traced.mk · _) (List.append_nil trail).symm

end PathQuery.Traced
