import PathQuery.Error

/-!
# Computations that leave a trail

A computation ends with a value or an error, and what it noted on the way is kept in both cases.
The trail of a sequence is the trail of its first part followed by that of the second, which runs
only if the first succeeds.
-/

set_option autoImplicit false

namespace PathQuery

structure Traced (ε α : Type) where
  trail : List ε
  result : Except Error α

namespace Traced

variable {α β ε δ : Type}

@[ext] theorem ext {x y : Traced ε α} (trail : x.trail = y.trail) (result : x.result = y.result) :
    x = y := by
  cases x; cases y; simp_all

def fail (error : Error) : Traced ε α := ⟨[], .error error⟩

def ofExcept (result : Except Error α) : Traced ε α := ⟨[], result⟩

def note (entry : ε) : Traced ε Unit := ⟨[entry], .ok ()⟩

def bind (x : Traced ε α) (f : α → Traced ε β) : Traced ε β :=
  match x.result with
  | .ok a =>
    let y := f a
    ⟨x.trail ++ y.trail, y.result⟩
  | .error error => ⟨x.trail, .error error⟩

instance : Monad (Traced ε) where
  pure a := ⟨[], .ok a⟩
  bind := bind

/-- Renames the entries of the trail. -/
def mapTrail (f : ε → δ) (x : Traced ε α) : Traced δ α := ⟨x.trail.map f, x.result⟩

/-- Turns the error of a failed computation into another outcome. -/
def catchError (x : Traced ε α) (f : Error → Traced ε α) : Traced ε α :=
  match x.result with
  | .ok _ => x
  | .error error =>
    let y := f error
    ⟨x.trail ++ y.trail, y.result⟩

/-- Whether all items pass, tested up to the first that does not. -/
def allM (test : α → Traced ε Bool) : List α → Traced ε Bool
  | [] => return true
  | item :: rest => do
    if ← test item then allM test rest else return false

/-- Whether some item passes, tested up to the first that does. -/
def anyM (test : α → Traced ε Bool) : List α → Traced ε Bool
  | [] => return false
  | item :: rest => do
    if ← test item then return true else anyM test rest

def filterM (test : α → Traced ε Bool) : List α → Traced ε (List α)
  | [] => return []
  | item :: rest => do
    let passes ← test item
    let others ← filterM test rest
    return if passes then item :: others else others

@[simp] theorem trail_pure (a : α) : (Pure.pure a : Traced ε α).trail = [] := rfl

@[simp] theorem result_pure (a : α) : (Pure.pure a : Traced ε α).result = .ok a := rfl

@[simp] theorem trail_fail (error : Error) : (fail error : Traced ε α).trail = [] := rfl

@[simp] theorem result_fail (error : Error) : (fail error : Traced ε α).result = .error error := rfl

@[simp] theorem trail_note (entry : ε) : (note entry).trail = [entry] := rfl

@[simp] theorem result_note (entry : ε) : (note entry).result = .ok () := rfl

theorem bind_of_ok {x : Traced ε α} {a : α} (h : x.result = .ok a) (f : α → Traced ε β) :
    x >>= f = ⟨x.trail ++ (f a).trail, (f a).result⟩ := by
  simp [Bind.bind, bind, h]

theorem bind_of_error {x : Traced ε α} {error : Error} (h : x.result = .error error)
    (f : α → Traced ε β) : x >>= f = ⟨x.trail, .error error⟩ := by
  simp [Bind.bind, bind, h]

@[simp] theorem result_bind (x : Traced ε α) (f : α → Traced ε β) :
    (x >>= f).result = x.result.bind fun a => (f a).result := by
  cases h : x.result with
  | ok a => simp [bind_of_ok h, Except.bind]
  | error error => simp [bind_of_error h, Except.bind]

@[simp] theorem pure_bind (a : α) (f : α → Traced ε β) : Pure.pure a >>= f = f a := by
  rw [bind_of_ok (result_pure a)]
  rfl

@[simp] theorem map_id (x : Traced ε α) : id <$> x = x := by
  cases h : x.result <;> ext1 <;> simp [Functor.map, bind, h]

theorem bind_assoc (x : Traced ε α) (f : α → Traced ε β) (g : β → Traced ε δ) :
    x >>= f >>= g = x >>= fun a => f a >>= g := by
  obtain ⟨trail, result⟩ := x
  cases result with
  | error error => rfl
  | ok a =>
    cases h : (f a).result with
    | error error => simp [Bind.bind, bind, h]
    | ok b => simp [Bind.bind, bind, h]

instance : LawfulMonad (Traced ε) :=
  LawfulMonad.mk' (Traced ε) map_id pure_bind bind_assoc

end Traced

end PathQuery
