import PathQuery.Traced

/-!
# Computations that go on together

Some entries of a trail are waits. Computations that go on together take turns there: each goes on to
its next wait, one after another in their order, and when all of them wait or are done they wait
together. The first one in time that fails makes all of them fail at once.
-/

set_option autoImplicit false

namespace PathQuery.Traced

variable {ε α β γ : Type}

def behind (entry : ε) (x : Traced ε α) : Traced ε α := ⟨entry :: x.trail, x.result⟩

/-- Goes on to the next wait of a trail while something else waits, and then on with both. -/
def meanwhile (waits : ε → Bool) (wait : ε) (goOn : List ε → Traced ε γ) (result : Except Error β) :
    List ε → Traced ε γ
  | [] =>
    match result with
    | .ok _ => (goOn []).behind wait
    | .error error => fail error
  | entry :: rest =>
    if waits entry then (goOn rest).behind wait
    else (meanwhile waits wait goOn result rest).behind entry

/-- Two trails that take turns at their waits, and what comes of them. -/
def takeTurns (waits : ε → Bool) (x : Except Error α) (y : Except Error β) :
    List ε → List ε → Traced ε (α × β)
  | [], others =>
    match x with
    | .ok a => ⟨others, y.map fun b => (a, b)⟩
    | .error error => fail error
  | entry :: rest, others =>
    if waits entry then meanwhile waits entry (takeTurns waits x y rest) y others
    else (takeTurns waits x y rest others).behind entry

def alongside (waits : ε → Bool) (x : Traced ε α) (y : Traced ε β) : Traced ε (α × β) :=
  takeTurns waits x.result y.result x.trail y.trail

/-- The values keep the order of the computations. -/
def together (waits : ε → Bool) : List (Traced ε α) → Traced ε (List α)
  | [] => return []
  | first :: rest =>
    (fun values => values.1 :: values.2) <$> first.alongside waits (together waits rest)

end PathQuery.Traced
