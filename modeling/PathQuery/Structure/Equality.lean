import PathQuery.Structure.Basic

/-!
# Equality of structures

Structures have a decidable equality. `anonymous` forgets the identities, so that two structures
with the same anonymous form are equal node for node.
-/

set_option autoImplicit false

namespace PathQuery.Structure

mutual

def identical : Structure → Structure → Bool
  | root as, root bs => identicalEntries as bs
  | object l n ps as, object l' n' ps' bs =>
    decide (l = l' ∧ n = n' ∧ ps = ps') && identicalProperties as bs
  | typeAlias l n ps a, typeAlias l' n' ps' b =>
    decide (l = l' ∧ n = n' ∧ ps = ps') && identical a b
  | ref l t as, ref l' t' bs => decide (l = l' ∧ t = t') && identicalAll as bs
  | union l as, union l' bs => decide (l = l') && identicalAll as bs
  | array l a, array l' b => decide (l = l') && identical a b
  | nullable l a, nullable l' b => decide (l = l') && identical a b
  | function l a r, function l' b r' => decide (l = l') && identical a b && identical r r'
  | arguments l as, arguments l' bs => decide (l = l') && identicalProperties as bs
  | primitive l t, primitive l' t' => decide (l = l' ∧ t = t')
  | literal l v, literal l' v' => decide (l = l' ∧ v = v')
  | _, _ => false

def identicalAll : List Structure → List Structure → Bool
  | [], [] => true
  | a :: as, b :: bs => identical a b && identicalAll as bs
  | _, _ => false

def identicalProperties : List (Property Structure) → List (Property Structure) → Bool
  | [], [] => true
  | ⟨m, a, o⟩ :: as, ⟨n, b, o'⟩ :: bs =>
    decide (m = n) && identical a b && decide (o = o') && identicalProperties as bs
  | _, _ => false

def identicalEntries : List (String × Structure) → List (String × Structure) → Bool
  | [], [] => true
  | (m, a) :: as, (n, b) :: bs => decide (m = n) && identical a b && identicalEntries as bs
  | _, _ => false

end

mutual

theorem identical_iff (a b : Structure) : identical a b = true ↔ a = b := by
  cases a <;> cases b <;>
    simp [identical, identical_iff, identicalAll_iff, identicalProperties_iff,
      identicalEntries_iff, and_assoc]
termination_by structural a

theorem identicalAll_iff (as bs : List Structure) : identicalAll as bs = true ↔ as = bs := by
  cases as <;> cases bs <;> simp [identicalAll, identical_iff, identicalAll_iff]
termination_by structural as

theorem identicalProperties_iff (as bs : List (Property Structure)) :
    identicalProperties as bs = true ↔ as = bs := by
  cases as with
  | nil => cases bs <;> simp [identicalProperties]
  | cons a as =>
    obtain ⟨m, a, o⟩ := a
    cases bs with
    | nil => simp [identicalProperties]
    | cons b bs =>
      obtain ⟨n, b, o'⟩ := b
      simp [identicalProperties, identical_iff, identicalProperties_iff, and_assoc]
termination_by structural as

theorem identicalEntries_iff (as bs : List (String × Structure)) :
    identicalEntries as bs = true ↔ as = bs := by
  cases as with
  | nil => cases bs <;> simp [identicalEntries]
  | cons a as =>
    obtain ⟨m, a⟩ := a
    cases bs with
    | nil => simp [identicalEntries]
    | cons b bs =>
      obtain ⟨n, b⟩ := b
      simp [identicalEntries, identical_iff, identicalEntries_iff]
termination_by structural as

end

instance : DecidableEq Structure := fun a b => decidable_of_iff _ (identical_iff a b)

mutual

/-- The structure with every identity forgotten. -/
def anonymous : Structure → Structure
  | root entries => root (anonymousEntries entries)
  | object label name parameters properties =>
    object { label with identity := 0 } name parameters (anonymousProperties properties)
  | typeAlias label name parameters body =>
    typeAlias { label with identity := 0 } name parameters (anonymous body)
  | ref label target typeArguments =>
    ref { label with identity := 0 } target (anonymousAll typeArguments)
  | union label members => union { label with identity := 0 } (anonymousAll members)
  | array label items => array { label with identity := 0 } (anonymous items)
  | nullable label inner => nullable { label with identity := 0 } (anonymous inner)
  | function label args returns =>
    function { label with identity := 0 } (anonymous args) (anonymous returns)
  | arguments label items => arguments { label with identity := 0 } (anonymousProperties items)
  | primitive label type => primitive { label with identity := 0 } type
  | literal label value => literal { label with identity := 0 } value

def anonymousAll : List Structure → List Structure
  | [] => []
  | s :: rest => anonymous s :: anonymousAll rest

def anonymousProperties : List (Property Structure) → List (Property Structure)
  | [] => []
  | ⟨name, shape, optional⟩ :: rest => ⟨name, anonymous shape, optional⟩ :: anonymousProperties rest

def anonymousEntries : List (String × Structure) → List (String × Structure)
  | [] => []
  | (name, s) :: rest => (name, anonymous s) :: anonymousEntries rest

end

@[simp] theorem kind_anonymous (s : Structure) : s.anonymous.kind = s.kind := by
  cases s <;> rfl

@[simp] theorem key_anonymous (s : Structure) : s.anonymous.key = s.key := by
  cases s <;> rfl

@[simp] theorem parameters_anonymous (s : Structure) : s.anonymous.parameters = s.parameters := by
  cases s <;> rfl

end PathQuery.Structure
