/-!
# Lists of named entries

A list of pairs in which `set` keeps names distinct: a new name goes to the end, a name that is
already there keeps its place and takes the new value.
-/

set_option autoImplicit false

namespace PathQuery.Keyed

variable {α : Type}

def set (name : String) (value : α) : List (String × α) → List (String × α)
  | [] => [(name, value)]
  | (other, old) :: rest =>
    if other = name then (other, value) :: rest else (other, old) :: set name value rest

/-- Enters the pairs one after another. -/
def ofList (pairs : List (String × α)) : List (String × α) :=
  pairs.foldl (fun entries pair => set pair.1 pair.2 entries) []

def names (entries : List (String × α)) : List String :=
  entries.map Prod.fst

theorem names_set (name : String) (value : α) (entries : List (String × α)) :
    names (set name value entries) =
      if name ∈ names entries then names entries else names entries ++ [name] := by
  induction entries with
  | nil => simp [set, names]
  | cons entry rest ih =>
    obtain ⟨other, old⟩ := entry
    by_cases h : other = name
    · simp [set, names, h]
    · have ih' : List.map Prod.fst (set name value rest) =
          if name ∈ rest.map Prod.fst then rest.map Prod.fst else rest.map Prod.fst ++ [name] := ih
      have hne : name ≠ other := fun e => h e.symm
      simp only [set, names, if_neg h, List.map_cons, ih', List.mem_cons, hne, false_or]
      split <;> simp

theorem nodup_set {entries : List (String × α)} (h : (names entries).Nodup) (name : String)
    (value : α) : (names (set name value entries)).Nodup := by
  rw [names_set]
  split
  · exact h
  · next hmem =>
    rw [List.nodup_append]
    refine ⟨h, by simp, ?_⟩
    intro a ha b hb
    rw [List.mem_singleton] at hb
    subst hb
    exact fun e => hmem (e ▸ ha)

theorem nodup_ofList (pairs : List (String × α)) : (names (ofList pairs)).Nodup := by
  suffices h : ∀ entries : List (String × α), (names entries).Nodup →
      (names (pairs.foldl (fun entries pair => set pair.1 pair.2 entries) entries)).Nodup from
    h [] (by simp [names])
  induction pairs with
  | nil => exact fun _ h => h
  | cons pair rest ih => exact fun entries h => ih _ (nodup_set h pair.1 pair.2)

end PathQuery.Keyed
