import Mathlib.Data.List.Induction
import PathQuery.Keyed

/-!
# What a keyed list holds

Of pairs that repeat a name the last one counts (`lookup_ofList`), nothing is made up
(`mem_of_mem_ofList`), and the values may be changed before or after (`ofList_mapValues`).
-/

set_option autoImplicit false

namespace PathQuery.Keyed

variable {α β : Type}

theorem mem_of_lookup {entries : List (String × α)} {name : String} {value : α}
    (h : entries.lookup name = some value) : (name, value) ∈ entries := by
  obtain ⟨before, after, rfl, _⟩ := List.lookup_eq_some_iff.mp h
  simp

theorem lookup_isSome_iff_mem {entries : List (String × α)} {name : String} :
    (entries.lookup name).isSome ↔ name ∈ names entries := by
  rw [List.lookup_isSome_iff, names, List.mem_map]
  refine exists_congr fun entry => and_congr_right fun _ => ?_
  rw [beq_iff_eq]
  exact eq_comm

theorem lookup_cons_if (entry : String × α) (rest : List (String × α)) (name : String) :
    (entry :: rest).lookup name = if name = entry.1 then some entry.2 else rest.lookup name := by
  obtain ⟨other, value⟩ := entry
  by_cases h : name = other
  · subst h
    simp
  · rw [List.lookup_cons, beq_false_of_ne h, if_neg h]

/-- Among distinct names every entry is found. -/
theorem lookup_of_mem {entries : List (String × α)} (h : (names entries).Nodup)
    {entry : String × α} (hentry : entry ∈ entries) :
    entries.lookup entry.1 = some entry.2 := by
  induction entries with
  | nil => cases hentry
  | cons first rest ih =>
    obtain ⟨hfirst, hrest⟩ := List.nodup_cons.mp h
    rw [lookup_cons_if]
    rcases List.mem_cons.mp hentry with rfl | hmem
    · exact if_pos rfl
    · rw [if_neg, ih hrest hmem]
      intro heq
      exact hfirst (heq ▸ List.mem_map_of_mem hmem)

theorem lookup_set (name other : String) (value : α) (entries : List (String × α)) :
    (set name value entries).lookup other =
      if other = name then some value else entries.lookup other := by
  induction entries with
  | nil => exact lookup_cons_if (name, value) [] other
  | cons entry rest ih =>
    obtain ⟨first, old⟩ := entry
    by_cases hf : first = name
    · subst hf
      rw [set, if_pos rfl, lookup_cons_if, lookup_cons_if]
      split <;> rfl
    · rw [set, if_neg hf, lookup_cons_if, lookup_cons_if, ih]
      by_cases h : other = first
      · subst h
        rw [if_pos rfl, if_neg hf, if_pos rfl]
      · rw [if_neg h, if_neg h]

theorem mem_of_mem_set {name : String} {value : α} {entries : List (String × α)}
    {entry : String × α} (h : entry ∈ set name value entries) :
    entry = (name, value) ∨ entry ∈ entries := by
  induction entries with
  | nil => exact .inl (List.mem_singleton.mp h)
  | cons first rest ih =>
    obtain ⟨other, old⟩ := first
    rw [set] at h
    split at h
    · next hname =>
      rcases List.mem_cons.mp h with rfl | h
      · exact .inl (by rw [hname])
      · exact .inr (List.mem_cons_of_mem _ h)
    · rcases List.mem_cons.mp h with rfl | h
      · exact .inr List.mem_cons_self
      · exact (ih h).imp_right (List.mem_cons_of_mem _)

theorem ofList_concat (pairs : List (String × α)) (pair : String × α) :
    ofList (pairs ++ [pair]) = set pair.1 pair.2 (ofList pairs) := by
  simp [ofList]

theorem lookup_ofList (pairs : List (String × α)) (name : String) :
    (ofList pairs).lookup name = pairs.reverse.lookup name := by
  induction pairs using List.reverseRecOn with
  | nil => rfl
  | append_singleton pairs pair ih =>
    rw [ofList_concat, lookup_set, List.reverse_concat, lookup_cons_if, ih]

theorem mem_of_mem_ofList {pairs : List (String × α)} {entry : String × α}
    (h : entry ∈ ofList pairs) : entry ∈ pairs := by
  induction pairs using List.reverseRecOn with
  | nil => cases h
  | append_singleton pairs pair ih =>
    rw [ofList_concat] at h
    rcases mem_of_mem_set h with rfl | h
    · exact List.mem_append_right _ List.mem_cons_self
    · exact List.mem_append_left _ (ih h)

theorem mem_names_ofList (pairs : List (String × α)) (name : String) :
    name ∈ names (ofList pairs) ↔ name ∈ pairs.map Prod.fst := by
  rw [← lookup_isSome_iff_mem, lookup_ofList, lookup_isSome_iff_mem, names, List.map_reverse,
    List.mem_reverse]

/-! ## Changing the values -/

theorem lookup_mapValues (f : α → β) (entries : List (String × α)) (name : String) :
    (entries.map fun entry => (entry.1, f entry.2)).lookup name = (entries.lookup name).map f := by
  induction entries with
  | nil => rfl
  | cons entry rest ih =>
    rw [List.map_cons, List.lookup_cons, List.lookup_cons, ih]
    split <;> rfl

theorem set_mapValues (f : α → β) (name : String) (value : α) (entries : List (String × α)) :
    (set name value entries).map (fun entry => (entry.1, f entry.2)) =
      set name (f value) (entries.map fun entry => (entry.1, f entry.2)) := by
  induction entries with
  | nil => rfl
  | cons entry rest ih =>
    obtain ⟨other, old⟩ := entry
    by_cases h : other = name
    · simp [set, h]
    · simp [set, h, ih]

theorem ofList_mapValues (f : α → β) (pairs : List (String × α)) :
    (ofList pairs).map (fun entry => (entry.1, f entry.2)) =
      ofList (pairs.map fun entry => (entry.1, f entry.2)) := by
  induction pairs using List.reverseRecOn with
  | nil => rfl
  | append_singleton pairs pair ih =>
    rw [ofList_concat, set_mapValues, ih, List.map_append, List.map_singleton, ofList_concat]

end PathQuery.Keyed
