import PathQuery.Proofs.Schema.Chain
import PathQuery.Proofs.Schema.Occurrence

/-!
# Occurrences as the chain check reads them

The check has no scopes: it carries every type argument into the declaration that receives it, with
the parameters in it replaced. What it carries is the reading of the argument where it occurs
(`Declarations.Reads`), so that at every step into a declaration the bindings of the check hold the
readings of the lexical scope (`Declarations.Agrees`). Both chains end together
(`Agrees.halts_iff_ends`).
-/

set_option autoImplicit false

namespace PathQuery

namespace Keyed

variable {α β : Type}

/-- Two lists of values under the same keys: a name finds a pair of them, or nothing. -/
theorem lookup_ofList_zip (keys : List String) {as : List α} {bs : List β}
    (hlength : as.length = bs.length) (name : String) :
    (∃ a b, (a, b) ∈ as.zip bs ∧ (ofList (keys.zip as)).lookup name = some a ∧
        (ofList (keys.zip bs)).lookup name = some b) ∨
      (ofList (keys.zip as)).lookup name = none ∧ (ofList (keys.zip bs)).lookup name = none := by
  have hfirst : ofList (keys.zip as) =
      (ofList (keys.zip (as.zip bs))).map fun entry => (entry.1, entry.2.1) := by
    conv_lhs => rw [← List.map_fst_zip (Nat.le_of_eq hlength)]
    rw [List.zip_map_right, ofList_mapValues]
    rfl
  have hsecond : ofList (keys.zip bs) =
      (ofList (keys.zip (as.zip bs))).map fun entry => (entry.1, entry.2.2) := by
    conv_lhs => rw [← List.map_snd_zip (Nat.le_of_eq hlength.symm)]
    rw [List.zip_map_right, ofList_mapValues]
    rfl
  rw [hfirst, hsecond, lookup_mapValues (Prod.fst : α × β → α),
    lookup_mapValues (Prod.snd : α × β → β)]
  cases hfound : (ofList (keys.zip (as.zip bs))).lookup name with
  | none => exact .inr ⟨rfl, rfl⟩
  | some pair =>
    have hmem := mem_of_mem_ofList (mem_of_lookup hfound)
    exact .inl ⟨pair.1, pair.2, (List.of_mem_zip hmem).2, rfl, rfl⟩

end Keyed

namespace Structure

theorem anonymousEntries_eq_map (entries : List (String × Structure)) :
    anonymousEntries entries = entries.map fun entry => (entry.1, entry.2.anonymous) := by
  induction entries with
  | nil => rfl
  | cons entry rest ih =>
    obtain ⟨name, s⟩ := entry
    rw [anonymousEntries, ih]
    rfl

theorem lookup_anonymousEntries (entries : List (String × Structure)) (name : String) :
    (anonymousEntries entries).lookup name = (entries.lookup name).map anonymous := by
  rw [anonymousEntries_eq_map, Keyed.lookup_mapValues]

theorem anonymousAll_eq_map (structures : List Structure) :
    anonymousAll structures = structures.map anonymous := by
  induction structures with
  | nil => rfl
  | cons s rest ih => rw [anonymousAll, ih, List.map_cons]

theorem carryAll_eq_map (bindings : List (String × Structure)) (names : List String)
    (structures : List Structure) :
    carryAll bindings names structures = structures.map (carry bindings names) := by
  induction structures with
  | nil => rfl
  | cons s rest ih => rw [carryAll, ih, List.map_cons]

/-- What a reference applies its target to. -/
def typeArguments : Structure → List Structure
  | ref _ _ typeArguments => typeArguments
  | _ => []

theorem carry_of_kind {bindings : List (String × Structure)} {names : List String} {s : Structure}
    (h : s.kind ≠ .ref) : carry bindings names s = s := by
  cases s with
  | ref => exact absurd rfl h
  | _ => rfl

theorem unaliased_of_kind {s : Structure} (h : s.kind ≠ .typeAlias) : s.unaliased = s := by
  cases s with
  | typeAlias => exact absurd rfl h
  | _ => rfl

theorem unaliased_anonymous (s : Structure) : s.anonymous.unaliased = s.unaliased.anonymous := by
  induction s using unaliased.induct with
  | case1 label name parameters body ih => exact ih
  | case2 s hs =>
    cases s with
    | typeAlias => exact (hs _ _ _ _ rfl).elim
    | _ => rfl

/-- Leading aliases wrap nothing that was not inside already. -/
theorem unaliased_mem_parts (s : Structure) : s.unaliased ∈ s.parts := by
  induction s using unaliased.induct with
  | case1 label name parameters body ih => exact List.mem_cons_of_mem _ ih
  | case2 s hs =>
    rw [unaliased]
    · exact mem_parts_self s
    · exact hs

end Structure

namespace Declarations

open Structure (carry carryAll unaliased)

/-- No alias stands as a type argument, at any depth. -/
def PlainArguments (declarations : Declarations) : Prop :=
  ∀ entry ∈ declarations, ∀ part ∈ entry.2.parts, ∀ argument ∈ part.typeArguments,
    argument.kind ≠ .typeAlias

/-- An occurrence with the parameters of type arguments replaced by what they stand for, as the
check carries it: a parameter that stands for nothing reads as an object without properties, and
nothing is replaced below any other structure. -/
inductive Reads (declarations : Declarations) : Occurrence → Structure → Prop where
  | parameter {name : String} {label : Label} :
      Reads declarations (.parameter name) (.object label none [] [])
  | concrete {shape : Structure} {scope : List (String × Occurrence)}
      (ref : shape.kind ≠ .ref) (typeAlias : shape.kind ≠ .typeAlias) :
      Reads declarations (.written shape scope) shape.anonymous
  | argument {label : Label} {target : String} {typeArguments : List Structure}
      {scope : List (String × Occurrence)} {occurrence : Occurrence} {reading : Structure}
      (bound : scope.lookup target = some occurrence)
      (rest : Reads declarations occurrence reading) :
      Reads declarations (.written (.ref label target typeArguments) scope) reading
  | declaration {label : Label} {target : String} {typeArguments readings : List Structure}
      {scope : List (String × Occurrence)} {declaration : Structure}
      (free : scope.lookup target = none)
      (applied : declarations.applied label target typeArguments.length = .ok declaration)
      (length : typeArguments.length = readings.length)
      (arguments : ∀ pair ∈ (typeArguments.map fun s => Occurrence.written s scope).zip readings,
        Reads declarations pair.1 pair.2) :
      Reads declarations (.written (.ref label target typeArguments) scope)
        (.ref { label with identity := 0 } target readings)

variable {declarations : Declarations} {names parameters : List String}
  {scope : List (String × Occurrence)} {bindings : List (String × Structure)}
  {occurrence : Occurrence} {s reading : Structure} {steps : Nat}

/-- Nothing that is bound or opaque has the name of a declaration. -/
def Clear (declarations : Declarations) (names : List String)
    (bindings : List (String × Structure)) : Prop :=
  ∀ name ∈ Keyed.names declarations, bindings.lookup name = none ∧ name ∉ names

theorem mem_names_of_applied {label : Label} {target : String} {count : Nat}
    {declaration : Structure} (h : declarations.applied label target count = .ok declaration) :
    target ∈ Keyed.names declarations :=
  mem_names_of_lookup (applied_eq_ok_iff.mp h).1

namespace Reads

theorem kind_ne_typeAlias (h : declarations.Reads occurrence reading) :
    reading.kind ≠ .typeAlias := by
  induction h with
  | parameter => exact nofun
  | concrete _ halias => rwa [Structure.kind_anonymous]
  | argument _ _ ih => exact ih
  | declaration => exact nofun

/-- Carrying a reading on changes nothing. -/
theorem carry_eq (h : declarations.Reads occurrence reading)
    (hclear : declarations.Clear names bindings) : carry bindings names reading = reading := by
  induction h with
  | parameter => rfl
  | concrete href _ => exact Structure.carry_of_kind (by rwa [Structure.kind_anonymous])
  | argument _ _ ih => exact ih
  | @declaration label target typeArguments readings scope _ _ happlied hlength harguments ih =>
    obtain ⟨hfree, hname⟩ := hclear target (mem_names_of_applied happlied)
    rw [carry, hfree]
    dsimp only
    rw [if_neg hname, Structure.carryAll_eq_map]
    congr 1
    refine (List.map_congr_left fun argument hargument => ?_).trans (List.map_id _)
    rw [← List.map_snd_zip (by rw [List.length_map]; exact Nat.le_of_eq hlength.symm :
      readings.length ≤ (typeArguments.map fun s => Occurrence.written s scope).length)] at hargument
    obtain ⟨pair, hpair, rfl⟩ := List.mem_map.mp hargument
    exact ih pair hpair

/-- A reading that is a reference applies a declaration. -/
theorem mem_names {label : Label} {target : String} {readings : List Structure}
    (h : declarations.Reads occurrence (.ref label target readings)) :
    target ∈ Keyed.names declarations := by
  generalize hr : Structure.ref label target readings = reading at h
  induction h with
  | parameter => cases hr
  | concrete href _ =>
    rw [← Structure.kind_anonymous, ← hr] at href
    exact absurd rfl href
  | argument _ _ ih => exact ih hr
  | declaration _ happlied =>
    cases hr
    exact mem_names_of_applied happlied

/-- A reading is passed at once: it is neither an alias nor a bound parameter. -/
theorem passParameters_eq (h : declarations.Reads occurrence reading)
    (hclear : declarations.Clear names bindings) (fuel : Nat) :
    passParameters bindings fuel reading = reading := by
  have hunaliased := Structure.unaliased_of_kind h.kind_ne_typeAlias
  cases fuel with
  | zero => exact hunaliased
  | succ fuel =>
    rw [passParameters, hunaliased]
    split
    · rw [(hclear _ h.mem_names).1]
    · rfl

end Reads

/-- What the check holds where the lexical chain is in some scope. -/
structure Agrees (declarations : Declarations) (names parameters : List String)
    (scope : List (String × Occurrence)) (bindings : List (String × Structure)) : Prop where
  clear : declarations.Clear names bindings
  covered : ∀ parameter ∈ parameters, (scope.lookup parameter).isSome
  bound : ∀ target occurrence, scope.lookup target = some occurrence →
    (∃ reading, bindings.lookup target = some reading ∧ declarations.Reads occurrence reading) ∨
      bindings.lookup target = none ∧ target ∈ names ∧ ∃ name, occurrence = .parameter name
  free : ∀ target, scope.lookup target = none → bindings.lookup target = none

/-- A structure written in the scope of some parameters. -/
structure Fits (declarations : Declarations) (parameters : List String) (s : Structure) : Prop where
  placed : ∀ part ∈ s.parts, declarations.WellPlaced parameters part
  plain : ∀ part ∈ s.parts, ∀ argument ∈ part.typeArguments, argument.kind ≠ .typeAlias

namespace Fits

theorem of_part {part : Structure} (h : declarations.Fits parameters s) (hpart : part ∈ s.parts) :
    declarations.Fits parameters part := by
  have hsub : ∀ inner ∈ part.parts, inner ∈ s.parts := by
    intro inner hinner
    rcases List.mem_cons.mp hinner with rfl | hinner
    · exact hpart
    · exact Structure.mem_parts_of_inside hinner hpart
  exact ⟨fun inner hinner => h.placed inner (hsub inner hinner),
    fun inner hinner => h.plain inner (hsub inner hinner)⟩

theorem argument {label : Label} {target : String} {typeArguments : List Structure}
    {argument : Structure} (h : declarations.Fits parameters (.ref label target typeArguments))
    (hargument : argument ∈ typeArguments) :
    declarations.Fits parameters argument ∧ argument.kind ≠ .typeAlias :=
  ⟨h.of_part (List.mem_cons_of_mem _ (Structure.mem_inside_of_argument hargument)),
    h.plain _ (Structure.mem_parts_self _) argument hargument⟩

/-- A reference to no parameter applies a declaration. -/
theorem applied {label : Label} {target : String} {typeArguments : List Structure}
    (h : declarations.Fits parameters (.ref label target typeArguments))
    (htarget : target ∉ parameters) :
    ∃ declaration, declarations.applied label target typeArguments.length = .ok declaration := by
  rcases h.placed _ (Structure.mem_parts_self _) with ⟨hmem, _⟩ | ⟨declaration, hfound⟩
  · exact absurd hmem htarget
  · exact ⟨declaration, applied_eq_ok_iff.mpr hfound⟩

end Fits

theorem fits_of_mem (hformed : declarations.WellFormed) (hplain : declarations.PlainArguments)
    {entry : String × Structure} (hentry : entry ∈ declarations) :
    declarations.Fits entry.2.parameters entry.2 :=
  ⟨hformed entry hentry, hplain entry hentry⟩

namespace Agrees

theorem not_mem_parameters (h : declarations.Agrees names parameters scope bindings)
    {target : String} (hfree : scope.lookup target = none) : target ∉ parameters := by
  intro hmem
  have hcovered := h.covered target hmem
  rw [hfree] at hcovered
  cases hcovered

/-- The check carries every type argument as it reads. -/
theorem reads_carry (h : declarations.Agrees names parameters scope bindings)
    (hs : declarations.Fits parameters s) (halias : s.kind ≠ .typeAlias) :
    declarations.Reads (.written s scope) (carry bindings names s.anonymous) := by
  have concrete {s : Structure} (href : s.kind ≠ .ref) (halias : s.kind ≠ .typeAlias) :
      declarations.Reads (.written s scope) (carry bindings names s.anonymous) := by
    rw [Structure.carry_of_kind (by rwa [Structure.kind_anonymous])]
    exact .concrete href halias
  induction s using Structure.induction with
  | typeAlias => exact absurd rfl halias
  | ref label target typeArguments ih =>
    rw [Structure.anonymous, carry]
    cases hlookup : scope.lookup target with
    | some occurrence =>
      obtain ⟨reading, hbound, hreads⟩ | ⟨hnone, hname, name, rfl⟩ := h.bound target _ hlookup
      · rw [hbound]
        exact .argument hlookup hreads
      · rw [hnone]
        dsimp only
        rw [if_pos hname]
        exact .argument hlookup .parameter
    | none =>
      obtain ⟨declaration, happlied⟩ := hs.applied (h.not_mem_parameters hlookup)
      rw [h.free target hlookup]
      dsimp only
      rw [if_neg (h.clear target (mem_names_of_applied happlied)).2,
        Structure.anonymousAll_eq_map, Structure.carryAll_eq_map, List.map_map]
      refine .declaration hlookup happlied (List.length_map _).symm fun pair hpair => ?_
      rw [List.zip_map'] at hpair
      obtain ⟨argument, hargument, rfl⟩ := List.mem_map.mp hpair
      obtain ⟨hfits, hplain⟩ := hs.argument hargument
      exact ih argument hargument hfits hplain
  | _ =>
    refine concrete ?_ ?_
    · rintro ⟨⟩
    · rintro ⟨⟩

/-- What the check comes to below aliases and bound parameters reads like the structure below the
aliases, and is no bound parameter. -/
theorem reads_passParameters (h : declarations.Agrees names parameters scope bindings)
    (hs : declarations.Fits parameters s) :
    let passed := passParameters bindings (bindings.length + 1) s.anonymous
    declarations.Reads (.written s.unaliased scope) (carry bindings names passed) ∧
      ∀ label target typeArguments, passed = .ref label target typeArguments →
        bindings.lookup target = none := by
  intro passed
  have hreads := h.reads_carry (hs.of_part (Structure.unaliased_mem_parts s))
    (Structure.kind_unaliased s)
  rw [← Structure.unaliased_anonymous] at hreads
  have hpassed : passed = passParameters bindings (bindings.length + 1) s.anonymous := rfl
  rw [passParameters] at hpassed
  split at hpassed
  · next label target typeArguments href =>
    rw [href, carry] at hreads
    cases hbound : bindings.lookup target with
    | some reading =>
      rw [hbound] at hreads hpassed
      dsimp only at hreads hpassed
      rw [hreads.passParameters_eq h.clear] at hpassed
      rw [hpassed]
      refine ⟨by rwa [hreads.carry_eq h.clear], ?_⟩
      rintro _ _ _ rfl
      exact (h.clear _ hreads.mem_names).1
    | none =>
      rw [hbound] at hpassed
      dsimp only at hpassed
      rw [← carry, ← hpassed] at hreads
      refine ⟨hreads, fun label' target' typeArguments' hpassed' => ?_⟩
      rw [hpassed, Structure.ref.injEq] at hpassed'
      rwa [← hpassed'.2.1]
  · next hne =>
    rw [hpassed]
    exact ⟨hreads, fun label target typeArguments href => (hne _ _ _ href).elim⟩

theorem not_stuck (h : declarations.Agrees names parameters scope bindings)
    (hs : declarations.Fits parameters s) : ¬ Stuck bindings s.anonymous := by
  rintro ⟨label, target, typeArguments, bound, hpassed, hbound⟩
  rw [(h.reads_passParameters hs).2 _ _ _ hpassed] at hbound
  cases hbound

/-- The check stops where the reading is no reference, and it enters the declaration that the
reading applies. -/
theorem turn (h : declarations.Agrees names parameters scope bindings)
    (hs : declarations.Fits parameters s) :
    let anonymous : Declarations := Structure.anonymousEntries declarations
    ∃ reading, declarations.Reads (.written s.unaliased scope) reading ∧
      (anonymous.Stops names bindings s.anonymous ∧ reading.kind ≠ .ref ∨
        ∃ label target readings declaration, reading = .ref label target readings ∧
          declarations.lookup target = some declaration ∧
          anonymous.Enters names bindings s.anonymous (target, readings)
            declaration.anonymous) := by
  intro anonymous
  obtain ⟨hreads, hfree⟩ := h.reads_passParameters hs
  refine ⟨_, hreads, ?_⟩
  generalize hpassed : passParameters bindings (bindings.length + 1) s.anonymous = passed at *
  by_cases href : passed.kind = .ref
  · obtain ⟨label, target, typeArguments, rfl⟩ := Structure.exists_of_kind_ref href
    have hnone := hfree label target typeArguments rfl
    rw [carry, hnone] at hreads ⊢
    dsimp only at hreads ⊢
    by_cases hname : target ∈ names
    · rw [if_pos hname]
      refine .inl ⟨fun label' target' typeArguments' hpassed' => ?_, nofun⟩
      rw [hpassed, Structure.ref.injEq] at hpassed'
      obtain ⟨_, rfl, _⟩ := hpassed'
      exact ⟨hnone, .inl hname⟩
    · rw [if_neg hname] at hreads ⊢
      obtain ⟨declaration, hfound⟩ :=
        Option.isSome_iff_exists.mp (Keyed.lookup_isSome_iff_mem.mpr hreads.mem_names)
      refine .inr ⟨_, _, _, declaration, rfl, hfound, label, typeArguments, hpassed, hnone, hname,
        ?_, rfl⟩
      rw [Structure.lookup_anonymousEntries, hfound, Option.map_some]
  · rw [Structure.carry_of_kind href]
    refine .inl ⟨fun label target typeArguments hpassed' => ?_, href⟩
    rw [← hpassed, hpassed'] at href
    exact absurd rfl href

/-- Inside the declaration that a reference applies, the check holds the readings of its type
arguments. -/
theorem inner {entry : String × Structure} {typeArguments readings : List Structure}
    {target : String}
    (hclear : ∀ name ∈ Keyed.names declarations, name ∉ names)
    (hapart : declarations.ParametersApart) (hentry : entry ∈ declarations)
    (harity : entry.2.parameters.length = typeArguments.length)
    (hlength : typeArguments.length = readings.length)
    (hreads : ∀ pair ∈ (typeArguments.map fun s => Occurrence.written s scope).zip readings,
      declarations.Reads pair.1 pair.2) :
    declarations.Agrees names entry.2.parameters
      (Occurrence.inner scope entry.2.parameters typeArguments)
      (received entry.2.anonymous (target, readings)) := by
  have hpair := Keyed.lookup_ofList_zip entry.2.parameters
    ((List.length_map fun s => Occurrence.written s scope).trans hlength)
  rw [received, Structure.parameters_anonymous]
  refine ⟨fun name hname => ⟨?_, hclear name hname⟩, ?_, ?_, ?_⟩
  · cases hlookup : (Keyed.ofList (entry.2.parameters.zip readings)).lookup name with
    | none => rfl
    | some reading =>
      have hmem := Keyed.mem_of_mem_ofList (Keyed.mem_of_lookup hlookup)
      exact absurd hname (hapart entry hentry name (List.of_mem_zip hmem).1)
  · intro parameter hparameter
    rw [Occurrence.inner, Keyed.lookup_isSome_iff_mem, Keyed.mem_names_ofList,
      List.map_fst_zip (by rw [List.length_map]; exact Nat.le_of_eq harity)]
    exact hparameter
  · intro name occurrence hlookup
    rcases hpair name with ⟨first, second, hmem, hfirst, hsecond⟩ | ⟨hfirst, _⟩
    · cases hfirst.symm.trans hlookup
      exact .inl ⟨second, hsecond, hreads _ hmem⟩
    · cases hfirst.symm.trans hlookup
  · intro name hlookup
    rcases hpair name with ⟨first, second, hmem, hfirst, hsecond⟩ | ⟨_, hsecond⟩
    · cases hfirst.symm.trans hlookup
    · exact hsecond

/-- A declaration by itself: its parameters are bound to nothing. -/
theorem opened {entry : String × Structure} (hapart : declarations.ParametersApart)
    (hentry : entry ∈ declarations) :
    declarations.Agrees entry.2.parameters entry.2.parameters
      (entry.2.parameters.map fun name => (name, .parameter name)) [] := by
  refine ⟨fun name hname => ⟨rfl, fun hmem => hapart entry hentry name hmem hname⟩, ?_, ?_, ?_⟩
  · intro parameter hparameter
    rw [Keyed.lookup_isSome_iff_mem, Keyed.names, List.map_map]
    exact List.mem_map.mpr ⟨parameter, hparameter, rfl⟩
  · intro name occurrence hlookup
    obtain ⟨parameter, hparameter, hfound⟩ := List.mem_map.mp (Keyed.mem_of_lookup hlookup)
    obtain ⟨rfl, rfl⟩ := Prod.mk.inj hfound
    exact .inr ⟨rfl, hparameter, parameter, rfl⟩
  · intro _ _
    rfl

end Agrees

/-! ## Both chains end together -/

theorem Reads.ends (h : declarations.Reads occurrence reading) (hkind : reading.kind ≠ .ref) :
    declarations.Ends steps occurrence := by
  induction h with
  | parameter => exact .parameter
  | concrete ref typeAlias => exact .concrete ref typeAlias
  | argument bound _ ih => exact .argument bound (ih hkind)
  | declaration => exact absurd rfl hkind

/-- An occurrence that reads as a reference enters the declaration in a scope whose occurrences read
as the type arguments. -/
theorem Reads.enters {label : Label} {target : String} {readings : List Structure}
    (h : declarations.Reads occurrence (.ref label target readings)) :
    ∃ declaration typeArguments scope, declarations.lookup target = some declaration ∧
      declaration.parameters.length = typeArguments.length ∧
      typeArguments.length = readings.length ∧
      (∀ pair ∈ (typeArguments.map fun s => Occurrence.written s scope).zip readings,
        declarations.Reads pair.1 pair.2) ∧
      ∀ steps, declarations.Ends steps occurrence ↔ ∃ fewer, steps = fewer + 1 ∧
        declarations.Ends fewer
          (.written declaration (Occurrence.inner scope declaration.parameters typeArguments)) := by
  generalize hr : Structure.ref label target readings = reading at h
  induction h with
  | parameter => cases hr
  | concrete href _ =>
    rw [← Structure.kind_anonymous, ← hr] at href
    exact absurd rfl href
  | argument bound _ ih =>
    obtain ⟨declaration, typeArguments, scope, hfound, harity, hlength, hreads, hends⟩ := ih hr
    refine ⟨declaration, typeArguments, scope, hfound, harity, hlength, hreads, fun steps => ?_⟩
    rw [← hends]
    exact ⟨fun h => h.leads (.argument bound), .argument bound⟩
  | declaration free applied length arguments =>
    cases hr
    obtain ⟨hfound, harity⟩ := applied_eq_ok_iff.mp applied
    exact ⟨_, _, _, hfound, harity, length, arguments, fun _ => ends_applied_iff free applied⟩

/-- The chain of the check halts where the lexical chain ends, within the same steps. -/
theorem Agrees.halts_iff_ends (hformed : declarations.WellFormed)
    (hplain : declarations.PlainArguments) (hapart : declarations.ParametersApart)
    (h : declarations.Agrees names parameters scope bindings)
    (hs : declarations.Fits parameters s) :
    Halts (Structure.anonymousEntries declarations) names steps bindings s.anonymous ↔
      declarations.Ends steps (.written s scope) := by
  rw [← ends_unaliased_iff]
  induction steps generalizing parameters scope bindings s with
  | zero =>
    obtain ⟨reading, hreads, ⟨hstops, hkind⟩ | ⟨label, target, readings, declaration, rfl, hfound,
      henters⟩⟩ := h.turn hs
    · exact iff_of_true (.stops hstops) (hreads.ends hkind)
    · obtain ⟨_, _, _, _, _, _, _, hends⟩ := hreads.enters
      rw [hends, henters.halts_iff]
      simp
  | succ steps ih =>
    obtain ⟨reading, hreads, ⟨hstops, hkind⟩ | ⟨label, target, readings, declaration, rfl, hfound,
      henters⟩⟩ := h.turn hs
    · exact iff_of_true (.stops hstops) (hreads.ends hkind)
    · obtain ⟨entered, typeArguments, inside, hentered, harity, hlength, harguments, hends⟩ :=
        hreads.enters
      cases hfound.symm.trans hentered
      have hentry := Keyed.mem_of_lookup hfound
      rw [hends, henters.halts_iff]
      refine exists_congr fun fewer => and_congr_right fun hsteps => ?_
      cases hsteps
      rw [← ends_unaliased_iff]
      exact ih (.inner (fun name hname => (h.clear name hname).2) hapart hentry harity hlength
        harguments) (fits_of_mem hformed hplain hentry)

end Declarations

end PathQuery
