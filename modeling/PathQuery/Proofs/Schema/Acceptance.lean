import PathQuery.Proofs.Schema.Reading

/-!
# Which declarations make a schema

Declarations are accepted exactly if they are well formed and the chain of each of them ends within
`stepLimit` steps into declarations (`Schema.accepts_iff`). Chains that come back to the same
application do not end, and neither do those that go on for ever.
-/

set_option autoImplicit false

namespace PathQuery

open Relation (ReflTransGen TransGen)

namespace Declarations

variable {declarations : Declarations} {names parameters : List String}
  {scope : List (String × Occurrence)} {bindings : List (String × Structure)} {s : Structure}
  {steps : Nat} {seen : List Application}

/-- The loop comes to the verdict of the check. -/
theorem Agrees.settles (hformed : declarations.WellFormed)
    (hplain : declarations.PlainArguments) (hapart : declarations.ParametersApart)
    (h : declarations.Agrees names parameters scope bindings)
    (hs : declarations.Fits parameters s) :
    Settles (Structure.anonymousEntries declarations) names steps seen bindings s.anonymous
      (checkChain (Structure.anonymousEntries declarations) names steps seen bindings
        s.anonymous) := by
  induction steps generalizing parameters scope bindings seen s with
  | zero => exact settles_checkChain (h.not_stuck hs) nofun
  | succ steps ih =>
    refine settles_checkChain (h.not_stuck hs) fun fewer application entered hsteps henters => ?_
    cases hsteps
    obtain ⟨reading, hreads, ⟨hstops, _⟩ | ⟨label, target, readings, declaration, rfl, hfound,
      henters'⟩⟩ := h.turn hs
    · exact absurd hstops henters.not_stops
    · obtain ⟨rfl, rfl⟩ := henters'.unique henters
      obtain ⟨_, typeArguments, inside, hentered, harity, hlength, harguments, _⟩ :=
        hreads.enters
      cases hfound.symm.trans hentered
      have hentry := Keyed.mem_of_lookup hfound
      exact ih (.inner (fun name hname => (h.clear name hname).2) hapart hentry harity hlength
        harguments) (fits_of_mem hformed hplain hentry)

/-- A chain that comes back to the same application does not end. -/
theorem Ends.not_back (hformed : declarations.WellFormed)
    (hplain : declarations.PlainArguments) (hapart : declarations.ParametersApart)
    {label label' again' : Label} {target : String} {typeArguments readings : List Structure}
    {again : Occurrence} (free : scope.lookup target = none)
    (hreads : declarations.Reads (.written (.ref label target typeArguments) scope)
      (.ref label' target readings))
    (hback : TransGen declarations.Leads (.written (.ref label target typeArguments) scope) again)
    (hagain : declarations.Reads again (.ref again' target readings)) :
    ¬ declarations.Ends steps (.written (.ref label target typeArguments) scope) := by
  -- the number of steps that the chain needs depends on nothing but the reading
  have ends_iff {occurrence : Occurrence} {label : Label}
      (h : declarations.Reads occurrence (.ref label target readings)) :
      ∃ declaration, declarations.lookup target = some declaration ∧
        ∀ steps, declarations.Ends steps occurrence ↔ ∃ fewer, steps = fewer + 1 ∧
          Halts (Structure.anonymousEntries declarations) [] fewer
            (received declaration.anonymous (target, readings)) declaration.anonymous := by
    obtain ⟨declaration, _, _, hfound, harity, hlength, harguments, hends⟩ := h.enters
    have hentry := Keyed.mem_of_lookup hfound
    refine ⟨declaration, hfound, fun steps => ?_⟩
    rw [hends]
    refine exists_congr fun fewer => and_congr_right fun _ => ?_
    exact ((Agrees.inner (fun _ _ => List.not_mem_nil) hapart hentry harity hlength harguments).halts_iff_ends hformed
      hplain hapart (fits_of_mem hformed hplain hentry)).symm
  have hsame (steps : Nat) : declarations.Ends steps again ↔
      declarations.Ends steps (.written (.ref label target typeArguments) scope) := by
    obtain ⟨declaration, hfound, hends⟩ := ends_iff hreads
    obtain ⟨declaration', hfound', hends'⟩ := ends_iff hagain
    cases hfound.symm.trans hfound'
    rw [hends, hends']
  obtain ⟨next, hleads, hrest⟩ := TransGen.head'_iff.mp hback
  have hstep : ∀ steps, declarations.Ends steps (.written (.ref label target typeArguments) scope) →
      ∃ fewer, steps = fewer + 1 ∧ declarations.Ends fewer next := by
    intro steps hends
    cases hleads with
    | argument bound => cases free.symm.trans bound
    | declaration _ applied => exact (ends_applied_iff free applied).mp hends
  induction steps with
  | zero =>
    intro hends
    obtain ⟨_, hzero, _⟩ := hstep _ hends
    cases hzero
  | succ steps ih =>
    intro hends
    obtain ⟨fewer, hfewer, hends⟩ := hstep _ hends
    cases hfewer
    exact ih ((hsame _).mp (hends.descends hrest))

theorem stepLimit_anonymous (declarations : Declarations) :
    stepLimit (Structure.anonymousEntries declarations) = declarations.stepLimit := by
  rw [stepLimit, Structure.anonymousEntries_eq_map, List.length_map, stepLimit]

theorem validate_eq_ok_iff (hnodup : (Keyed.names declarations).Nodup)
    (hapart : declarations.ParametersApart) (hplain : declarations.PlainArguments) :
    declarations.validate = .ok () ↔ declarations.WellFormed ∧
      ∀ entry ∈ declarations, declarations.Ends declarations.stepLimit (.opened entry.2) := by
  have hchecks : (∀ entry ∈ declarations,
      declarations.check entry.2.parameters entry.2 = .ok ()) ↔ declarations.WellFormed :=
    forall₂_congr fun entry hentry => check_eq_ok_iff (hapart entry hentry) entry.2
  rw [validate]
  refine Except.bind_unit_eq_ok_iff.trans ?_
  rw [Except.forM_eq_ok_iff, Except.forM_eq_ok_iff, hchecks]
  refine and_congr_right fun hformed => ?_
  rw [Structure.anonymousEntries_eq_map, List.forall_mem_map]
  refine forall₂_congr fun entry hentry => ?_
  have hfound : (Structure.anonymousEntries declarations).lookup entry.1 =
      some entry.2.anonymous := by
    rw [Structure.lookup_anonymousEntries, Keyed.lookup_of_mem hnodup hentry, Option.map_some]
  rw [← Structure.anonymousEntries_eq_map, checkChainFrom_eq_ok_iff hfound, stepLimit_anonymous,
    Structure.parameters_anonymous]
  exact (Agrees.opened hapart hentry).halts_iff_ends hformed hplain hapart
    (fits_of_mem hformed hplain hentry)

/-- The entries that a list of declarations makes: of declarations with one name the last counts. -/
abbrev entered (declarations : List (String × Structure)) : Declarations :=
  Keyed.ofList declarations

end Declarations

namespace Schema

theorem entries_of_ofEntries {declarations : List (String × Structure)} {schema : Schema}
    (h : ofEntries declarations = .ok schema) :
    schema.entries = Declarations.entered declarations := by
  unfold ofEntries at h
  dsimp only at h
  split at h
  · cases h
    rfl
  · cases h

theorem exists_ofEntries_iff {declarations : List (String × Structure)} :
    (∃ schema, ofEntries declarations = .ok schema) ↔
      (Declarations.entered declarations).validate = .ok () := by
  unfold ofEntries
  dsimp only
  split
  · next hvalid => exact iff_of_true ⟨_, rfl⟩ hvalid
  · next hfault =>
    rw [Declarations.entered, hfault]
    exact iff_of_false nofun nofun

/-- Schema acceptance is exact, where no parameter has the name of an entry and no alias stands as a
type argument. Declarations make a schema exactly if they are well formed and all their chains end
in time, and the loop of the check comes to an end for every entry. Chains that go on for ever are
refused, and so are those that come back to the same application. -/
theorem accepts_iff (declarations : List (String × Structure))
    (hapart : (Declarations.entered declarations).ParametersApart)
    (hplain : (Declarations.entered declarations).PlainArguments) :
    let entries := Declarations.entered declarations
    let anonymous : Declarations := Structure.anonymousEntries entries
    ((∃ schema, ofEntries declarations = .ok schema) ↔
      entries.WellFormed ∧
        ∀ entry ∈ entries, entries.Ends (32 * max 1 entries.length) (.opened entry.2)) ∧
    (entries.WellFormed → ∀ entry ∈ entries,
      anonymous.Settles entry.2.parameters (32 * max 1 entries.length) [(entry.1, [])] []
        entry.2.anonymous (anonymous.checkChainFrom entry.1 entry.2.anonymous)) ∧
    (∀ entry ∈ entries, ∀ chain : Nat → Occurrence, chain 0 = .opened entry.2 →
      (∀ i, entries.Leads (chain i) (chain (i + 1))) →
        ∀ schema, ofEntries declarations ≠ .ok schema) ∧
    ∀ entry ∈ entries, ∀ label target typeArguments scope label' readings again again',
      ReflTransGen entries.Leads (.opened entry.2)
        (.written (.ref label target typeArguments) scope) →
      scope.lookup target = none →
      entries.Reads (.written (.ref label target typeArguments) scope)
        (.ref label' target readings) →
      TransGen entries.Leads (.written (.ref label target typeArguments) scope) again →
      entries.Reads again (.ref again' target readings) →
        ∀ schema, ofEntries declarations ≠ .ok schema := by
  intro entries anonymous
  have hlimit : 32 * max 1 entries.length = entries.stepLimit := by
    rw [Declarations.stepLimit, Nat.mul_comm, Nat.max_comm]
  have hvalid := Declarations.validate_eq_ok_iff (Keyed.nodup_ofList declarations) hapart hplain
  have haccepts : (∃ schema, ofEntries declarations = .ok schema) ↔ entries.WellFormed ∧
      ∀ entry ∈ entries, entries.Ends entries.stepLimit (.opened entry.2) :=
    exists_ofEntries_iff.trans hvalid
  rw [hlimit]
  refine ⟨haccepts, ?_, ?_, ?_⟩
  · intro hformed entry hentry
    rw [Declarations.checkChainFrom, Declarations.stepLimit_anonymous,
      Structure.parameters_anonymous]
    exact (Declarations.Agrees.opened hapart hentry).settles hformed hplain hapart
      (Declarations.fits_of_mem hformed hplain hentry)
  · intro entry hentry chain hstart hchain schema hschema
    obtain ⟨_, hends⟩ := haccepts.mp ⟨schema, hschema⟩
    exact (hends entry hentry).not_forever chain hchain hstart
  · intro entry hentry label target typeArguments scope label' readings again again' hchain hfree
      hreads hback hagain schema hschema
    obtain ⟨hformed, hends⟩ := haccepts.mp ⟨schema, hschema⟩
    exact Declarations.Ends.not_back hformed hplain hapart hfree hreads hback hagain
      ((hends entry hentry).descends hchain)

/-- A generic alias that stands for its argument, applied to an application of itself. -/
def nested : List (String × Structure) :=
  [("Box", .typeAlias ⟨1, "Box"⟩ "Box" ["T"] (.ref ⟨2, "Box.type"⟩ "T" [])),
    ("Member", .object ⟨3, "Member"⟩ none [] []),
    ("Nested", .ref ⟨4, "Nested"⟩ "Box"
      [.ref ⟨5, "Nested.T"⟩ "Box" [.ref ⟨6, "Nested.T.T"⟩ "Member" []]])]

/-- An application of an alias to its own application is no cycle. -/
theorem accepts_nested : (∃ schema, ofEntries nested = .ok schema) ∧
    (Declarations.entered nested).ParametersApart ∧ (Declarations.entered nested).PlainArguments ∧
    ∀ entry ∈ Declarations.entered nested,
      (Declarations.entered nested).Ends (32 * max 1 3) (.opened entry.2) := by
  have hapart : (Declarations.entered nested).ParametersApart := by
    unfold Declarations.ParametersApart
    decide
  have hplain : (Declarations.entered nested).PlainArguments := by
    unfold Declarations.PlainArguments
    decide
  have haccepted : ∃ schema, ofEntries nested = .ok schema := exists_ofEntries_iff.mpr (by decide +kernel)
  exact ⟨haccepted, hapart, hplain, ((accepts_iff nested hapart hplain).1.mp haccepted).2⟩

end Schema

end PathQuery
