import PathQuery.Proofs.Keyed
import PathQuery.Proofs.Outcome
import PathQuery.Schema.Basic

/-!
# What the chain check decides

A chain stops, enters a declaration, or is stuck in parameters that stand for each other. The check
remembers the applications that it came through, but forbidding them again changes no verdict: an
application determines the rest of its chain, so a chain that comes back to one never stops
(`checkChain_eq_ok_iff`). `Settles` is the same check without a bound on the parameters passed.
-/

set_option autoImplicit false

namespace PathQuery

namespace Structure

theorem exists_of_kind_ref {s : Structure} (h : s.kind = .ref) :
    ∃ label target typeArguments, s = ref label target typeArguments := by
  cases s with
  | ref label target typeArguments => exact ⟨label, target, typeArguments, rfl⟩
  | _ => cases h

theorem kind_unaliased (s : Structure) : s.unaliased.kind ≠ .typeAlias := by
  induction s using unaliased.induct with
  | case1 label name parameters body ih => exact ih
  | case2 s hs =>
    cases s with
    | typeAlias => exact (hs _ _ _ _ rfl).elim
    | _ => exact nofun

end Structure

namespace Declarations

open Structure (carryAll unaliased)

section Turns

variable (declarations : Declarations) (names : List String)
  (bindings : List (String × Structure)) (current : Structure)

/-- The chain comes to a structure that is no reference, or to one that enters nothing. -/
def Stops : Prop :=
  ∀ label target typeArguments,
    passParameters bindings (bindings.length + 1) current = .ref label target typeArguments →
      bindings.lookup target = none ∧ (target ∈ names ∨ declarations.lookup target = none)

/-- The chain comes to a reference that applies a declaration. -/
def Enters (application : Application) (declaration : Structure) : Prop :=
  ∃ label typeArguments,
    passParameters bindings (bindings.length + 1) current =
      .ref label application.1 typeArguments ∧
    bindings.lookup application.1 = none ∧ application.1 ∉ names ∧
    declarations.lookup application.1 = some declaration ∧
    application.2 = carryAll bindings names typeArguments

/-- The chain comes to a bound parameter again and again. -/
def Stuck : Prop :=
  ∃ label target typeArguments bound,
    passParameters bindings (bindings.length + 1) current = .ref label target typeArguments ∧
    bindings.lookup target = some bound

end Turns

/-- The bindings inside a declaration. -/
abbrev received (declaration : Structure) (application : Application) :
    List (String × Structure) :=
  Keyed.ofList (declaration.parameters.zip application.2)

/-- The chain stops after at most so many steps into declarations. -/
inductive Halts (declarations : Declarations) (names : List String) :
    Nat → List (String × Structure) → Structure → Prop where
  | stops {steps : Nat} {bindings : List (String × Structure)} {current : Structure}
      (h : declarations.Stops names bindings current) : Halts declarations names steps bindings current
  | enters {steps : Nat} {bindings : List (String × Structure)} {current declaration : Structure}
      {application : Application}
      (h : declarations.Enters names bindings current application declaration)
      (rest : Halts declarations names steps (received declaration application) declaration) :
      Halts declarations names (steps + 1) bindings current

variable {declarations : Declarations} {names : List String} {bindings : List (String × Structure)}
  {current declaration : Structure} {application : Application} {steps : Nat}

theorem turn (declarations : Declarations) (names : List String)
    (bindings : List (String × Structure)) (current : Structure) :
    declarations.Stops names bindings current ∨
      (∃ application declaration,
        declarations.Enters names bindings current application declaration) ∨
      Stuck bindings current := by
  by_cases href : ∃ label target typeArguments,
      passParameters bindings (bindings.length + 1) current = .ref label target typeArguments
  · obtain ⟨label, target, typeArguments, hpass⟩ := href
    cases hbound : bindings.lookup target with
    | some bound => exact .inr (.inr ⟨label, target, typeArguments, bound, hpass, hbound⟩)
    | none =>
      by_cases hname : target ∈ names
      · refine .inl fun label' target' typeArguments' hpass' => ?_
        rw [hpass, Structure.ref.injEq] at hpass'
        obtain ⟨_, rfl, _⟩ := hpass'
        exact ⟨hbound, .inl hname⟩
      · cases hfound : declarations.lookup target with
        | none =>
          refine .inl fun label' target' typeArguments' hpass' => ?_
          rw [hpass, Structure.ref.injEq] at hpass'
          obtain ⟨_, rfl, _⟩ := hpass'
          exact ⟨hbound, .inr hfound⟩
        | some declaration =>
          exact .inr (.inl ⟨(target, carryAll bindings names typeArguments), declaration,
            label, typeArguments, hpass, hbound, hname, hfound, rfl⟩)
  · exact .inl fun label target typeArguments hpass =>
      absurd ⟨label, target, typeArguments, hpass⟩ href

theorem Enters.unique {application' : Application} {declaration' : Structure}
    (h : declarations.Enters names bindings current application declaration)
    (h' : declarations.Enters names bindings current application' declaration') :
    application' = application ∧ declaration' = declaration := by
  obtain ⟨target, arguments⟩ := application
  obtain ⟨target', arguments'⟩ := application'
  obtain ⟨label, typeArguments, hpass, _, _, hfound, harguments⟩ := h
  obtain ⟨label', typeArguments', hpass', _, _, hfound', harguments'⟩ := h'
  rw [hpass, Structure.ref.injEq] at hpass'
  obtain ⟨_, rfl, rfl⟩ := hpass'
  dsimp only at harguments harguments' hfound hfound'
  rw [hfound, Option.some.injEq] at hfound'
  exact ⟨by rw [harguments, harguments'], hfound'.symm⟩

theorem Enters.not_stops (h : declarations.Enters names bindings current application declaration) :
    ¬ declarations.Stops names bindings current := by
  obtain ⟨label, typeArguments, hpass, _, hname, hfound, _⟩ := h
  intro hstops
  rcases (hstops _ _ _ hpass).2 with hmem | hnone
  · exact hname hmem
  · rw [hfound] at hnone
    cases hnone

theorem Stuck.not_stops (h : Stuck bindings current) :
    ¬ declarations.Stops names bindings current := by
  obtain ⟨label, target, typeArguments, bound, hpass, hbound⟩ := h
  intro hstops
  rw [(hstops _ _ _ hpass).1] at hbound
  cases hbound

theorem Stuck.not_enters (h : Stuck bindings current) :
    ¬ declarations.Enters names bindings current application declaration := by
  obtain ⟨label, target, typeArguments, bound, hpass, hbound⟩ := h
  rintro ⟨label', typeArguments', hpass', hfree, _⟩
  rw [hpass, Structure.ref.injEq] at hpass'
  rw [← hpass'.2.1, hbound] at hfree
  cases hfree

/-! ## The check turn by turn -/

section

variable {seen : List Application}

theorem Stops.checkChain_eq (h : declarations.Stops names bindings current) :
    declarations.checkChain names steps seen bindings current = .ok () := by
  unfold checkChain
  split
  · next label target typeArguments hpass =>
    obtain ⟨hfree, hend⟩ := h label target typeArguments hpass
    dsimp only
    rw [hfree, if_neg (by simp)]
    by_cases hname : target ∈ names
    · rw [if_pos hname]
    · rw [if_neg hname, hend.resolve_left hname]
  · rfl

theorem Enters.checkChain_zero
    (h : declarations.Enters names bindings current application declaration) :
    declarations.checkChain names 0 seen bindings current ≠ .ok () := by
  obtain ⟨label, typeArguments, hpass, hfree, hname, hfound, _⟩ := h
  unfold checkChain
  rw [hpass]
  dsimp only
  rw [hfree, if_neg (by simp), if_neg hname, hfound]
  exact nofun

theorem Enters.checkChain_succ
    (h : declarations.Enters names bindings current application declaration) :
    declarations.checkChain names (steps + 1) seen bindings current = .ok () ↔
      application ∉ seen ∧
        declarations.checkChain names steps (application :: seen)
          (received declaration application) declaration = .ok () := by
  obtain ⟨target, arguments⟩ := application
  obtain ⟨label, typeArguments, hpass, hfree, hname, hfound, harguments⟩ := h
  dsimp only at harguments hfree hname hfound
  subst harguments
  rw [checkChain, hpass]
  dsimp only
  rw [hfree, if_neg (by simp), if_neg hname, hfound]
  dsimp only
  by_cases hseen : (target, carryAll bindings names typeArguments) ∈ seen
  · rw [if_pos hseen]
    constructor
    · intro h
      cases h
    · rintro ⟨hnot, _⟩
      exact absurd hseen hnot
  · rw [if_neg hseen]
    exact ⟨fun h => ⟨hseen, h⟩, And.right⟩

theorem Stuck.checkChain_ne (h : Stuck bindings current) :
    declarations.checkChain names steps seen bindings current ≠ .ok () := by
  obtain ⟨label, target, typeArguments, bound, hpass, hbound⟩ := h
  unfold checkChain
  rw [hpass]
  dsimp only
  rw [hbound, if_pos (by simp)]
  exact nofun

end

/-! ## Chains that stop do not come back -/

theorem Halts.mono {more : Nat} (h : declarations.Halts names steps bindings current)
    (hmore : steps ≤ more) : declarations.Halts names more bindings current := by
  induction h generalizing more with
  | stops h => exact .stops h
  | enters h _ ih =>
    obtain ⟨more, rfl⟩ : ∃ fewer, more = fewer + 1 := ⟨more - 1, by omega⟩
    exact .enters h (ih (by omega))

theorem Halts.of_enters (h : declarations.Halts names steps bindings current)
    (henters : declarations.Enters names bindings current application declaration) :
    ∃ fewer, steps = fewer + 1 ∧
      declarations.Halts names fewer (received declaration application) declaration := by
  cases h with
  | stops hstops => exact absurd hstops henters.not_stops
  | enters h rest =>
    obtain ⟨rfl, rfl⟩ := henters.unique h
    exact ⟨_, rfl, rest⟩

theorem Enters.halts_iff
    (henters : declarations.Enters names bindings current application declaration) :
    declarations.Halts names steps bindings current ↔ ∃ fewer, steps = fewer + 1 ∧
      declarations.Halts names fewer (received declaration application) declaration := by
  constructor
  · intro h
    exact h.of_enters henters
  · rintro ⟨fewer, rfl, rest⟩
    exact .enters henters rest

/-- Wherever the chain halts that enters `application`, it halts at `current` too. -/
def Behind (declarations : Declarations) (names : List String)
    (bindings : List (String × Structure)) (current : Structure) (application : Application) :
    Prop :=
  ∀ declaration, declarations.lookup application.1 = some declaration →
    ∀ steps, declarations.Halts names steps (received declaration application) declaration →
      declarations.Halts names steps bindings current

theorem Behind.entered {earlier : Application}
    (h : declarations.Behind names bindings current earlier)
    (henters : declarations.Enters names bindings current application declaration) :
    declarations.Behind names (received declaration application) declaration earlier := by
  intro found hfound steps hhalts
  obtain ⟨fewer, rfl, hrest⟩ := (h found hfound steps hhalts).of_enters henters
  exact hrest.mono (Nat.le_succ fewer)

/-- A chain that comes back to an application does not halt. -/
theorem Behind.not_halts (h : declarations.Behind names bindings current application)
    (henters : declarations.Enters names bindings current application declaration) :
    ¬ declarations.Halts names steps (received declaration application) declaration := by
  have hfound : declarations.lookup application.1 = some declaration := by
    obtain ⟨_, _, _, _, _, hfound, _⟩ := henters
    exact hfound
  induction steps with
  | zero =>
    intro hhalts
    obtain ⟨fewer, hfewer, _⟩ := (h declaration hfound 0 hhalts).of_enters henters
    cases hfewer
  | succ steps ih =>
    intro hhalts
    obtain ⟨fewer, hfewer, hrest⟩ := (h declaration hfound _ hhalts).of_enters henters
    rw [← Nat.succ.inj hfewer] at hrest
    exact ih hrest

/-- The check passes a chain if it stops in time. -/
theorem checkChain_eq_ok_iff {seen : List Application}
    (hseen : ∀ earlier ∈ seen, declarations.Behind names bindings current earlier) :
    declarations.checkChain names steps seen bindings current = .ok () ↔
      declarations.Halts names steps bindings current := by
  induction steps generalizing seen bindings current with
  | zero =>
    rcases turn declarations names bindings current with hstops | ⟨a, d, henters⟩ | hstuck
    · exact iff_of_true hstops.checkChain_eq (.stops hstops)
    · refine iff_of_false henters.checkChain_zero fun hhalts => ?_
      obtain ⟨_, hzero, _⟩ := hhalts.of_enters henters
      cases hzero
    · refine iff_of_false hstuck.checkChain_ne fun hhalts => ?_
      cases hhalts with
      | stops hstops => exact hstuck.not_stops hstops
  | succ steps ih =>
    rcases turn declarations names bindings current with hstops | ⟨a, d, henters⟩ | hstuck
    · exact iff_of_true hstops.checkChain_eq (.stops hstops)
    · rw [henters.checkChain_succ]
      have hseen' : ∀ earlier ∈ a :: seen,
          declarations.Behind names (received d a) d earlier := by
        intro earlier hearlier
        rcases List.mem_cons.mp hearlier with rfl | hearlier
        · intro found hfound steps hhalts
          obtain ⟨_, _, _, _, _, hd, _⟩ := henters
          rw [hd, Option.some.injEq] at hfound
          subst hfound
          exact hhalts
        · exact (hseen earlier hearlier).entered henters
      rw [ih hseen']
      constructor
      · rintro ⟨_, hrest⟩
        exact .enters henters hrest
      · intro hhalts
        obtain ⟨_, hfewer, hrest⟩ := hhalts.of_enters henters
        cases hfewer
        exact ⟨fun hmem => (hseen a hmem).not_halts henters hrest, hrest⟩
    · refine iff_of_false hstuck.checkChain_ne fun hhalts => ?_
      cases hhalts with
      | stops hstops => exact hstuck.not_stops hstops
      | enters henters _ => exact hstuck.not_enters henters

theorem checkChainFrom_eq_ok_iff {name : String}
    (hfound : declarations.lookup name = some declaration) :
    declarations.checkChainFrom name declaration = .ok () ↔
      declarations.Halts declaration.parameters declarations.stepLimit [] declaration := by
  refine checkChain_eq_ok_iff fun earlier hearlier => ?_
  rw [List.mem_singleton] at hearlier
  subst hearlier
  intro found hfound' steps hhalts
  rw [hfound, Option.some.injEq] at hfound'
  subst hfound'
  rwa [received, List.zip_nil_right] at hhalts

/-! ## The loop without a bound on the parameters passed -/

/-- A run of the loop that follows a chain, with its verdict: it goes through aliases and bound
parameters for as long as there are any. -/
inductive Settles (declarations : Declarations) (names : List String) :
    Nat → List Application → List (String × Structure) → Structure → Except Error Unit → Prop where
  | concrete {remaining : Nat} {seen : List Application} {bindings : List (String × Structure)}
      {current : Structure} (ref : current.kind ≠ .ref) (typeAlias : current.kind ≠ .typeAlias) :
      Settles declarations names remaining seen bindings current (.ok ())
  | body {remaining : Nat} {seen : List Application} {bindings : List (String × Structure)}
      {label : Label} {name : String} {parameters : List String} {body : Structure}
      {verdict : Except Error Unit}
      (rest : Settles declarations names remaining seen bindings body verdict) :
      Settles declarations names remaining seen bindings (.typeAlias label name parameters body)
        verdict
  | bound {remaining : Nat} {seen : List Application} {bindings : List (String × Structure)}
      {label : Label} {target : String} {typeArguments : List Structure} {bound : Structure}
      {verdict : Except Error Unit} (found : bindings.lookup target = some bound)
      (rest : Settles declarations names remaining seen bindings bound verdict) :
      Settles declarations names remaining seen bindings (.ref label target typeArguments) verdict
  | unentered {remaining : Nat} {seen : List Application} {bindings : List (String × Structure)}
      {label : Label} {target : String} {typeArguments : List Structure}
      (free : bindings.lookup target = none)
      (stop : target ∈ names ∨ declarations.lookup target = none) :
      Settles declarations names remaining seen bindings (.ref label target typeArguments) (.ok ())
  | refused {remaining : Nat} {seen : List Application} {bindings : List (String × Structure)}
      {label : Label} {target : String} {typeArguments : List Structure} {declaration : Structure}
      (free : bindings.lookup target = none) (name : target ∉ names)
      (found : declarations.lookup target = some declaration)
      (stop : remaining = 0 ∨ (target, carryAll bindings names typeArguments) ∈ seen) :
      Settles declarations names remaining seen bindings (.ref label target typeArguments)
        (.error (brokenReference label target "the reference never reaches a concrete structure"))
  | entered {remaining : Nat} {seen : List Application} {bindings : List (String × Structure)}
      {label : Label} {target : String} {typeArguments : List Structure} {declaration : Structure}
      {verdict : Except Error Unit}
      (free : bindings.lookup target = none) (name : target ∉ names)
      (found : declarations.lookup target = some declaration)
      (anew : (target, carryAll bindings names typeArguments) ∉ seen)
      (rest : Settles declarations names remaining
        ((target, carryAll bindings names typeArguments) :: seen)
        (received declaration (target, carryAll bindings names typeArguments)) declaration
        verdict) :
      Settles declarations names (remaining + 1) seen bindings (.ref label target typeArguments)
        verdict

theorem Settles.of_unaliased {seen : List Application} {verdict : Except Error Unit}
    (h : declarations.Settles names steps seen bindings (unaliased current) verdict) :
    declarations.Settles names steps seen bindings current verdict := by
  induction current using Structure.unaliased.induct with
  | case1 label name parameters body ih => exact .body (ih h)
  | case2 s hs =>
    rw [unaliased] at h
    · exact h
    · exact hs

theorem Settles.of_passParameters {seen : List Application} {verdict : Except Error Unit}
    {fuel : Nat}
    (h : declarations.Settles names steps seen bindings (passParameters bindings fuel current)
      verdict) :
    declarations.Settles names steps seen bindings current verdict := by
  induction fuel generalizing current with
  | zero => exact .of_unaliased h
  | succ fuel ih =>
    unfold passParameters at h
    split at h
    · next label target typeArguments hs =>
      refine .of_unaliased ?_
      rw [hs]
      split at h
      · next bound hbound => exact .bound hbound (ih h)
      · exact h
    · exact .of_unaliased h

theorem kind_passParameters (bindings : List (String × Structure)) (fuel : Nat) (s : Structure) :
    (passParameters bindings fuel s).kind ≠ .typeAlias := by
  induction fuel generalizing s with
  | zero => exact Structure.kind_unaliased s
  | succ fuel ih =>
    unfold passParameters
    split
    · split
      · exact ih _
      · exact nofun
    · exact Structure.kind_unaliased s

/-- Where no parameters stand for each other the loop comes to the verdict of the check, if it does
so in the declaration that is entered next. -/
theorem settles_checkChain {seen : List Application} (hstuck : ¬ Stuck bindings current)
    (hrest : ∀ fewer application declaration, steps = fewer + 1 →
      declarations.Enters names bindings current application declaration →
      declarations.Settles names fewer (application :: seen) (received declaration application)
        declaration (declarations.checkChain names fewer (application :: seen)
          (received declaration application) declaration)) :
    declarations.Settles names steps seen bindings current
      (declarations.checkChain names steps seen bindings current) := by
  apply Settles.of_passParameters
  have halias := kind_passParameters bindings (bindings.length + 1) current
  unfold checkChain
  split
  · next label target typeArguments hpass =>
    rw [hpass]
    cases hfree : bindings.lookup target with
    | some bound => exact absurd ⟨label, target, typeArguments, bound, hpass, hfree⟩ hstuck
    | none =>
      dsimp only
      rw [if_neg (by simp)]
      by_cases hname : target ∈ names
      · rw [if_pos hname]
        exact .unentered hfree (.inl hname)
      · rw [if_neg hname]
        cases hfound : declarations.lookup target with
        | none => exact .unentered hfree (.inr hfound)
        | some declaration =>
          dsimp only
          cases steps with
          | zero => exact .refused hfree hname hfound (.inl rfl)
          | succ fewer =>
            dsimp only
            by_cases hseen : (target, carryAll bindings names typeArguments) ∈ seen
            · rw [if_pos hseen]
              exact .refused hfree hname hfound (.inr hseen)
            · rw [if_neg hseen]
              exact .entered hfree hname hfound hseen
                (hrest fewer (target, carryAll bindings names typeArguments) declaration rfl
                  ⟨label, typeArguments, hpass, hfree, hname, hfound, rfl⟩)
  · next hne =>
    refine .concrete (fun href => ?_) halias
    obtain ⟨label, target, typeArguments, hpass⟩ := Structure.exists_of_kind_ref href
    exact hne label target typeArguments hpass

end Declarations

end PathQuery
