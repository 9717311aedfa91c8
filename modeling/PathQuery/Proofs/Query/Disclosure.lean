import PathQuery.Proofs.Graph.Navigation
import PathQuery.Proofs.Matching.Conformance
import PathQuery.Proofs.Query.Assembly
import PathQuery.Proofs.Query.Failures

/-!
# What errors disclose

Clients are shown the texts of errors that they caused. Apart from unions, these errors are found when a
query is compiled, and resolvers have no say in them. Where the member of a union is left to the value,
there are two more in a run: the value stands for no single member, or the member refuses its part of the
query. So of two runs that differ in what the resolvers do, clients can tell the values that were matched
against a union, and which part of the query was refused (`Engine.disclosed_of_runs`).
-/

set_option autoImplicit false

namespace PathQuery

/-! ## Errors that clients are not shown -/

namespace Error

variable {error other : Error}

/-- Clients are shown the code only. -/
def Masked (error : Error) : Prop :=
  error.category ≠ .client

def clientCodes : List String :=
  ["INVALID_QUERY", "INVALID_ENTRY", "INVALID_UNION_HINT", "NO_UNION_MATCH", "AMBIGUOUS_UNION_MATCH",
    "INVALID_ARGUMENTS", "INVALID_UNION_ACCESS", "NO_PROPERTIES_ON_LEAF", "UNKNOWN_PROPERTY",
    "RECURSION_LIMIT_EXCEEDED"]

theorem masked_iff : error.Masked ↔ error.code ∉ clientCodes := by
  cases error <;> simp [Masked, category, code, clientCodes]

theorem Masked.of_code (h : error.Masked) (hcode : error.code = other.code) : other.Masked := by
  rw [masked_iff] at h ⊢
  rwa [← hcode]

theorem Masked.disclosed_eq (h : error.Masked) (hcode : error.code = other.code) :
    error.disclosed = other.disclosed := by
  have shown {error : Error} (h : error.Masked) : error.disclosed =
      { message := "internal error while resolving the query", code := error.code, key? := none } := by
    unfold disclosed
    split
    · next hclient => exact absurd hclient h
    · rfl
    · rfl
  rw [shown h, shown (h.of_code hcode), hcode]

/-- The members that a value stands for, where there are several. -/
def candidates? : Error → Option String
  | ambiguousUnionMatch _ _ candidates => some candidates
  | _ => none

/-- Leaves out the value that was matched against a union. -/
def withoutValue : Error → Error
  | noUnionMatch key _ => noUnionMatch key ""
  | ambiguousUnionMatch key _ candidates => ambiguousUnionMatch key "" candidates
  | error => error

theorem Masked.withoutValue_eq (h : error.Masked) : error.withoutValue = error := by
  cases error <;> first | rfl | exact absurd rfl h

/-- A value stands for no member of a union, or for several. -/
inductive OfUnion : Error → Prop where
  | none (key received : String) : OfUnion (noUnionMatch key received)
  | several (key received candidates : String) : OfUnion (ambiguousUnionMatch key received candidates)

theorem OfUnion.of_code (h : error.OfUnion) (hcode : error.code = other.code) : other.OfUnion := by
  cases h <;> cases other <;> simp [code] at hcode <;> constructor

/-- Of such errors everything but the value is known. -/
theorem OfUnion.withoutValue_eq (h : error.OfUnion) (hcode : error.code = other.code)
    (hkey : error.key? = other.key?) (hcandidates : error.candidates? = other.candidates?) :
    error.withoutValue = other.withoutValue := by
  have hother := h.of_code hcode
  cases h with
  | none key received =>
    cases hother with
    | none =>
      cases hkey
      rfl
    | several => simp [code] at hcode
  | several key received candidates =>
    cases hother with
    | none => simp [code] at hcode
    | several =>
      cases hkey
      cases hcandidates
      rfl

end Error

/-! ## Matching -/

theorem Declarations.masked_of_applied {declarations : Declarations} {label : Label} {target : String}
    {count : Nat} {error : Error} (h : declarations.applied label target count = .error error) :
    error.Masked := by
  unfold applied at h
  split at h
  · cases h
    exact nofun
  · dsimp only at h
    split at h
    · cases h
    · cases h
      exact nofun

namespace Matching

/-- Where matching fails, whatever the value and the node are, no client is to blame. -/
theorem closed_masked : Closed (fun _ => True) Error.Masked where
  child _ _ := trivial
  target {node label target typeArguments error} _ hshape herror := by
    have hsite : node.site.shape = .ref label target typeArguments := hshape
    rw [Node.child?_eq_error_iff] at herror
    unfold Site.child at herror
    rw [hsite] at herror
    exact Declarations.masked_of_applied (Except.map_eq_error_iff.mp herror)
  endless _ := nofun

theorem ofUnion_of_choose {union : Node} {value : Json} {candidates : List Node} {error : Error}
    (h : choose union value candidates = .error error) : error.OfUnion := by
  unfold choose at h
  split at h
  · cases h
    exact .none _ _
  · cases h
  · cases h
    exact .several _ _ _

/-- Clients are shown that a value stands for no single member, and nothing else of matching. -/
theorem masked_or_ofUnion {reach : Nat} {union : Node} {value : Json} {error : Error}
    (h : (selectMember reach union (some value) none).result = .error error) :
    error.Masked ∨ error.OfUnion := by
  simp only [selectMember, Traced.result_bind, Traced.result_ofExcept, Node.result_allMembers,
    Except.ok_bind] at h
  have hkept : (Traced.filterM (fun member => fits reach member value) union.members).result.Meets
      (fun _ => True) Error.Masked :=
    Traced.meets_filterM fun member _ => meets_fits closed_masked trivial reach value
  cases hcandidates : (Traced.filterM (fun member => fits reach member value) union.members).result with
  | error masked =>
    rw [hcandidates] at h
    cases h
    exact .inl (hkept.fine_of hcandidates)
  | ok candidates =>
    rw [hcandidates] at h
    exact .inr (ofUnion_of_choose h)

end Matching

/-! ## Errors of runs -/

namespace Setting

variable {setting : Setting} {start place : Place}

/-- The query comes to a union and leaves the member to the value that is found there. -/
def LeavesUnion (setting : Setting) (start place : Place) (rest : List Json) : Prop :=
  setting.Comes start place ∧ setting.demand place.node place.query = .ok (.matched rest)

/-- A part of the query is refused at a member of a union that is left to the value. -/
def RefusesPart (setting : Setting) (start : Place) (error : Error) : Prop :=
  ∃ place rest member levels optional, setting.LeavesUnion start place rest ∧
    place.node.MemberOf member ∧
      (setting.compile Operator.builtin levels optional member rest).result = .error error

theorem Comes.withoutResolvers (h : setting.Comes start place) :
    setting.withoutResolvers.Comes start place := by
  induction h with
  | here place => exact .here place
  | leads hdemand hleads _ ih =>
    refine .leads hdemand ?_ ih
    cases hleads with
    | through => exact .through
    | property => exact .property
    | member hfield hrequested => exact .member hfield hrequested
    | item => exact .item
    | matched hmember => exact .matched hmember
  | anew hdemand _ ih => exact .anew hdemand ih

/-- Where a union is left to the value, clients are shown the value or the part that is refused. -/
theorem LeavesUnion.error_of_compileMatched {rest : List Json} (h : setting.LeavesUnion start place rest)
    {levels : Nat} {optional : Bool} {value : Json} {error : Error}
    (herror : setting.compileMatched levels optional place.node rest value = .error error) :
    error.Masked ∨ error.OfUnion ∨ setting.withoutResolvers.RefusesPart start error := by
  cases hmember : (Matching.selectMember setting.reach place.node (some value) none).result with
  | error unmatched =>
    rw [compileMatched, hmember] at herror
    cases herror
    exact (Matching.masked_or_ofUnion hmember).imp_right .inl
  | ok member =>
    rw [compileMatched, hmember] at herror
    have hrefused := (setting.compilesAlike levels optional member rest).eq_error herror
    exact .inr (.inr ⟨place, rest, member, levels, optional, ⟨h.1.withoutResolvers, h.2⟩,
      Matching.memberOf_of_selectMember hmember, hrefused⟩)

/-- What the errors of a run are, below the place that was compiled. -/
theorem origin_of_compile (start : Place) {levels : Nat} {optional : Bool} {inner : Middleware}
    (hresolvers : ∀ shape, ∀ middleware ∈ setting.resolvers.atShape shape,
      Middleware.RaisesOnly Error.Masked middleware)
    (h : (setting.compile Operator.builtin levels optional start.node start.query).result = .ok inner) :
    inner.Keeps fun error => error.Masked ∨
      (∃ place rest, setting.withoutResolvers.LeavesUnion start place rest) ∧ error.OfUnion ∨
        setting.withoutResolvers.RefusesPart start error := by
  refine keeps_compile (Descent.settles (fun _ _ _ => .inl nofun) fun _ => .inl nofun)
    (fun shape middleware hm => (hresolvers shape middleware hm).keeps fun _ => .inl) start
    (fun hcomes hdemand _ _ _ error herror => ?_) h
  have hleaves : setting.LeavesUnion start _ _ := ⟨hcomes, hdemand⟩
  refine (hleaves.error_of_compileMatched herror).imp_right (Or.imp_left fun hunion => ⟨?_, hunion⟩)
  exact ⟨_, _, hcomes.withoutResolvers, hdemand⟩

end Setting

namespace Engine

variable {engine : Engine} {query : Json} {values : List Json} {error : Error}

def withoutResolvers (engine : Engine) : Engine :=
  { engine with setting := engine.setting.withoutResolvers }

/-- The query is refused before anything is run. -/
def Refuses (engine : Engine) (query : Json) (values : List Json) (error : Error) : Prop :=
  ((engine.instructions query values).bind fun instructions => (engine.plan instructions).result) =
    .error error

/-- The query comes to a union that it leaves to the value. -/
def LeavesUnion (engine : Engine) (query : Json) (values : List Json) : Prop :=
  ∃ instructions, engine.instructions query values = .ok instructions ∧
    ∃ place rest, engine.setting.LeavesUnion ⟨engine.setting.graph.root, instructions⟩ place rest

/-- A part of the query is refused at a member of a union that is left to the value. -/
def RefusesPart (engine : Engine) (query : Json) (values : List Json) (error : Error) : Prop :=
  ∃ instructions, engine.instructions query values = .ok instructions ∧
    engine.setting.RefusesPart ⟨engine.setting.graph.root, instructions⟩ error

theorem RefusesPart.leavesUnion (h : engine.RefusesPart query values error) :
    engine.LeavesUnion query values := by
  obtain ⟨instructions, hread, place, rest, _, _, _, hleaves, _⟩ := h
  exact ⟨instructions, hread, place, rest, hleaves⟩

theorem instructions_withoutResolvers (engine : Engine) (query : Json) (values : List Json) :
    engine.withoutResolvers.instructions query values = engine.instructions query values := rfl

theorem agree_plan (hoperators : engine.operators = Operator.builtin) (instructions : List Json) :
    Except.Agree (fun _ _ => True) (engine.plan instructions).result
      (engine.withoutResolvers.plan instructions).result := by
  have halike := engine.setting.compilesAlike engine.setting.execution.recursionLimit false
    engine.setting.graph.root instructions
  rw [← hoperators] at halike
  exact halike

/-- A query that is refused without resolvers is refused with them. -/
theorem result_run_of_refuses (hoperators : engine.operators = Operator.builtin)
    (h : engine.withoutResolvers.Refuses query values error) (context : Context) :
    (engine.run query values context).result = .error error := by
  rw [Refuses, instructions_withoutResolvers] at h
  rw [result_run]
  cases hread : engine.instructions query values with
  | error refused =>
    rw [hread] at h
    exact congrArg Except.error (Except.error.inj h)
  | ok instructions =>
    rw [hread, Except.ok_bind] at h
    rw [Except.ok_bind, (agree_plan hoperators instructions).symm.eq_error h]
    rfl

/-- Where the error of a run comes from. -/
theorem origin_of_run (hoperators : engine.operators = Operator.builtin)
    (hresolvers : ∀ shape, ∀ middleware ∈ engine.setting.resolvers.atShape shape,
      Middleware.RaisesOnly Error.Masked middleware)
    {context : Context} (h : (engine.run query values context).result = .error error) :
    engine.withoutResolvers.Refuses query values error ∨ error.Masked ∨
      engine.withoutResolvers.LeavesUnion query values ∧ error.OfUnion ∨
        engine.withoutResolvers.RefusesPart query values error := by
  rw [result_run] at h
  unfold Refuses LeavesUnion RefusesPart
  rw [instructions_withoutResolvers]
  cases hread : engine.instructions query values with
  | error refused =>
    rw [hread] at h
    exact .inl (congrArg Except.error (Except.error.inj h))
  | ok instructions =>
    rw [hread, Except.ok_bind] at h
    have hplanned := agree_plan hoperators instructions
    cases hplan : (engine.plan instructions).result with
    | error refused =>
      rw [hplan] at h hplanned
      cases h
      exact .inl (hplanned.eq_error rfl)
    | ok middleware =>
      rw [hplan, Except.ok_bind] at h
      unfold plan at hplan
      rw [hoperators] at hplan
      have hkeeps := Setting.origin_of_compile ⟨engine.setting.graph.root, instructions⟩ hresolvers hplan
      rcases (hkeeps.meets_evaluate context).fine_of (Except.map_eq_error_iff.mp h) with
        hmasked | ⟨hleaves, hunion⟩ | hrefused
      · exact .inr (.inl hmasked)
      · exact .inr (.inr (.inl ⟨⟨instructions, rfl, hleaves⟩, hunion⟩))
      · exact .inr (.inr (.inr ⟨instructions, rfl, hrefused⟩))

section

variable {engine₁ engine₂ : Engine} {error₁ error₂ : Error} {context₁ context₂ : Context}

/-- What the errors of two runs have in common if clients cannot tell them apart by their code. -/
theorem common_origin (hplain : engine₂.withoutResolvers = engine₁.withoutResolvers)
    (hoperators : engine₁.operators = Operator.builtin)
    (hresolvers₁ : ∀ shape, ∀ middleware ∈ engine₁.setting.resolvers.atShape shape,
      Middleware.RaisesOnly Error.Masked middleware)
    (hresolvers₂ : ∀ shape, ∀ middleware ∈ engine₂.setting.resolvers.atShape shape,
      Middleware.RaisesOnly Error.Masked middleware)
    (hrun₁ : (engine₁.run query values context₁).result = .error error₁)
    (hrun₂ : (engine₂.run query values context₂).result = .error error₂)
    (hcode : error₁.code = error₂.code) :
    error₁ = error₂ ∨ error₁.Masked ∨ engine₁.withoutResolvers.LeavesUnion query values ∧
      (error₁.OfUnion ∨ engine₁.withoutResolvers.RefusesPart query values error₁ ∧
        engine₁.withoutResolvers.RefusesPart query values error₂) := by
  have hoperators₂ : engine₂.operators = Operator.builtin :=
    (congrArg Engine.operators hplain).trans hoperators
  have horigin₂ := origin_of_run hoperators₂ hresolvers₂ hrun₂
  rw [hplain] at horigin₂
  rcases origin_of_run hoperators hresolvers₁ hrun₁ with hrefuses | hmasked | ⟨hleaves, hunion⟩ | hrefused₁
  · have hsame := result_run_of_refuses hoperators₂ (hplain ▸ hrefuses) context₂
    exact .inl (Except.error.inj (hsame.symm.trans hrun₂))
  · exact .inr (.inl hmasked)
  · exact .inr (.inr ⟨hleaves, .inl hunion⟩)
  -- the first error is that of a part of the query, so the second one decides
  rcases horigin₂ with hrefuses | hmasked | ⟨hleaves, hunion⟩ | hrefused₂
  · have hsame := result_run_of_refuses hoperators hrefuses context₁
    exact .inl (Except.error.inj (hrun₁.symm.trans hsame))
  · exact .inr (.inl (hmasked.of_code hcode.symm))
  · exact .inr (.inr ⟨hleaves, .inl (hunion.of_code hcode.symm)⟩)
  · exact .inr (.inr ⟨hrefused₁.leavesUnion, .inr ⟨hrefused₁, hrefused₂⟩⟩)

/-- Engines that differ in their resolvers show clients the same of two failures with the same code, key
and candidates, up to the value that was matched against a union; or else they refuse parts of the query
that it leaves to such a value. Where the query leaves no union to the value, they show the same. -/
theorem disclosed_of_runs {graph : Graph} {entry : String} {configuration : Configuration}
    {resolvers₁ resolvers₂ : List Resolver}
    (h₁ : assemble graph entry resolvers₁ [] configuration = .ok engine₁)
    (h₂ : assemble graph entry resolvers₂ [] configuration = .ok engine₂)
    (hraises₁ : ∀ resolver ∈ resolvers₁, ∀ middleware ∈ resolver.middlewares,
      Middleware.RaisesOnly Error.Masked middleware)
    (hraises₂ : ∀ resolver ∈ resolvers₂, ∀ middleware ∈ resolver.middlewares,
      Middleware.RaisesOnly Error.Masked middleware)
    (hrun₁ : (engine₁.run query values context₁).result = .error error₁)
    (hrun₂ : (engine₂.run query values context₂).result = .error error₂)
    (hcode : error₁.code = error₂.code) (hkey : error₁.key? = error₂.key?)
    (hcandidates : error₁.candidates? = error₂.candidates?) :
    (error₁.withoutValue.disclosed = error₂.withoutValue.disclosed ∨
      engine₁.withoutResolvers.RefusesPart query values error₁ ∧
        engine₁.withoutResolvers.RefusesPart query values error₂) ∧
      (¬ engine₁.withoutResolvers.LeavesUnion query values → error₁.disclosed = error₂.disclosed) := by
  have hplain : engine₂.withoutResolvers = engine₁.withoutResolvers := by
    obtain ⟨_, rfl⟩ := eq_of_assemble h₁
    obtain ⟨_, rfl⟩ := eq_of_assemble h₂
    rfl
  have raises {resolvers : List Resolver} {engine : Engine}
      (h : assemble graph entry resolvers [] configuration = .ok engine)
      (hraises : ∀ resolver ∈ resolvers, ∀ middleware ∈ resolver.middlewares,
        Middleware.RaisesOnly Error.Masked middleware) :
      ∀ shape, ∀ middleware ∈ engine.setting.resolvers.atShape shape,
        Middleware.RaisesOnly Error.Masked middleware := by
    intro shape middleware hm
    rw [resolvers_of_assemble h] at hm
    obtain ⟨resolver, hresolver, hm⟩ := Resolvers.exists_of_mem_atShape hm
    exact hraises resolver hresolver middleware hm
  rcases common_origin hplain (operators_of_assemble h₁) (raises h₁ hraises₁) (raises h₂ hraises₂)
    hrun₁ hrun₂ hcode with rfl | hmasked | ⟨hleaves, hunion | hrefused⟩
  · exact ⟨.inl rfl, fun _ => rfl⟩
  · have hdisclosed := hmasked.disclosed_eq hcode
    rw [hmasked.withoutValue_eq, (hmasked.of_code hcode).withoutValue_eq]
    exact ⟨.inl hdisclosed, fun _ => hdisclosed⟩
  · have hsame := hunion.withoutValue_eq hcode hkey hcandidates
    exact ⟨.inl (congrArg Error.disclosed hsame), fun hnone => absurd hleaves hnone⟩
  · exact ⟨.inr hrefused, fun hnone => absurd hleaves hnone⟩

end

end Engine

/-! ## A vault -/

namespace Vault

/-- A vault holds two secrets, each of them a text or a text with a label. -/
def entries : Declarations :=
  [("Vault", .object ⟨0, "Vault"⟩ (some "Vault") [] [
      ⟨"first", .ref ⟨1, "Vault.first"⟩ "Secret" [], false⟩,
      ⟨"second", .ref ⟨2, "Vault.second"⟩ "Secret" [], false⟩]),
    ("Secret", .typeAlias ⟨3, "Secret"⟩ "Secret" []
      (.union ⟨4, "Secret.body"⟩ [.primitive ⟨5, "Secret.0"⟩ .string,
        .object ⟨6, "Secret.1"⟩ none [] [⟨"label", .primitive ⟨7, "Secret.1.label"⟩ .string, false⟩]]))]

def graph : Graph := ⟨0, ⟨entries, by decide, by rfl⟩⟩

def entry : Node :=
  .child graph.root (.entry "Vault")
    (.declared ((graph.schema.entry? "Vault").getD graph.schema.root) [])

def resolvers (value : Json) : List Resolver :=
  [⟨entry, [Middleware.set value]⟩]

def engine (value : Json) : Engine :=
  ⟨{ graph, entry := "Vault", resolvers := .bind (resolvers value), execution := {},
     reach := defaultReach }, Operator.builtin⟩

theorem assemble_eq_engine (value : Json) :
    Engine.assemble graph "Vault" (resolvers value) [] {} = .ok (engine value) := rfl

theorem raisesOnly (value : Json) :
    ∀ resolver ∈ resolvers value, ∀ middleware ∈ resolver.middlewares,
      Middleware.RaisesOnly Error.Masked middleware := by
  intro resolver hresolver middleware hm
  cases List.mem_singleton.mp hresolver
  cases List.mem_singleton.mp hm
  exact Middleware.raisesOnly_set value

/-- The whole vault. -/
def whole : Json := .array [.string "Vault"]

/-- The label of the first secret, and the size of the second one, which none has. -/
def labelAndSize : Json := .array [.string "Vault", .object [("kind", .string "select"),
  ("fields", .object [("first", .array [.string "label"]), ("second", .array [.string "size"])])]]

def secrets (first second : Json) : Json :=
  .object [("first", first), ("second", second)]

theorem not_leavesUnion_whole (value : Json) :
    ¬ (engine value).withoutResolvers.LeavesUnion whole [] := by
  rintro ⟨instructions, hread, place, rest, hcomes, hdemand⟩
  cases hread
  cases hcomes with
  | here => cases hdemand
  | anew hanew => cases hanew
  | leads hthrough hleads hnext =>
    cases hthrough
    cases hleads
    cases hnext with
    | here => cases hdemand
    | anew hanew => cases hanew
    | leads hwhole hleads =>
      cases hwhole
      cases hleads

/-- A vault that is a text is not shown. -/
theorem disclosed_texts : ∃ error₁ error₂,
    ((engine (.string "a")).run whole [] .empty).result = .error error₁ ∧
      ((engine (.string "b")).run whole [] .empty).result = .error error₂ ∧
        error₁ ≠ error₂ ∧ error₁.disclosed = error₂.disclosed := by
  have hrun₁ : ((engine (.string "a")).run whole [] .empty).result =
      .error (.invalidResolvedValue "Vault" "object" "\"a\"") := rfl
  have hrun₂ : ((engine (.string "b")).run whole [] .empty).result =
      .error (.invalidResolvedValue "Vault" "object" "\"b\"") := rfl
  have hsame := Engine.disclosed_of_runs (assemble_eq_engine _) (assemble_eq_engine _) (raisesOnly _)
    (raisesOnly _) hrun₁ hrun₂ rfl rfl rfl
  exact ⟨_, _, hrun₁, hrun₂, by decide, hsame.2 (not_leavesUnion_whole _)⟩

/-- A secret is shown where it stands for no member. -/
theorem disclosed_truthValues : ∃ engine₁ engine₂ error₁ error₂,
    Engine.assemble graph "Vault" (resolvers (secrets (.bool true) .null)) [] {} = .ok engine₁ ∧
      Engine.assemble graph "Vault" (resolvers (secrets (.bool false) .null)) [] {} = .ok engine₂ ∧
        (engine₁.run labelAndSize [] .empty).result = .error error₁ ∧
          (engine₂.run labelAndSize [] .empty).result = .error error₂ ∧
            error₁.code = error₂.code ∧ error₁.key? = error₂.key? ∧
              error₁.candidates? = error₂.candidates? ∧ error₁.disclosed ≠ error₂.disclosed :=
  ⟨engine _, engine _, .noUnionMatch "Secret.body" "true", .noUnionMatch "Secret.body" "false",
    rfl, rfl, rfl, rfl, rfl, rfl, rfl, by decide⟩

-- which part of the query is refused depends on the member that the first secret stands for
example :
    ((engine (secrets (.string "a") .null)).run labelAndSize [] .empty).result =
        .error (.invalidQuery "Secret.0" "\"label\"" "'primitive' values take no further instructions") ∧
      ((engine (secrets (.object [("label", .string "a")]) (.string "b"))).run labelAndSize []
          .empty).result =
        .error (.invalidQuery "Secret.0" "\"size\"" "'primitive' values take no further instructions") :=
  ⟨rfl, rfl⟩

end Vault

end PathQuery
