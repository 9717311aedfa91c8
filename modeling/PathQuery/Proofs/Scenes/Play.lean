import PathQuery.Proofs.Marks.Passages
import PathQuery.Proofs.Query.Findings
import PathQuery.Proofs.Scenes.Scene

/-!
# Runs that are looked at

`Setting.play` answers a query with a scene in place of a context, so that at every moment it is known
how the context came about. Each time a host is run, and each time the rest of its chain has come back
to it, a lookout is told: where its node was come to, the node, and the scene that the host is shown.
-/

set_option autoImplicit false

namespace PathQuery

/-- What is done when a host is shown a scene of a node that a query came to in another one. -/
abbrev Lookout := Scene → Node → Scene → Run Unit

namespace Lookout

variable (lookout : Lookout) (arrival : Scene) (node : Node)

/-- A host of a node that is looked at. -/
def around (host : Host) (rest : Scene → Run Scene) (scene : Scene) : Run Scene := do
  lookout arrival node scene
  match ← host scene.context with
  | .stop added => return scene.extend node added
  | .goOn added returned failed => do
    match ← (rest (scene.extend node added)).attempt with
    | .ok last => do
      lookout arrival node last
      let (basis, added) ← returned last.context
      return (basis.pick scene last).extend node added
    | .error error => return scene.extend node (← failed error)

def chain (hosts : List Host) (core : Scene → Run Scene) : Scene → Run Scene :=
  hosts.foldr (around lookout arrival node) core

/-- The hosts of a node around its descent. -/
def enclose (hosts : List Host) (input : Option Json) (descent : Scene → Run (Option Json)) :
    Run (Option Json) := do
  let last ← chain lookout arrival node hosts (fun scene => return .put scene (← descent scene))
    (.enter arrival node input)
  return last.context.value?

end Lookout

namespace Scene

def onSettled (optional : Bool) (node : Node) (go : Scene → Json → Run (Option Json)) (scene : Scene) :
    Run (Option Json) := do
  match ← Traced.ofExcept (Descent.settle optional node scene.context) with
  | some value => go scene value
  | none => return none

def excerpt (excerpt : Excerpt) (parallel : Bool) (node : Node)
    (item : Scene → Run (Option Json)) (scene : Scene) (value : Json) : Run (Option Json) :=
  match value with
  | .array list =>
    let answer (entry : Json × Nat) : Run (Option Json) := item (.item scene list entry.2 entry.1)
    match excerpt.single? with
    | some index =>
      match list[index]? with
      | some value => answer (value, index)
      | none => return some .null
    | none => do
      let items := excerpt.items (scene.context.isSliced node) list
      let values ← Run.all parallel (items.map answer)
      return some (.array (values.map fun value => value.getD .null))
  | other => return some other

end Scene

namespace Setting

variable (setting : Setting) (lookout : Lookout) (hosts : Structure → List Host)

/-- The innermost step at a node, where `answer` answers at the nodes that come next. -/
def descendPlay (levels : Nat) (answer : Bool → Node → List Json → Scene → Run (Option Json))
    (optional : Bool) (node : Node) : Demand → Scene → Run (Option Json)
  | .whole => Scene.onSettled optional node fun _ value => return some value
  | .through _ child rest => fun scene =>
    if node.kind = .nullable ∧ scene.context.value? = some .null then return some .null
    else answer optional child rest (.behind scene node child)
  | .property name flag child rest => Scene.onSettled optional node fun scene value =>
    answer flag child rest (.member scene value (value.member? name))
  | .members head properties requested => Scene.onSettled optional node fun scene value =>
    match value with
    | .object given => do
      let values ← Run.all setting.execution.parallel (requested.map fun field => do
        let (flag, child, query) ← Traced.ofExcept (node.requested head properties field)
        answer flag child query (.member scene value (given.lookup field.1)))
      return some (.object (Operator.gather (requested.map Prod.fst) values))
    | other => return some other
  | .items excerpt item rest =>
    Scene.onSettled optional node
      (Scene.excerpt excerpt setting.execution.parallel node (answer false item rest))
  | .matched query => Scene.onSettled optional node fun scene value => do
    let member ← Walk.run do
      let member ← Matching.selectMember setting.reach node (some value) none
      let _ ← setting.compile Operator.builtin levels optional member query
      return member
    answer optional member query (.put scene (some value))
  | .anew query => fun scene => answer false setting.graph.root query (.put scene none)

/-- Answers a query that comes to a node in a scene. -/
def play : Nat → Bool → Node → List Json → Scene → Run (Option Json)
  | 0, _, _, _, _ => Traced.fail (.recursionLimitExceeded setting.execution.recursionLimit)
  | levels + 1, optional, node, query, arrival => do
    let demand ← Traced.ofExcept (setting.demand node query)
    let descent := setting.descendPlay levels (play levels) optional node demand
    match demand with
    | .anew _ => descent arrival
    | _ => lookout.enclose arrival node (hosts node.shape) demand.input? descent

end Setting

/-- Compiles a whole query for its errors and visits, and answers it from the root. -/
def Engine.play (engine : Engine) (lookout : Lookout) (hosts : Structure → List Host) (query : Json)
    (values : List Json) (seed : Context) : Run Json := do
  let setting := engine.setting
  let instructions ← Traced.ofExcept (engine.instructions query values)
  let _ ← Walk.run (engine.plan instructions)
  let value ← setting.play lookout hosts setting.execution.recursionLimit false setting.graph.root
    instructions (.seed seed)
  return value.getD .null

/-! ## Chains of hosts -/

namespace Lookout

open Scene (Within Arrives Sighted sighted)

variable {setting : Setting} {seed : Context} {lookout : Lookout} {arrival scene : Scene} {node : Node}

/-- Nothing is done about what is in order. -/
def Silent (lookout : Lookout) (setting : Setting) (seed : Context) : Prop :=
  ∀ arrival node scene, Sighted setting seed arrival node scene →
    lookout arrival node scene = pure ()

/-- Nothing is done where a node is come to in this scene. -/
def SilentAt (lookout : Lookout) (arrival : Scene) (node : Node) : Prop :=
  ∀ scene, Within arrival node scene → lookout arrival node scene = pure ()

theorem Silent.silentAt (h : lookout.Silent setting seed) (hseed : seed.Bare)
    (harrives : Arrives setting seed arrival node) : lookout.SilentAt arrival node :=
  fun scene hwithin => h arrival node scene (sighted hseed harrives hwithin)

/-- What goes on in contexts is what goes on in scenes of a node. -/
structure Shows (arrival : Scene) (node : Node) (contexts : Run Context) (scenes : Run Scene) :
    Prop where
  eq : contexts = Scene.context <$> scenes
  within : ∀ last, scenes.result = .ok last → Within arrival node last

theorem Shows.pure (h : Within arrival node scene) :
    Shows arrival node (Pure.pure scene.context) (Pure.pure scene) where
  eq := (map_pure _ _).symm
  within last hlast := by
    cases hlast
    exact h

theorem Shows.bind {α : Type} {x : Run α} {contexts : α → Run Context} {scenes : α → Run Scene}
    (h : ∀ a, x.result = .ok a → Shows arrival node (contexts a) (scenes a)) :
    Shows arrival node (x >>= contexts) (x >>= scenes) where
  eq := by
    rw [map_bind]
    exact Traced.bind_congr_of_ok fun a ha => (h a ha).eq
  within last hlast := by
    rw [Traced.result_bind] at hlast
    obtain ⟨a, ha, hlast⟩ := Except.bind_eq_ok_iff.mp hlast
    exact (h a ha).within last hlast

/-- The rest of a chain goes on from contexts as it goes on from the scenes of a node. -/
def Follows (arrival : Scene) (node : Node) (next : Continuation) (rest : Scene → Run Scene) : Prop :=
  ∀ scene, Within arrival node scene → Shows arrival node (next scene.context) (rest scene)

theorem shows_extend (h : Within arrival node scene) (added : List Contribution) :
    Shows arrival node (Host.extend scene.context added) (Pure.pure (scene.extend node added)) := by
  rw [Host.extend, h.apply added]
  exact .pure (h.extend added)

theorem Follows.around {next : Continuation} {rest : Scene → Run Scene}
    (h : Follows arrival node next rest) (hsilent : lookout.SilentAt arrival node) (host : Host) :
    Follows arrival node (fun context => host.middleware context next)
      (lookout.around arrival node host rest) := by
  intro scene hwithin
  unfold Host.middleware
  rw [Lookout.around, hsilent scene hwithin, Traced.pure_bind]
  refine .bind fun course _ => ?_
  cases course with
  | stop added => exact shows_extend hwithin added
  | goOn added returned failed =>
    have hnext := h _ (hwithin.extend added)
    dsimp only
    -- the rest of the chain may have failed, and then the host goes on from what it was shown
    rw [(shows_extend hwithin added).eq, map_pure, Traced.pure_bind, hnext.eq, Traced.attempt_map,
      bind_map_left]
    refine .bind fun outcome houtcome => ?_
    cases outcome with
    | ok last =>
      have hlast := hnext.within last (Except.ok.inj houtcome)
      dsimp only [Except.map]
      rw [hsilent last hlast, Traced.pure_bind]
      refine .bind fun (basis, added) _ => ?_
      cases basis with
      | received => exact shows_extend hwithin added
      | returned => exact shows_extend hlast added
    | error error => exact .bind fun added _ => shows_extend hwithin added

theorem Follows.chain {next : Continuation} {core : Scene → Run Scene}
    (h : Follows arrival node next core) (hsilent : lookout.SilentAt arrival node)
    (hosts : List Host) :
    Follows arrival node (fun context => Middleware.compose (hosts.map Host.middleware) context next)
      (lookout.chain arrival node hosts core) := by
  induction hosts with
  | nil => exact h
  | cons host hosts ih => exact ih.around hsilent host

theorem evaluate_enclose {resolvers : List HostedResolver} {input : Option Json} {descent : Descent}
    {staged : Scene → Run (Option Json)} (hsilent : lookout.SilentAt arrival node)
    (hdescent : ∀ scene, Within arrival node scene → descent scene.context = staged scene) :
    (Descent.enclose (.bind (resolvers.map HostedResolver.resolver)) node input descent).evaluate
        arrival.context =
      lookout.enclose arrival node (HostedResolver.hostsAt resolvers node.shape) input staged := by
  have hcore : Follows arrival node (Descent.core descent)
      (fun scene => return .put scene (← staged scene)) := by
    intro scene hwithin
    rw [Descent.core, hdescent scene hwithin]
    exact .bind fun value _ => .pure (hwithin.put value)
  have hchain := hcore.chain hsilent (HostedResolver.hostsAt resolvers node.shape) _ (.enter input)
  rw [Middleware.evaluate_enclose, HostedResolver.atShape_hosted, enclose, bind_pure_comp]
  exact (congrArg (Context.value? <$> ·) hchain.eq).trans (Functor.map_map _ _ _)

end Lookout

/-! ## One level -/

namespace Scene

variable {optional : Bool} {node : Node} {scene : Scene}

theorem onSettled_eq {go : Context → Json → Run (Option Json)}
    {staged : Scene → Json → Run (Option Json)}
    (h : ∀ value, Descent.settle optional node scene.context = .ok (some value) →
      go scene.context value = staged scene value) :
    Descent.onSettled optional node go scene.context = onSettled optional node staged scene := by
  refine Traced.bind_congr_of_ok fun settled hsettled => ?_
  cases settled with
  | none => rfl
  | some value => exact h value hsettled

theorem excerpt_eq {excerpt : Excerpt} {parallel : Bool} {inner : Middleware}
    {staged : Scene → Run (Option Json)} {value : Json}
    (h : ∀ list index entry, value = .array list → list[index]? = some entry →
      inner.evaluate (item scene list index entry).context = staged (.item scene list index entry)) :
    excerpt.run parallel node inner scene.context value =
      Scene.excerpt excerpt parallel node staged scene value := by
  cases value with
  | array list =>
    unfold Excerpt.run Scene.excerpt
    dsimp only
    cases excerpt.single? with
    | some index =>
      dsimp only
      cases hfound : list[index]? with
      | some entry => exact h list index entry rfl hfound
      | none => rfl
    | none =>
      refine congrArg (Run.all parallel · >>= _) (List.map_congr_left fun entry hentry => ?_)
      exact h list entry.2 entry.1 rfl (Excerpt.getElem?_of_mem_items hentry)
  | _ => rfl

end Scene

namespace Setting

open HostedResolver (hostsAt)

variable {setting : Setting} {seed : Context} {lookout : Lookout} {resolvers : List HostedResolver}
  {start place : Place} {levels : Nat} {arrival scene : Scene}

/-- What is compiled with this many levels left is played in every scene that a query comes to. -/
def PlayedAt (setting : Setting) (lookout : Lookout) (hosts : Structure → List Host) (seed : Context)
    (start : Place) (levels : Nat) : Prop :=
  ∀ {optional : Bool} {place : Place} {inner : Middleware}, setting.Asked start place →
    (setting.compile Operator.builtin levels optional place.node place.query).result = .ok inner →
      ∀ {scene : Scene}, Scene.Arrives setting seed scene place.node →
        inner.evaluate scene.context =
          setting.play lookout hosts levels optional place.node place.query scene

theorem PlayedAt.assemble (h : setting.PlayedAt lookout (hostsAt resolvers) seed start levels)
    (hresolvers : setting.resolvers = .bind (resolvers.map HostedResolver.resolver))
    (hseed : seed.Bare) (hsilent : lookout.Silent setting seed)
    (hasked : setting.Asked start place) {demand : Demand}
    (hdemand : setting.demand place.node place.query = .ok demand)
    (hanew : ∀ query, demand ≠ .anew query) {optional : Bool} {middleware : Middleware}
    (hassemble : demand.assemble ⟨setting, optional, setting.compile Operator.builtin levels⟩
      place.node = .ok middleware) (harrives : Scene.Arrives setting seed arrival place.node) :
    middleware.evaluate arrival.context =
      lookout.enclose arrival place.node (hostsAt resolvers place.node.shape) demand.input?
        (setting.descendPlay levels (setting.play lookout (hostsAt resolvers) levels) optional
          place.node demand) := by
  have hsuits := suits_demand hdemand
  have below {next : Place} {flag : Bool} {inner : Middleware} {scene : Scene}
      (hleads : demand.Leads setting place.node next)
      (hinner : (setting.compile Operator.builtin levels flag next.node next.query).result =
        .ok inner) (harrives : Scene.Arrives setting seed scene next.node) :
      inner.evaluate scene.context =
        setting.play lookout (hostsAt resolvers) levels flag next.node next.query scene :=
    h (.leads hasked hdemand hleads) hinner harrives
  have enclosed {input : Option Json} {descent : Descent} {staged : Scene → Run (Option Json)}
      (hdescent : ∀ scene, Scene.Within arrival place.node scene →
        descent scene.context = staged scene) :
      (Descent.enclose setting.resolvers place.node input descent).evaluate arrival.context =
        lookout.enclose arrival place.node (hostsAt resolvers place.node.shape) input staged := by
    rw [hresolvers]
    exact Lookout.evaluate_enclose (hsilent.silentAt hseed harrives) hdescent
  have settled {input : Option Json} {go : Context → Json → Run (Option Json)}
      {staged : Scene → Json → Run (Option Json)}
      (hgo : ∀ scene value, Scene.Within arrival place.node scene →
        Descent.settle optional place.node scene.context = .ok (some value) →
          go scene.context value = staged scene value) :
      (Descent.enclose setting.resolvers place.node input
        (Descent.onSettled optional place.node go)).evaluate arrival.context =
        lookout.enclose arrival place.node (hostsAt resolvers place.node.shape) input
          (Scene.onSettled optional place.node staged) :=
    enclosed fun scene hwithin => Scene.onSettled_eq fun value => hgo scene value hwithin
  cases demand with
  | anew query => exact absurd rfl (hanew query)
  | whole =>
    cases hassemble
    exact settled fun _ _ _ _ => rfl
  | through input child rest =>
    obtain ⟨inner, hinner, rfl⟩ := Except.map_eq_ok_iff.mp hassemble
    obtain ⟨hobject, harray, step, hchild⟩ := hsuits
    refine enclosed fun scene hwithin => ?_
    have hbehind : inner.evaluate (Descent.passMarks place.node child scene.context) = _ :=
      below .through hinner (.behind harrives hwithin ⟨hobject, harray⟩ hchild)
    unfold Descent.through descendPlay
    rw [hbehind]
  | property name flag child rest =>
    obtain ⟨inner, hinner, rfl⟩ := Except.map_eq_ok_iff.mp hassemble
    refine settled fun scene value hwithin hsettled => ?_
    exact below .property hinner (.member harrives hwithin hsuits.1 hsettled hsuits.2)
  | members head properties requested =>
    obtain ⟨fields, hfields, rfl⟩ := Except.map_eq_ok_iff.mp hassemble
    refine settled fun scene value hwithin hsettled => ?_
    cases value with
    | object given =>
      unfold Demand.intoMembers
      dsimp only
      have hmember {name : String} {child : Node}
          (hchild : place.node.child? (.field name) = .ok child) :
          Scene.Arrives setting seed (.member scene (.object given) (given.lookup name)) child :=
        .member harrives hwithin hsuits hsettled hchild
      rw [Operator.project_eq hfields fun field hfield flag child query hrequested inner hinner =>
        below (.member hfield hrequested) hinner (hmember (Node.child?_of_requested hrequested))]
      rw [bind_pure_comp, bind_pure_comp, Functor.map_map]
    | _ => rfl
  | items excerpt item rest =>
    obtain ⟨inner, hinner, rfl⟩ := Except.map_eq_ok_iff.mp hassemble
    refine settled fun scene value hwithin hsettled => ?_
    refine Scene.excerpt_eq fun list index entry hlist hfound => ?_
    subst hlist
    exact below .item hinner (.item harrives hwithin hsuits.1 hsettled hfound hsuits.2)
  | matched query =>
    cases hassemble
    refine settled fun scene value hwithin hsettled => ?_
    -- the member is compiled here, once the value is in hand, and not with the rest of the query
    refine Walk.run_bind_run _ _ fun member inner hmember hinner => ?_
    exact below (.matched hmember) hinner
      (.matched harrives hwithin hsettled (Matching.memberOf_of_selectMember hmember))

theorem playedAt (hresolvers : setting.resolvers = .bind (resolvers.map HostedResolver.resolver))
    (hseed : seed.Bare) (hsilent : lookout.Silent setting seed) (hstraight : setting.Straight start)
    (levels : Nat) : setting.PlayedAt lookout (hostsAt resolvers) seed start levels := by
  induction levels with
  | zero =>
    intro _ _ _ _ h
    cases h
  | succ levels ih =>
    intro optional place inner hasked hinner scene harrives
    rw [compile_succ] at hinner
    obtain ⟨demand, hdemand, hassemble⟩ := Except.bind_eq_ok_iff.mp hinner
    have hanew : ∀ query, demand ≠ .anew query := by
      rintro query rfl
      exact hstraight place hasked query hdemand
    rw [ih.assemble hresolvers hseed hsilent hasked hdemand hanew hassemble harrives, play, hdemand]
    cases demand with
    | anew query => exact absurd rfl (hanew query)
    | _ => rfl

end Setting

end PathQuery
