import PathQuery.Proofs.Marks.Run
import PathQuery.Proofs.Scenes.Play

/-!
# Runs in scenes

Engines whose middlewares are hosts answer every query that does not start again at the root as it is
played. What a host is shown, and what it gets back, is in order: a lookout that does nothing about
sightings has nothing to do in a whole run (`Engine.play_eq_run`).
-/

set_option autoImplicit false

namespace PathQuery

open HostedResolver (resolver hostsAt)

/-- An engine without operators of the host, whose middlewares are hosts, plays every query that does
not start again at the root. Whenever a host is run, and whenever the rest of its chain has come back to
it, the lookout is told of it; what it may do about anything that is no sighting is never seen. -/
theorem Engine.play_eq_run {graph : Graph} {entry : String} {resolvers : List HostedResolver}
    {configuration : Configuration} {engine : Engine}
    (h : assemble graph entry (resolvers.map resolver) [] configuration = .ok engine)
    {query : Json} {values : List Json}
    (hstraight : ∀ instructions, engine.instructions query values = .ok instructions →
      engine.setting.Straight ⟨engine.setting.graph.root, instructions⟩)
    {seed : Context} (hseed : seed.Bare) {lookout : Lookout}
    (hsilent : lookout.Silent engine.setting seed) :
    engine.play lookout (hostsAt resolvers) query values seed = engine.run query values seed := by
  unfold play run
  refine Traced.bind_congr_of_ok fun instructions hinstructions => ?_
  refine Traced.bind_congr_of_ok fun middleware hplan => ?_
  have hcompiled : (engine.plan instructions).result = .ok middleware := hplan
  unfold plan at hcompiled
  rw [operators_of_assemble h] at hcompiled
  have hplayed : engine.setting.PlayedAt _ _ _ _ _ := Setting.playedAt (resolvers_of_assemble h)
    hseed hsilent (hstraight instructions hinstructions) engine.setting.execution.recursionLimit
  exact congrArg (· >>= _) (hplayed .start hcompiled .seed).symm

namespace Lookout

/-- Fails where a context does not tell of a scene where its node is resolved. -/
def position : Lookout := fun arrival node scene =>
  if scene.context.activeNode.toOption.any (· == node) ∧
      scene.context.get? .parent = arrival.parent? ∧
        scene.context.get? .index = arrival.index? then return ()
  else Traced.fail (.resolverFailed node.key)

theorem silent_position (setting : Setting) (seed : Context) : position.Silent setting seed := by
  intro arrival node scene h
  have hactive : scene.context.activeNode.toOption.any (· == node) = true := by
    rw [h.active]
    exact (Node.beq_iff node node).mpr ⟨rfl, rfl⟩
  exact if_pos ⟨hactive, h.parent, h.index⟩

end Lookout

namespace Album

/-- Numbers the tags, and leaves something behind with each that no other one may find. -/
def number : Host := .relay fun context =>
  match context.get? .index, context.get? (.host "numbered") with
  | some index, none => [.set (some (.string (toString index))), .data "numbered" .null none]
  | _, _ => [.set none]

def item : Node :=
  .child (declared "Tags") .items (.nested [] (.primitive ⟨5, "Tags.items"⟩ .string))

def hosted : List HostedResolver :=
  [⟨declared "Album", [.relay fun _ => [.set (some (.object []))]]⟩,
    ⟨tags, [.relay fun _ => [.sliced list]]⟩, ⟨item, [number]⟩]

def numberingEngine : Engine :=
  ⟨{ graph, entry := "Album", resolvers := .bind (hosted.map resolver), execution := {},
     reach := defaultReach }, Operator.builtin⟩

theorem assemble_eq_numberingEngine :
    Engine.assemble graph "Album" (hosted.map resolver) [] {} = .ok numberingEngine := rfl

theorem play_numbered :
    (numberingEngine.run (.array query) [] .empty).result = .ok (.array [.string "0", .string "1"]) ∧
      numberingEngine.play .position (hostsAt hosted) (.array query) [] .empty =
        numberingEngine.run (.array query) [] .empty := by
  have hstraight : ∀ instructions, numberingEngine.instructions (.array query) [] = .ok instructions →
      numberingEngine.setting.Straight ⟨numberingEngine.setting.graph.root, instructions⟩ := by
    intro instructions hinstructions
    obtain rfl : query = instructions := Except.ok.inj hinstructions
    exact Setting.straight_of_lacks lacks_path _
  have hseed : Context.empty.Bare := List.forall_mem_nil _
  exact ⟨rfl, Engine.play_eq_run assemble_eq_numberingEngine hstraight hseed
    (Lookout.silent_position _ _)⟩

end Album

end PathQuery
