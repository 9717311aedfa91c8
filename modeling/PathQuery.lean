import PathQuery.Json.Reader
import PathQuery.Graph.Arena
import PathQuery.Middleware.Stock
import PathQuery.Configuration.Schema
import PathQuery.Request
import PathQuery.Query.Stock
import PathQuery.Proofs.Together
import PathQuery.Proofs.Siblings
import PathQuery.Proofs.Evaluation.Run
import PathQuery.Proofs.Graph.ClosedType
import PathQuery.Proofs.Query.Resolution
import PathQuery.Proofs.Query.ResultType
import PathQuery.Proofs.Graph.Visit
import PathQuery.Proofs.Schema.WellFormed
import PathQuery.Proofs.Graph.Session
import PathQuery.Proofs.Graph.Representation
import PathQuery.Proofs.Middleware.Traces
import PathQuery.Proofs.Query.Places
import PathQuery.Proofs.Query.Failures
import PathQuery.Proofs.Query.Registration
import PathQuery.Proofs.Query.Nesting
import PathQuery.Proofs.Query.Inputs
import PathQuery.Proofs.Query.Lookups
import PathQuery.Proofs.Query.Selection
import PathQuery.Proofs.Query.Product
import PathQuery.Proofs.Query.Pages
import PathQuery.Proofs.Schema.Occurrence
import PathQuery.Proofs.Schema.Chain
import PathQuery.Proofs.Schema.Reading
import PathQuery.Proofs.Schema.RoundTrip
import PathQuery.Proofs.Schema.Acceptance
import PathQuery.Proofs.Graph.Dereferenced
import PathQuery.Proofs.Matching.Conformance
import PathQuery.Proofs.Query.Language
import PathQuery.Proofs.Matching.Conclusion
import PathQuery.Proofs.Matching.Decision
import PathQuery.Proofs.Query.Acceptance
import PathQuery.Proofs.Located.Context
import PathQuery.Proofs.Located.Run
import PathQuery.Proofs.Located.Descent
import PathQuery.Proofs.Located.Matching
import PathQuery.Proofs.Located.Compilation
import PathQuery.Proofs.Located.Simulation
import PathQuery.Proofs.Located.Stock
import PathQuery.Proofs.Located.History
import PathQuery.Proofs.Graph.Renumbering
import PathQuery.Proofs.Graph.Bisimulation
import PathQuery.Proofs.Graph.Extension
import PathQuery.Proofs.Comparison.Run
import PathQuery.Proofs.Comparison.Demand
import PathQuery.Proofs.Comparison.Compilation
import PathQuery.Proofs.Comparison.Limit
import PathQuery.Proofs.Comparison.Extension
import PathQuery.Proofs.Query.Chains
import PathQuery.Proofs.Query.Disclosure
import PathQuery.Proofs.Matching.Omission
import PathQuery.Proofs.Query.Abstraction
import PathQuery.Proofs.Query.Findings
import PathQuery.Proofs.Query.Agreement
import PathQuery.Proofs.Marks.Hooks
import PathQuery.Proofs.Marks.Passages
import PathQuery.Proofs.Marks.Run
import PathQuery.Proofs.Graph.Ascent
import PathQuery.Proofs.Confinement.Fence
import PathQuery.Proofs.Confinement.Run
import PathQuery.Proofs.Scenes.Hosts
import PathQuery.Proofs.Scenes.Scene
import PathQuery.Proofs.Scenes.Play
import PathQuery.Proofs.Scenes.Run
