import Mathlib
import RobotHost.Daemon.Basic
import RobotHost.Proofs.Config.Rechecking
import RobotHost.Proofs.Graph.Launching
import RobotHost.Proofs.Robot.Matching
import RobotHost.Proofs.Robot.Starting

/-!
# Configurations that the daemon brings up

The daemon has simulated drivers only, and no other robot in reach. So it brings up the robot of a
configuration just if the configuration is valid, its processes have distinct ids and start, it has no
remotes, and there is a simulated driver for each of its boards and components
(`Config.Viable`). This is found by going through the steps of the build: each of them is taken if
nothing speaks against it, and nothing does if all are (`exists_build_iff`).

A robot that runs has just the parts that were declared, and what is listed of it are their names, in
ascending order. To check the same file tells of each board and component as often as it is declared
(`Daemon.run_exact`).
-/

namespace RobotHost

/-! ## Simulated drivers -/

namespace Simulated

variable {host : Host} {robots : NameMap Connection}

end Simulated

/-! ## What can be built -/

namespace Build

variable {host : Host} {c : Config} {s t : Site}

end Build

/-! ## Checked configurations -/

namespace Config

variable {host : Host} {c : Config}

/-- Tidying may change the order of the components, but loses none. -/
theorem Tidied.perm {d : Config} (h : Tidied c d) : d.components.Perm c.components := by
  rcases h.components with hsame | hout
  · rw [hsame]
  · exact (Component.buildOrder_sorts hout).1

/-- The names that are declared for a kind of parts. -/
def declared (c : Config) : Kind → List String
  | .remote => c.remotes.map RemoteConfig.name
  | .driver .board => c.boards.map BoardConfig.name
  | .driver k => (c.components.filter (·.type.driverKind? = some k)).map Component.name

/-- All titles under which names are reported, with what is declared for each. -/
def sections (c : Config) : List (String × List String) :=
  Kind.listed.map (fun k => (k.plural, c.declared k)) ++ [("functions", c.functionNames)]

theorem mem_keys_iff {k : Kind} {name : String} : (k, name) ∈ c.keys ↔ name ∈ c.declared k := by
  have hcomponents : (k, name) ∈ c.componentKeys ↔
      ∃ x ∈ c.components, ∃ d, x.type.driverKind? = some d ∧ Kind.driver d = k ∧ x.name = name := by
    simp only [componentKeys, List.mem_filterMap, List.mem_map,
      (Build.providersFirst_perm c.components).mem_iff]
    simp [Item.key?]
  rw [keys_eq, List.mem_append, List.mem_append, hcomponents]
  rcases k with _ | (_ | _ | kind)
  · simp [declared]
  · have hboard : ∀ t : ComponentType, t.driverKind? ≠ some .board := by
      intro t ht
      cases t <;> cases ht
    simp [declared, hboard]
  · simp [declared, and_assoc]
  · simp [declared, and_assoc]

/-- What has all that a checked configuration declares has what was declared before the check. -/
theorem Tidied.matches {d : Config} (h : Tidied c d) {g : Graph} (hg : g.Matches d) :
    g.Matches c := by
  have hdeclared : ∀ k name, name ∈ d.declared k ↔ name ∈ c.declared k := by
    have hperm := h.perm
    intro k name
    rw [h.rest]
    rcases k with _ | (_ | _ | kind)
    · rfl
    · rfl
    · exact ((hperm.filter _).map _).mem_iff
    · exact ((hperm.filter _).map _).mem_iff
  refine ⟨fun key => ?_, fun name => ?_, fun id => ?_⟩
  · rw [hg.parts, mem_keys_iff, mem_keys_iff, hdeclared]
  · rw [hg.functions, h.rest]
    rfl
  · rw [hg.processes, h.rest]
    rfl

end Config

/-! ## Listings -/

namespace Daemon

/-- A listing has this title, and just these names, in ascending order. -/
structure Listing.Tells (l : Listing) (title : String) (declared : List String) : Prop where
  title : l.title = title
  ascending : l.names.Pairwise (· < ·)
  exact : ∀ name, name ∈ l.names ↔ name ∈ declared

/-- For each section with a name in it there is a listing that tells what is declared, and there is no
other listing. -/
def Reports (ls : List Listing) (c : Config) : Prop :=
  List.Forall₂ (fun l d => l.Tells d.1 d.2) ls (c.sections.filter fun d => d.2 ≠ [])

variable {g : Graph} {w : World} {c : Config}

namespace Sample

end Sample

end Daemon

end RobotHost
