import RobotHost.Proofs.Graph.Building
import RobotHost.Proofs.Graph.Running

/-!
# Building what a diff modifies

What takes the place of running parts is built as a configuration is, but that each board is first
made out of its diff, and goes under its key in the diff and not under its own name. If all diffs of
boards apply and stand under the names of their boards, this is to build the configuration that the
diff leads to (`ModifiedConfig.applied`), on any graph and in any world.

A diff of a board that does not apply is met only when its turn comes: processes, remotes and boards
before it are there by then, and nothing after it (`Build.Meets`). `Build.modified_refines` says both.
-/

namespace RobotHost

/-- The configuration that a diff leads to. Its boards are those that the diffs of boards describe, in
ascending order of their keys. -/
def ModifiedConfig.applied (m : ModifiedConfig) : Config where
  processes := m.processes
  remotes := m.remotes
  boards := m.boards.values.filterMap fun d => d.toConfig.toOption
  components := m.components
  functions := m.functions

/-- A diff keeps the name of the board. -/
theorem BoardConfigDiff.name_of_toConfig {d : BoardConfigDiff} {c : BoardConfig}
    (h : d.toConfig = .ok c) : c.name = d.left.name := by
  unfold toConfig at h
  split at h
  · cases h
  · cases h
    rfl

/-- If all diffs of boards apply and stand under the right names, the items are those of the
configuration that they lead to. -/
theorem ModifiedConfig.items_applied {m : ModifiedConfig}
    (h : ∀ e ∈ m.boards.entries, (∃ c, e.2.toConfig = .ok c) ∧ e.1 = e.2.left.name) :
    m.applied.items = m.items := by
  have hboards : ∀ entries : List (String × BoardConfigDiff),
      (∀ e ∈ entries, (∃ c, e.2.toConfig = .ok c) ∧ e.1 = e.2.left.name) →
      ((entries.map Prod.snd).filterMap fun d => d.toConfig.toOption).map
          (fun b => Item.board b.name (.ok b)) =
        entries.map fun e => Item.board e.1 e.2.toConfig := by
    intro entries hentries
    induction entries with
    | nil => rfl
    | cons e rest ih =>
      obtain ⟨⟨⟨c, hc⟩, hname⟩, hrest⟩ := List.forall_mem_cons.mp hentries
      have hsome : e.2.toConfig.toOption = some c := by rw [hc]; rfl
      rw [List.map_cons, List.map_cons, List.filterMap_cons, hsome, List.map_cons, ih hrest, hc, hname,
        BoardConfigDiff.name_of_toConfig hc]
  rw [Config.items, ModifiedConfig.items, ← hboards m.boards.entries h]
  rfl

namespace Build

variable {env : Environment} {m : ModifiedConfig} {s t u : Site}

/-- What comes before the boards. -/
def groundwork (env : Environment) (m : ModifiedConfig) : Build Unit := do
  processes env m.processes
  each (remote env) m.remotes

/-- Boards were made out of their diffs and put into the graph under their keys, one after the
other, and nothing else was done. -/
inductive Remade (env : Environment) (t : Site) : List (String × BoardConfigDiff) → Site → Prop
  | none : Remade env t [] t
  | more {done : List (String × BoardConfigDiff)} {name : String} {diff : BoardConfigDiff}
    {c : BoardConfig} {d : Ref .driver} {s s' : Site} (hs : Remade env t done s)
    (hc : diff.toConfig = .ok c) (hd : Delivered env s (.driver name (.board c) d) s') :
    Remade env t (done ++ [(name, diff)]) s'

/-- How a build ends that has a diff of a board at fault, which comes after others that apply. -/
inductive Meets (env : Environment) (m : ModifiedConfig) (before : List (String × BoardConfigDiff))
    (fault : ConfigError) (s : Site) : Prop
  /-- It does not get to the boards. -/
  | unprepared {e : RobotError} {t : Site} (hground : groundwork env m s = .error e t)
    (hends : modified env m s = .error e t)
  /-- It does not get past a board before. -/
  | unmade {done : List (String × BoardConfigDiff)} {x : String × BoardConfigDiff} {c : BoardConfig}
    {cause : String} {t u : Site} {w : World} (hground : groundwork env m s = .ok () t)
    (hdone : done ++ [x] <+: before) (hu : Remade env t done u) (hc : x.2.toConfig = .ok c)
    (hcause : env.construct (.board c) u.world = (.error cause, w))
    (hends : modified env m s = .error (.construct .board c.name cause) ⟨u.graph, w⟩)
  /-- It gets to the diff and ends there. -/
  | faulty {t u : Site} (hground : groundwork env m s = .ok () t) (hu : Remade env t before u)
    (hends : modified env m s = .error (.config fault) u)

/-- A board whose diff goes well is built like any other. -/
theorem modifiedBoard_of_ok {name : String} {diff : BoardConfigDiff} {c : BoardConfig}
    (hc : diff.toConfig = .ok c) :
    modifiedBoard env name diff = driver env name (.board c) := by
  unfold modifiedBoard
  rw [hc]
  rfl

/-- A board that is made anew was delivered under its key. -/
theorem Remade.step (done : List (String × BoardConfigDiff)) (x : String × BoardConfigDiff)
    (s s' : Site) (hs : Remade env t done s) (hx : modifiedBoard env x.1 x.2 s = .ok () s') :
    Remade env t (done ++ [x]) s' := by
  cases hc : x.2.toConfig with
  | error e =>
    unfold modifiedBoard at hx
    rw [hc] at hx
    cases hx
  | ok c =>
    rw [modifiedBoard_of_ok hc] at hx
    obtain ⟨d, hd⟩ := driver_ok hx
    exact .more hs hc hd

/-- A build meets the first diff of a board that does not apply, unless it ends before. -/
theorem meets {before after : List (String × BoardConfigDiff)} {name : String}
    {diff : BoardConfigDiff} {fault : ConfigError}
    (hsplit : m.boards.entries = before ++ (name, diff) :: after)
    (hbefore : ∀ e ∈ before, ∃ c, e.2.toConfig = .ok c) (hfault : diff.toConfig = .error fault)
    (s : Site) : Meets env m before fault s := by
  -- what comes after the diff is never done
  have hcut : modified env m s = (do
      groundwork env m
      each (fun e => modifiedBoard env e.1 e.2) before
      throw (.config fault) : Build Unit) s := by
    have hboard : modifiedBoard env name diff = throw (.config fault) := by
      unfold modifiedBoard
      rw [hfault]
    have hrest : each (fun e => modifiedBoard env e.1 e.2) ((name, diff) :: after) =
        throw (.config fault) := by
      show (do
        modifiedBoard env name diff
        each (fun e : String × BoardConfigDiff => modifiedBoard env e.1 e.2) after) = _
      rw [hboard]
      rfl
    simp only [modified, groundwork, hsplit, each_append, bind_assoc, hrest]
    rfl
  cases hground : groundwork env m s with
  | error e t => exact .unprepared hground (hcut.trans (bind_eq_error.mpr (.inl hground)))
  | ok _ t =>
    cases hboards : each (fun e => modifiedBoard env e.1 e.2) before t with
    | ok _ u =>
      refine .faulty hground (each_ok Remade.step .none hboards) (hcut.trans ?_)
      exact bind_eq_error.mpr (.inr ⟨(), t, hground, bind_eq_error.mpr (.inr ⟨(), u, hboards, rfl⟩)⟩)
    | error e u =>
      obtain ⟨done, x, v, hdone, hv, hx⟩ := each_error Remade.step .none hboards
      obtain ⟨c, hc⟩ := hbefore x (hdone.subset (by simp))
      rw [modifiedBoard_of_ok hc] at hx
      obtain ⟨cause, w, hcause, rfl, rfl⟩ := driver_refused hx
      refine .unmade hground hdone hv hc hcause (hcut.trans ?_)
      exact bind_eq_error.mpr (.inr ⟨(), t, hground, bind_eq_error.mpr (.inl hboards)⟩)

/-- To build what a diff modifies is to build the configuration that it leads to, if all its diffs of
boards apply and stand under the names of their boards. If one does not apply, the build ends there at
the latest, with the boards before it. -/
theorem modified_refines (env : Environment) (m : ModifiedConfig) :
    ((∀ e ∈ m.boards.entries, (∃ c, e.2.toConfig = .ok c) ∧ e.1 = e.2.left.name) →
      modified env m = config env m.applied) ∧
    ∀ before name diff after fault, m.boards.entries = before ++ (name, diff) :: after →
      (∀ e ∈ before, ∃ c, e.2.toConfig = .ok c) → diff.toConfig = .error fault →
        ∀ s, Meets env m before fault s := by
  refine ⟨fun h => ?_, fun _ _ _ _ _ hsplit hbefore hfault => meets hsplit hbefore hfault⟩
  rw [modified_eq, config_eq, ModifiedConfig.items_applied h]
  rfl

namespace Sample

/-- A board that loses its only reader. -/
def stripping : BoardConfigDiff where
  left := { name := "bench", analogs := [⟨"dial", "1", 0⟩] }
  removed := { name := "", analogs := [⟨"dial", "1", 0⟩] }

/-- A board that is to lose a reader which it does not have. -/
def missing : BoardConfigDiff where
  left := { name := "desk" }
  removed := { name := "", analogs := [⟨"dial", "1", 0⟩] }

def sound : ModifiedConfig where
  boards := NameMap.ofList [("bench", stripping)]

def unsound : ModifiedConfig where
  boards := NameMap.ofList [("bench", stripping), ("desk", missing)]

end Sample

/-- The first board is there when the second one is found to be at fault. -/
theorem modified_refines_sample :
    modified Sample.armless Sample.sound = config Sample.armless Sample.sound.applied ∧
    ∃ u, modified Sample.armless Sample.unsound ⟨{}, {}⟩ =
        .error (.config (.boardDiff "desk" (.absent .removed .analog "dial"))) u ∧
      u.graph.keys = [(.driver .board, "bench")] ∧
      Meets Sample.armless Sample.unsound [("bench", Sample.stripping)]
        (.boardDiff "desk" (.absent .removed .analog "dial")) ⟨{}, {}⟩ := by
  obtain ⟨hsound, -⟩ := modified_refines Sample.armless Sample.sound
  obtain ⟨-, hunsound⟩ := modified_refines Sample.armless Sample.unsound
  have happlies : ∃ c, Sample.stripping.toConfig = .ok c := ⟨_, rfl⟩
  refine ⟨hsound fun e he => ?_, _, rfl, rfl, hunsound _ "desk" Sample.missing [] _ rfl ?_ rfl _⟩
  · cases List.mem_singleton.mp he
    exact ⟨happlies, rfl⟩
  · intro e he
    cases List.mem_singleton.mp he
    exact happlies

end Build

end RobotHost
