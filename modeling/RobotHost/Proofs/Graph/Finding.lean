import RobotHost.Graph.Lookup
import RobotHost.Graph.Merge
import RobotHost.Proofs.Graph.Parts
import RobotHost.Proofs.Handle.Wrapping

/-!
# What is found by name

A name that a graph has itself is never looked for elsewhere. What is found under any other name
lies behind one of its remotes (`Graph.beyond?`). New handles make no difference to what is found
(`World.Wires.find?_eq`), and a name of no part behind the remotes is not found any more once the
graph's own part is taken out (`Graph.find?_mergeRemove`).
-/

namespace RobotHost

namespace World

variable {w w' : World}

/-- Every handle of a robot that connections may lead to is one of the world. -/
def Linked (w : World) : Prop :=
  ∀ (r : Ref .robot) (g : Graph), w.robots.get? r = some g → ∀ k name h,
    (g.entries k).get? name = some h → ∃ x, w.behind? (k.slot h) = some x

/-- Handles that robots have stay in the world. -/
theorem Linked.recalls (h : w.Linked) (hw : w.Recalls w') : w'.Linked := by
  intro r g hr k name x hx
  rw [hw.robots] at hr
  obtain ⟨y, hy⟩ := h r g hr k name x hx
  exact ⟨y, hw.behind _ _ hy⟩

/-- A world is linked with one robot more if the robot's handles are its own. -/
theorem Linked.push (h : w.Linked) {g : Graph} (hg : g.Intact w) :
    Linked { w with robots := w.robots.push g } := by
  intro r g' hr k name x hx
  have hr : (w.robots.push g).get? r = some g' := hr
  rw [Table.get?_push] at hr
  split at hr
  · cases hr
    exact hg.known k name x hx
  · exact h r g' hr k name x hx

theorem linked_empty : Linked {} := by
  intro r g hr
  simp [Table.get?] at hr

/-- New handles make no difference to what is found behind a connection. -/
theorem Wires.findIn?_eq (hw : w.Wires w') (k : Kind) (depth : Nat) (c : Connection)
    (name : String) : w'.findIn? k depth c name = w.findIn? k depth c name := by
  induction depth generalizing c name with
  | zero => cases c <;> rfl
  | succ depth ih =>
    cases c with
    | robot r => simp only [findIn?, hw.robots, ih]
    | remote r => simp only [findIn?, hw.sameRemotes, ih]

/-- New handles to drivers are no new ways over connections. -/
theorem Wires.reach_eq (hw : w.Wires w') (name : String) : w'.reach name = w.reach name := by
  simp only [reach, depth, hw.sameRemotes, hw.robots]

/-- What is found behind a connection is an entry of a robot there, though it may have another name
in it. -/
theorem exists_entry_of_findIn? {k : Kind} {depth : Nat} {c : Connection} {name : String}
    {h : k.Handle} (hh : w.findIn? k depth c name = some h) :
    ∃ (r : Ref .robot) (g : Graph) (own : String),
      w.robots.get? r = some g ∧ (g.entries k).get? own = some h := by
  induction depth generalizing c name with
  | zero => cases c <;> cases hh
  | succ depth ih =>
    cases c with
    | robot r =>
      obtain ⟨g, hg, hh⟩ := Option.bind_eq_some_iff.mp hh
      rcases Option.or_eq_some_iff.mp hh with hown | ⟨-, hbeyond⟩
      · exact ⟨r, g, name, hg, hown⟩
      · obtain ⟨remote, -, hremote⟩ := List.exists_of_findSome?_eq_some hbeyond
        exact ih hremote
    | remote r =>
      obtain ⟨remote, -, hh⟩ := Option.bind_eq_some_iff.mp hh
      obtain ⟨inner, -, hh⟩ := Option.bind_eq_some_iff.mp hh
      exact ih hh

/-- What is found behind a connection in a linked world stands for something. -/
theorem Linked.findIn?_known (hw : w.Linked) {k : Kind} {depth : Nat} {c : Connection}
    {name : String} {h : k.Handle} (hh : w.findIn? k depth c name = some h) :
    ∃ x, w.behind? (k.slot h) = some x := by
  obtain ⟨r, g, own, hg, hown⟩ := exists_entry_of_findIn? hh
  exact hw r g hg k own h hown

end World

namespace Graph

variable {g : Graph} {w w' : World} {k : Kind} {name : String}

/-- What is found behind the remotes of a graph. -/
def beyond? (g : Graph) (w : World) (k : Kind) (name : String) : Option k.Handle :=
  g.remotes.values.findSome? fun remote => w.findIn? k (w.reach name) (.remote remote) name

/-- A part is looked for in the graph, and then beyond its remotes. -/
theorem find?_eq (g : Graph) (w : World) (k : Kind) (name : String) :
    g.find? w k name = ((g.entries k).get? name).or (g.beyond? w k name) := rfl

/-- What a graph has itself is found under its name, whatever lies behind remotes. -/
theorem find?_of_get? {h : k.Handle} (hh : (g.entries k).get? name = some h) :
    g.find? w k name = some h := by
  rw [find?_eq, hh, Option.some_or]

/-- What is found is a graph's own or lies behind its remotes. -/
theorem exists_find?_iff : (∃ h, g.find? w k name = some h) ↔
    (k, name) ∈ g.keys ∨ ∃ h, g.beyond? w k name = some h := by
  rw [mem_keys, find?_eq]
  cases (g.entries k).get? name <;> simp

/-- What is found in an intact graph of a linked world stands for something. -/
theorem Intact.find?_known (hg : g.Intact w) (hw : w.Linked) {h : k.Handle}
    (hh : g.find? w k name = some h) : ∃ x, w.behind? (k.slot h) = some x := by
  rcases Option.or_eq_some_iff.mp hh with hown | ⟨-, hbeyond⟩
  · exact hg.known k name h hown
  · obtain ⟨remote, -, hremote⟩ := List.exists_of_findSome?_eq_some hbeyond
    exact hw.findIn?_known hremote

/-- What lies beyond the remotes is the same after handles were wired up. -/
theorem beyond?_wires (hw : w.Wires w') : g.beyond? w' k name = g.beyond? w k name := by
  unfold beyond?
  simp only [hw.findIn?_eq, hw.reach_eq]

/-- New handles make no difference to what is found. -/
theorem find?_wires (hw : w.Wires w') : g.find? w' k name = g.find? w k name := by
  rw [find?_eq, find?_eq, beyond?_wires hw]

/-- Fewer remotes lead to no more. -/
theorem beyond?_mergeRemove {f : Graph} (hnone : g.beyond? w k name = none) :
    (g.mergeRemove f).beyond? w k name = none := by
  refine List.findSome?_eq_none_iff.mpr fun remote hremote => ?_
  obtain ⟨name', hget⟩ := (NameMap.mem_values_iff _).mp hremote
  have hget : ((g.mergeRemove f).entries .remote).get? name' = some remote := hget
  rw [get?_mergeRemove] at hget
  split at hget
  · cases hget
  · exact List.findSome?_eq_none_iff.mp hnone remote ((NameMap.mem_values_iff _).mpr ⟨name', hget⟩)

/-- What is taken out of a graph is not found any more, unless something of its name lies behind
remotes. -/
theorem find?_mergeRemove {f : Graph} (hkey : (k, name) ∈ f.keys)
    (hnone : g.beyond? w k name = none) : (g.mergeRemove f).find? w k name = none := by
  have hgone : name ∈ (f.entries k).names := (NameMap.mem_names_iff _).mpr (mem_keys.mp hkey)
  rw [find?_eq, get?_mergeRemove, if_pos hgone, beyond?_mergeRemove hnone]
  rfl

end Graph

end RobotHost
