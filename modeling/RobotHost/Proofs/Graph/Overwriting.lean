import RobotHost.Proofs.Graph.Building

/-!
# Names that come twice

A graph has one part under each key. If several deliveries of a build go to the same key, the later
one takes the place of the earlier one, which is then behind no handle: of all that was delivered
the graph holds what is latest under its key (`Progress.resources_perm_latest`).
-/

namespace RobotHost

namespace Delivery

variable {xs ys : List Delivery} {x y : Delivery}

/-- The deliveries without those whose key comes again later. -/
def latest : List Delivery → List Delivery
  | [] => []
  | x :: rest => if ∃ y ∈ rest, y.key = x.key then latest rest else x :: latest rest

/-- The latest deliveries stand in the order in which all came. -/
theorem latest_sublist (xs : List Delivery) : (latest xs).Sublist xs := by
  induction xs with
  | nil => exact .slnil
  | cons x rest ih =>
    rw [latest]
    split
    · exact ih.cons x
    · exact ih.cons_cons x

/-- Every key that comes has a latest delivery. -/
theorem mem_keys_latest {key : Kind × String} :
    key ∈ (latest xs).map Delivery.key ↔ key ∈ xs.map Delivery.key := by
  induction xs with
  | nil => rfl
  | cons x rest ih =>
    rw [latest, List.map_cons, List.mem_cons]
    split
    · next hagain =>
      rw [ih]
      refine ⟨.inr, ?_⟩
      rintro (rfl | hkey)
      · exact List.mem_map.mpr hagain
      · exact hkey
    · rw [List.map_cons, List.mem_cons, ih]

/-- There is one latest delivery under each key. -/
theorem nodup_keys_latest (xs : List Delivery) : ((latest xs).map key).Nodup := by
  induction xs with
  | nil => exact List.nodup_nil
  | cons x rest ih =>
    rw [latest]
    split
    · exact ih
    · next hnew =>
      have hnew := fun hkey => hnew (List.mem_map.mp (mem_keys_latest.mp hkey))
      exact List.nodup_cons.mpr ⟨hnew, ih⟩

/-- Where no key repeats, each delivery is the latest. -/
theorem latest_eq_self (h : (xs.map key).Nodup) : latest xs = xs := by
  induction xs with
  | nil => rfl
  | cons x rest ih =>
    obtain ⟨hnew, hrest⟩ := List.nodup_cons.mp h
    rw [latest, if_neg fun hagain => hnew (List.mem_map.mpr hagain), ih hrest]

/-- A delivery that shares its key with no other is the latest under it. -/
theorem mem_latest_of_unique (hx : x ∈ xs) (hunique : ∀ y ∈ xs, y.key = x.key → y = x) :
    x ∈ latest xs := by
  obtain ⟨y, hy, hkey⟩ := List.mem_map.mp (mem_keys_latest.mpr (List.mem_map_of_mem hx))
  rwa [← hunique y ((latest_sublist xs).subset hy) hkey]

/-- A delivery more takes the place of those with its key. -/
theorem latest_concat (xs : List Delivery) (x : Delivery) :
    latest (xs ++ [x]) = (latest xs).filter (fun y => y.key ≠ x.key) ++ [x] := by
  induction xs with
  | nil => simp [latest]
  | cons y rest ih =>
    have hmem : (∃ z ∈ rest ++ [x], z.key = y.key) ↔
        (∃ z ∈ rest, z.key = y.key) ∨ x.key = y.key := by
      simp only [List.mem_append, List.mem_singleton, or_and_right, exists_or, exists_eq_left]
    rw [List.cons_append, latest, latest, ih]
    by_cases hagain : ∃ z ∈ rest, z.key = y.key
    · rw [if_pos (hmem.mpr (.inl hagain)), if_pos hagain]
    · rw [if_neg hagain]
      by_cases hkey : x.key = y.key
      · rw [if_pos (hmem.mpr (.inr hkey)), List.filter_cons_of_neg (by simpa using hkey.symm)]
      · rw [if_neg fun hcomes => (hmem.mp hcomes).elim hagain hkey,
          List.filter_cons_of_pos (by simpa using Ne.symm hkey), List.cons_append]

end Delivery

namespace Progress

open Delivery

variable {env : Environment} {w : World} {xs : List Delivery} {s : Site}

/-- Each handle of a graph stands for the latest delivery under its key. -/
theorem serves_latest (h : Progress env w xs s) : ∀ k name handle,
    (s.graph.entries k).get? name = some handle →
      ∃ x ∈ latest xs, x.key = (k, name) ∧ s.world.behind? (k.slot handle) = some x.backing := by
  induction h with
  | staffed h =>
    intro k name handle hhandle
    obtain ⟨x, hx, -⟩ := (Built.staffed h).serves k name handle hhandle
    exact absurd hx List.not_mem_nil
  | @delivered xs x s s' _ hx ih =>
    obtain ⟨new, hgraph, -, hbehind⟩ := hx.handle
    rw [hgraph, latest_concat]
    refine Graph.forall_entries_insert ⟨x, by simp, rfl, hbehind⟩ fun k name h hother hh => ?_
    obtain ⟨y, hy, hkey, hbacking⟩ := ih k name h hh
    -- a delivery under another key is not overwritten by this one
    have hne : y.key ≠ x.key := fun heq => hother (hkey.symm.trans heq)
    exact ⟨y, List.mem_append_left _ (List.mem_filter.mpr ⟨hy, decide_eq_true hne⟩), hkey,
      hx.world.behind _ _ hbacking⟩
  | refused _ h ih =>
    intro k name handle hhandle
    rw [h.graph] at hhandle
    obtain ⟨x, hx, hkey, hbacking⟩ := ih k name handle hhandle
    exact ⟨x, hx, hkey, h.world.behind _ _ hbacking⟩
  | named _ functions ih => exact ih

/-- Of all that was delivered the graph holds what is latest under its key. -/
theorem resources_perm_latest (h : Progress env w xs s) :
    (s.graph.resources s.world).Perm ((latest xs).map Delivery.resource) := by
  refine Graph.resources_perm_of_backed (nodup_keys_latest xs) (fun key => ?_) fun x hx => ?_
  · rw [h.built.mem_keys_iff, mem_keys_latest]
  · have hkey := h.built.keys x ((latest_sublist xs).subset hx)
    obtain ⟨handle, hhandle⟩ := Graph.mem_keys.mp hkey
    obtain ⟨y, hy, hyx, hbacking⟩ := h.serves_latest _ _ handle hhandle
    obtain rfl := List.inj_on_of_nodup_map (nodup_keys_latest xs) hy hx hyx
    exact Graph.backing?_eq_some_iff.mpr ⟨handle, hhandle, hbacking⟩

end Progress

end RobotHost
