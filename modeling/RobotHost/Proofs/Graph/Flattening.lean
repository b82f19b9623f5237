import Mathlib.Data.List.Perm.Subperm
import Mathlib.Logic.Relation
import RobotHost.Proofs.Graph.Finding

/-!
# The robots behind remotes as one list

To look a name up and to list the names of a kind are two walks through the robots behind
connections. Both can be told from one list: each robot's own parts come first, in ascending order of
their names, and then those behind its remotes, under the names that these go by outside
(`World.Flat`). A look-up finds the first part of a name in that list, and a listing has its names,
each where it comes first (`Graph.find?_matches_names`).

There is such a list as long as no connection leads back to where it began. The walks follow
connections only so far, and this is far enough: a way that never comes back meets each robot and
each remote robot at most once (`World.Ends.within`).
-/

namespace RobotHost

/-! ## Lists with each element where it comes first -/

section EraseDups

variable {α β : Type} [BEq α] [LawfulBEq α] [BEq β] [LawfulBEq β]

/-- Repetitions can be dropped before or after filtering. -/
theorem eraseDups_filter (p : α → Bool) (xs : List α) :
    (xs.filter p).eraseDups = xs.eraseDups.filter p := by
  match xs with
  | [] => rfl
  | x :: rest =>
    have hshorter : (rest.filter fun y => !y == x).length < rest.length + 1 :=
      Nat.lt_succ_of_le (List.length_filter_le _ rest)
    have ih := eraseDups_filter p (rest.filter fun y => !y == x)
    rw [List.eraseDups_cons]
    by_cases hx : p x = true
    · rw [List.filter_cons_of_pos hx, List.filter_cons_of_pos hx, List.eraseDups_cons, ← ih,
        List.filter_comm]
    · rw [List.filter_cons_of_neg hx, List.filter_cons_of_neg hx, ← ih, List.filter_filter]
      -- what the filter lets through is not the first element
      congr 1
      refine List.filter_congr fun y _ => ?_
      by_cases hy : y = x
      · simp [hy, hx]
      · simp [hy]
termination_by xs.length

theorem eraseDups_eraseDups (xs : List α) : xs.eraseDups.eraseDups = xs.eraseDups := by
  match xs with
  | [] => rfl
  | x :: rest =>
    have hshorter : (rest.filter fun y => !y == x).length < rest.length + 1 :=
      Nat.lt_succ_of_le (List.length_filter_le _ rest)
    have ih := eraseDups_eraseDups (rest.filter fun y => !y == x)
    rw [List.eraseDups_cons, List.eraseDups_cons, ← eraseDups_filter, List.filter_filter]
    simp only [Bool.and_self]
    rw [ih]
termination_by xs.length

theorem nodup_eraseDups (xs : List α) : xs.eraseDups.Nodup := by
  match xs with
  | [] => exact List.nodup_nil
  | x :: rest =>
    have hshorter : (rest.filter fun y => !y == x).length < rest.length + 1 :=
      Nat.lt_succ_of_le (List.length_filter_le _ rest)
    rw [List.eraseDups_cons, List.nodup_cons]
    exact ⟨by simp, nodup_eraseDups _⟩
termination_by xs.length

/-- To drop repetitions before lists are put together makes no difference. -/
theorem eraseDups_append_congr {xs xs' ys ys' : List α} (hx : xs.eraseDups = xs'.eraseDups)
    (hy : ys.eraseDups = ys'.eraseDups) : (xs ++ ys).eraseDups = (xs' ++ ys').eraseDups := by
  have hmem : ∀ y, y ∈ xs ↔ y ∈ xs' := by
    intro y
    rw [← List.mem_eraseDups, hx, List.mem_eraseDups]
  have hremoved : (ys.removeAll xs).eraseDups = (ys'.removeAll xs').eraseDups := by
    unfold List.removeAll
    rw [eraseDups_filter, eraseDups_filter, hy]
    refine List.filter_congr fun y _ => ?_
    simp [hmem]
  rw [List.eraseDups_append, List.eraseDups_append, hx, hremoved]

/-- To drop repetitions before names are changed makes no difference. -/
theorem eraseDups_map_eraseDups (f : α → β) (xs : List α) :
    (xs.eraseDups.map f).eraseDups = (xs.map f).eraseDups := by
  match xs with
  | [] => rfl
  | x :: rest =>
    have hshorter : (rest.filter fun y => !y == x).length < rest.length + 1 :=
      Nat.lt_succ_of_le (List.length_filter_le _ rest)
    have ih := eraseDups_map_eraseDups f (rest.filter fun y => !y == x)
    rw [List.eraseDups_cons, List.map_cons, List.eraseDups_cons, eraseDups_filter, ih,
      ← eraseDups_filter, List.map_cons, List.eraseDups_cons]
    -- an element that is the first one becomes what the first one becomes
    congr 2
    rw [List.filter_map, List.filter_map, List.filter_filter]
    congr 1
    refine List.filter_congr fun y _ => ?_
    by_cases hy : y = x
    · simp [hy]
    · simp [hy]
termination_by xs.length

/-- Lists that differ in repetitions alone have images that do. -/
theorem eraseDups_map_congr {xs xs' : List α} (f : α → β) (h : xs.eraseDups = xs'.eraseDups) :
    (xs.map f).eraseDups = (xs'.map f).eraseDups := by
  rw [← eraseDups_map_eraseDups f xs, h, eraseDups_map_eraseDups]

end EraseDups

/-! ## First parts of a name -/

theorem findSome?_cons_eq_or {α β : Type} (f : α → Option β) (x : α) (xs : List α) :
    (x :: xs).findSome? f = (f x).or (xs.findSome? f) := by
  rw [List.findSome?_cons]
  cases f x <;> rfl

/-- What is not found in the first entries is looked for in the others. -/
theorem Entries.find?_append {α : Type} (xs ys : List (String × α)) (name : String) :
    Entries.find? (xs ++ ys) name = (Entries.find? xs name).or (Entries.find? ys name) := by
  induction xs with
  | nil => rfl
  | cons e rest ih =>
    obtain ⟨k, v⟩ := e
    by_cases hk : k = name
    · simp [Entries.find?, hk]
    · simp [Entries.find?, hk, ih]

/-- There is a first part of a name exactly if the name is listed. -/
theorem Entries.exists_find?_iff {α : Type} {xs : List (String × α)} {name : String} :
    (∃ x, Entries.find? xs name = some x) ↔ name ∈ xs.map Prod.fst := by
  induction xs with
  | nil => simp [Entries.find?]
  | cons e rest ih =>
    obtain ⟨k, v⟩ := e
    by_cases hk : k = name
    · simp [Entries.find?, hk]
    · have hk' : ¬name = k := fun h => hk h.symm
      simp [Entries.find?, hk, hk', ih]

/-- Among parts under their outer names, the first of a name is the first of its inner name. -/
theorem RemoteConfig.find?_map_outerName {α : Type} (c : RemoteConfig) (xs : List (String × α))
    (name : String) : Entries.find? (xs.map fun e => (c.outerName e.1, e.2)) name =
      (c.innerName? name).bind (Entries.find? xs) := by
  induction xs with
  | nil => cases c.innerName? name <;> rfl
  | cons e rest ih =>
    obtain ⟨k, v⟩ := e
    rw [List.map_cons, Entries.find?, ih]
    cases hinner : c.innerName? name with
    | none =>
      have hk : ¬c.outerName k = name := by
        intro hk
        rw [(c.innerName?_eq_some_iff).mpr hk.symm] at hinner
        cases hinner
      rw [if_neg hk, Option.bind_none, Option.bind_none]
    | some inner =>
      -- no two inner names have one outer name
      have hk : c.outerName k = name ↔ k = inner := by
        rw [eq_comm, ← c.innerName?_eq_some_iff, hinner, Option.some_inj, eq_comm]
      rw [Option.bind_some, Option.bind_some, Entries.find?]
      simp only [hk]

/-! ## Ways along connections -/

namespace World

variable {w : World} {c next : Connection}

/-- A connection leads on to those that the robot, or the remote robot, at its other end has. -/
inductive Leads (w : World) : Connection → Connection → Prop
  | robot {r : Ref .robot} {g : Graph} {remote : Ref .remote} (hr : w.robots.get? r = some g)
    (hremote : remote ∈ g.remotes.values) : Leads w (.robot r) (.remote remote)
  | remote {r : Ref .remote} {remote : Remote} (hr : w.remotes.get? r = some remote) :
    Leads w (.remote r) remote.connection

/-- Every way that begins with this connection comes to an end. -/
def Ends (w : World) (c : Connection) : Prop := Acc (fun next c => w.Leads c next) c

/-- The connections that have a robot, or a remote robot, at their other end. -/
def answering (w : World) : List Connection :=
  (List.range w.robots.size).map (fun i => .robot ⟨i⟩) ++
    (List.range w.remotes.size).map fun i => .remote ⟨i⟩

/-- No way that begins with this connection passes more than so many others that answer. -/
def Within (w : World) : Nat → Connection → Prop
  | 0, c => c ∉ w.answering
  | n + 1, c => ∀ next, w.Leads c next → w.Within n next

theorem mem_answering_robot {r : Ref .robot} :
    .robot r ∈ w.answering ↔ ∃ g, w.robots.get? r = some g := by
  obtain ⟨i⟩ := r
  simp [answering, Table.size, Table.get?, ← Option.isSome_iff_exists]

theorem mem_answering_remote {r : Ref .remote} :
    .remote r ∈ w.answering ↔ ∃ remote, w.remotes.get? r = some remote := by
  obtain ⟨i⟩ := r
  simp [answering, Table.size, Table.get?, ← Option.isSome_iff_exists]

/-- The depth to which connections are followed is more than the number of those that answer. -/
theorem length_answering (w : World) : w.answering.length < w.depth := by
  simp only [answering, depth, List.length_append, List.length_map, List.length_range]
  omega

/-- Only a connection that answers leads on. -/
theorem Leads.answers (h : w.Leads c next) : c ∈ w.answering := by
  cases h with
  | robot hr _ => exact mem_answering_robot.mpr ⟨_, hr⟩
  | remote hr => exact mem_answering_remote.mpr ⟨_, hr⟩

/-- A way that comes to an end does not come back to where it began. -/
theorem Ends.not_transGen (h : w.Ends c) : ¬Relation.TransGen w.Leads c c := by
  intro hback
  have hacc := Acc.transGen h
  have hirrefl : ∀ a, Acc (Relation.TransGen fun next c => w.Leads c next) a →
      ¬Relation.TransGen (fun next c => w.Leads c next) a a := by
    intro a ha
    induction ha with
    | intro a _ ih => exact fun haa => ih a haa haa
  exact hirrefl c hacc (Relation.transGen_swap.mpr hback)

/-- A way that has passed some connections passes no more than the others that answer. -/
theorem Ends.within_of_path {n : Nat} {path : List Connection} (h : w.Ends c)
    (hdistinct : path.Nodup) (hanswer : path ⊆ w.answering)
    (hpath : ∀ p ∈ path, Relation.TransGen w.Leads p c)
    (hlength : w.answering.length ≤ path.length + n) : w.Within n c := by
  -- the path takes in one connection more each time, and none twice
  have hnew : c ∉ path := fun hc => h.not_transGen (hpath c hc)
  have hdistinct' : (c :: path).Nodup := List.nodup_cons.mpr ⟨hnew, hdistinct⟩
  induction n generalizing c path with
  | zero =>
    intro hc
    have hsub : c :: path ⊆ w.answering := List.cons_subset.mpr ⟨hc, hanswer⟩
    have hle := (List.subperm_of_subset hdistinct' hsub).length_le
    rw [List.length_cons] at hle
    omega
  | succ n ih =>
    intro next hnext
    have hends : w.Ends next := Acc.inv h hnext
    have hpath' : ∀ p ∈ c :: path, Relation.TransGen w.Leads p next := by
      intro p hp
      rcases List.mem_cons.mp hp with rfl | hp
      · exact .single hnext
      · exact (hpath p hp).tail hnext
    have hnew' : next ∉ c :: path := fun hp => hends.not_transGen (hpath' next hp)
    refine ih hends hdistinct' (List.cons_subset.mpr ⟨hnext.answers, hanswer⟩) hpath' ?_ hnew'
      (List.nodup_cons.mpr ⟨hnew', hdistinct'⟩)
    rw [List.length_cons]
    omega

/-- A way that comes to an end passes each connection that answers at most once. -/
theorem Ends.within (h : w.Ends c) {n : Nat} (hn : w.answering.length ≤ n) : w.Within n c :=
  h.within_of_path List.nodup_nil (List.nil_subset _) (by simp) (by simpa using hn)

/-- Ways come to an end if every step leads down in some order. -/
theorem ends_of_rank (rank : Connection → Nat)
    (hrank : ∀ c next, w.Leads c next → rank next < rank c) (c : Connection) : w.Ends c :=
  (Subrelation.wf (fun h => hrank _ _ h) (InvImage.wf rank Nat.lt_wfRel.wf)).apply c

/-! ## All parts behind connections -/

/-- The parts of a kind behind connections, one connection after the other, under the names that the
parts go by there: a robot's own parts in ascending order of names, then those behind its remotes;
and what lies behind a remote robot under the outer names that its settings give. -/
inductive Flat (w : World) (k : Kind) : List Connection → List (String × k.Handle) → Prop
  | nil : Flat w k [] []
  | absent {c : Connection} {cs : List Connection} {rest : List (String × k.Handle)}
    (hc : c ∉ w.answering) (hrest : Flat w k cs rest) : Flat w k (c :: cs) rest
  | robot {r : Ref .robot} {g : Graph} {cs : List Connection}
    {inner rest : List (String × k.Handle)} (hr : w.robots.get? r = some g)
    (hinner : Flat w k (g.remotes.values.map .remote) inner) (hrest : Flat w k cs rest) :
    Flat w k (.robot r :: cs) ((g.entries k).entries ++ inner ++ rest)
  | remote {r : Ref .remote} {remote : Remote} {cs : List Connection}
    {inner rest : List (String × k.Handle)} (hr : w.remotes.get? r = some remote)
    (hinner : Flat w k [remote.connection] inner) (hrest : Flat w k cs rest) :
    Flat w k (.remote r :: cs)
      (inner.map (fun e => (remote.config.outerName e.1, e.2)) ++ rest)

variable {k : Kind} {cs : List Connection} {flat flat' : List (String × k.Handle)}

/-- What lies behind connections can be listed in one way only. -/
theorem Flat.unique (h : w.Flat k cs flat) (h' : w.Flat k cs flat') : flat' = flat := by
  induction h generalizing flat' with
  | nil =>
    cases h'
    rfl
  | absent hc _ ih =>
    cases h' with
    | absent _ hrest => exact ih hrest
    | robot hr _ _ => exact absurd (mem_answering_robot.mpr ⟨_, hr⟩) hc
    | remote hr _ _ => exact absurd (mem_answering_remote.mpr ⟨_, hr⟩) hc
  | robot hr _ _ ih ihrest =>
    cases h' with
    | absent hc _ => exact absurd (mem_answering_robot.mpr ⟨_, hr⟩) hc
    | robot hr' hinner hrest =>
      rw [hr] at hr'
      cases hr'
      rw [ih hinner, ihrest hrest]
  | remote hr _ _ ih ihrest =>
    cases h' with
    | absent hc _ => exact absurd (mem_answering_remote.mpr ⟨_, hr⟩) hc
    | remote hr' hinner hrest =>
      rw [hr] at hr'
      cases hr'
      rw [ih hinner, ihrest hrest]

/-- The parts behind a connection come before those behind the ones after it. -/
theorem Flat.cons (h : w.Flat k [c] flat) (h' : w.Flat k cs flat') :
    w.Flat k (c :: cs) (flat ++ flat') := by
  cases h with
  | absent hc hrest =>
    cases hrest
    exact .absent hc h'
  | robot hr hinner hrest =>
    cases hrest
    rw [List.append_nil]
    exact .robot hr hinner h'
  | remote hr hinner hrest =>
    cases hrest
    rw [List.append_nil]
    exact .remote hr hinner h'

/-- If what lies behind each connection can be listed, so can what lies behind all of them. -/
theorem exists_flat_of_each (h : ∀ c ∈ cs, ∃ flat, w.Flat k [c] flat) :
    ∃ flat, w.Flat k cs flat := by
  induction cs with
  | nil => exact ⟨[], .nil⟩
  | cons c rest ih =>
    obtain ⟨flat, hflat⟩ := h c List.mem_cons_self
    obtain ⟨flat', hflat'⟩ := ih fun c hc => h c (List.mem_cons_of_mem _ hc)
    exact ⟨flat ++ flat', hflat.cons hflat'⟩

/-- Behind a connection of which each way ends there are finitely many parts, by induction along the
ways. -/
theorem Ends.exists_flat (h : w.Ends c) (k : Kind) : ∃ flat, w.Flat k [c] flat := by
  induction h with
  | intro c _ ih =>
    by_cases hc : c ∈ w.answering
    · cases c with
      | robot r =>
        obtain ⟨g, hr⟩ := mem_answering_robot.mp hc
        obtain ⟨inner, hinner⟩ : ∃ inner, w.Flat k (g.remotes.values.map .remote) inner := by
          refine exists_flat_of_each fun c hc => ?_
          obtain ⟨remote, hremote, rfl⟩ := List.mem_map.mp hc
          exact ih _ (.robot hr hremote)
        exact ⟨_, .robot hr hinner .nil⟩
      | remote r =>
        obtain ⟨remote, hr⟩ := mem_answering_remote.mp hc
        obtain ⟨inner, hinner⟩ := ih _ (.remote hr)
        exact ⟨_, .remote hr hinner .nil⟩
    · exact ⟨_, .absent hc .nil⟩

/-! ## Walks behind connections -/

section Walks

variable (w) (own : Graph → List String) (k : Kind) (depth : Nat)

/-- Where nothing answers, nothing is listed. -/
theorem namesIn_absent (hc : c ∉ w.answering) : w.namesIn own depth c = [] := by
  cases depth with
  | zero => cases c <;> rfl
  | succ depth =>
    cases c with
    | robot r =>
      cases hr : w.robots.get? r with
      | none => simp only [namesIn, hr]
      | some g => exact absurd (mem_answering_robot.mpr ⟨g, hr⟩) hc
    | remote r =>
      cases hr : w.remotes.get? r with
      | none => simp only [namesIn, hr]
      | some remote => exact absurd (mem_answering_remote.mpr ⟨remote, hr⟩) hc

/-- Where nothing answers, nothing is found. -/
theorem findIn?_absent (hc : c ∉ w.answering) (name : String) :
    w.findIn? k depth c name = none := by
  cases depth with
  | zero => cases c <;> rfl
  | succ depth =>
    cases c with
    | robot r =>
      cases hr : w.robots.get? r with
      | none => simp [findIn?, hr]
      | some g => exact absurd (mem_answering_robot.mpr ⟨g, hr⟩) hc
    | remote r =>
      cases hr : w.remotes.get? r with
      | none => simp [findIn?, hr]
      | some remote => exact absurd (mem_answering_remote.mpr ⟨remote, hr⟩) hc

variable {w}

/-- A robot lists its own names and then those behind its remotes, each once. -/
theorem namesIn_robot {r : Ref .robot} {g : Graph} (hr : w.robots.get? r = some g) :
    w.namesIn own (depth + 1) (.robot r) =
      (own g ++ (g.remotes.values.map .remote).flatMap (w.namesIn own depth)).eraseDups := by
  simp only [namesIn, hr, Graph.namesVia, List.flatMap_map]

/-- A robot looks among its own parts and then behind its remotes, one after the other. -/
theorem findIn?_robot {r : Ref .robot} {g : Graph} (hr : w.robots.get? r = some g)
    (name : String) : w.findIn? k (depth + 1) (.robot r) name =
      ((g.entries k).get? name).or
        ((g.remotes.values.map .remote).findSome? fun c => w.findIn? k depth c name) := by
  rw [List.findSome?_map]
  simp only [findIn?, hr]
  rfl

/-- A remote robot lists the outer names of what its connection lists. -/
theorem namesIn_remote {r : Ref .remote} {remote : Remote} (hr : w.remotes.get? r = some remote) :
    w.namesIn own (depth + 1) (.remote r) =
      (w.namesIn own depth remote.connection).map remote.config.outerName := by
  simp only [namesIn, hr]

/-- It looks for the inner name of what it is asked for, if there is one. -/
theorem findIn?_remote {r : Ref .remote} {remote : Remote} (hr : w.remotes.get? r = some remote)
    (name : String) : w.findIn? k (depth + 1) (.remote r) name =
      (remote.config.innerName? name).bind (w.findIn? k depth remote.connection) := by
  simp only [findIn?, hr]
  rfl

end Walks

/-- Both walks come to what the list of all parts says, if they may go as far as the ways do. -/
theorem Flat.walks (h : w.Flat k cs flat) {depth : Nat} (hdepth : ∀ c ∈ cs, w.Within depth c) :
    (cs.flatMap (w.namesIn (Graph.ownNames k) depth)).eraseDups =
        (flat.map Prod.fst).eraseDups ∧
      ∀ name, cs.findSome? (fun c => w.findIn? k depth c name) = Entries.find? flat name := by
  induction h generalizing depth with
  | nil => exact ⟨rfl, fun _ => rfl⟩
  | absent hc _ ih =>
    obtain ⟨hnames, hfind⟩ := ih fun c hc => hdepth c (List.mem_cons_of_mem _ hc)
    refine ⟨?_, fun name => ?_⟩
    · rw [List.flatMap_cons, namesIn_absent w _ depth hc, List.nil_append, hnames]
    · rw [findSome?_cons_eq_or, findIn?_absent w k depth hc, Option.none_or, hfind]
  | @robot r g cs inner rest hr _ _ ihinner ih =>
    obtain ⟨hnames, hfind⟩ := ih fun c hc => hdepth c (List.mem_cons_of_mem _ hc)
    have hwithin := hdepth _ List.mem_cons_self
    cases depth with
    | zero => exact absurd (mem_answering_robot.mpr ⟨g, hr⟩) hwithin
    | succ depth =>
      -- what lies behind the robot's remotes is as near as the robot, less one
      have hnear : ∀ c ∈ g.remotes.values.map Connection.remote, w.Within depth c := by
        intro c hc
        obtain ⟨remote, hremote, rfl⟩ := List.mem_map.mp hc
        exact hwithin _ (.robot hr hremote)
      obtain ⟨hinner, hbeyond⟩ := ihinner hnear
      refine ⟨?_, fun name => ?_⟩
      · rw [List.flatMap_cons, List.map_append, List.map_append, namesIn_robot _ depth hr]
        refine eraseDups_append_congr ?_ hnames
        rw [eraseDups_eraseDups]
        exact eraseDups_append_congr rfl hinner
      · rw [findSome?_cons_eq_or, hfind, Entries.find?_append, Entries.find?_append,
          findIn?_robot k depth hr, hbeyond]
        rfl
  | @remote r remote cs inner rest hr _ _ ihinner ih =>
    obtain ⟨hnames, hfind⟩ := ih fun c hc => hdepth c (List.mem_cons_of_mem _ hc)
    have hwithin := hdepth _ List.mem_cons_self
    cases depth with
    | zero => exact absurd (mem_answering_remote.mpr ⟨remote, hr⟩) hwithin
    | succ depth =>
      have hnear : ∀ c ∈ [remote.connection], w.Within depth c := by
        intro c hc
        rw [List.mem_singleton.mp hc]
        exact hwithin _ (.remote hr)
      obtain ⟨hinner, hbeyond⟩ := ihinner hnear
      rw [List.flatMap_singleton] at hinner
      have hfound : w.findIn? k depth remote.connection = Entries.find? inner := by
        funext name
        rw [← hbeyond name, findSome?_cons_eq_or, List.findSome?_nil, Option.or_none]
      refine ⟨?_, fun name => ?_⟩
      · rw [List.flatMap_cons, List.map_append, List.map_map, namesIn_remote _ depth hr]
        refine eraseDups_append_congr ?_ hnames
        rw [eraseDups_map_congr _ hinner, List.map_map]
        rfl
      · rw [findSome?_cons_eq_or, hfind, Entries.find?_append,
          RemoteConfig.find?_map_outerName, findIn?_remote k depth hr, hfound]

end World

/-! ## The parts that a graph can find -/

namespace Graph

variable {g : Graph} {w : World} {k : Kind}

/-- The remotes of a graph are nested finitely: no way behind them goes on for ever. -/
def Nested (w : World) (g : Graph) : Prop := ∀ remote ∈ g.remotes.values, w.Ends (.remote remote)

/-- All parts of a kind that a graph has or that lie behind its remotes, under the names they go by
in the graph. -/
def Flat (w : World) (k : Kind) (g : Graph) (flat : List (String × k.Handle)) : Prop :=
  ∃ beyond, w.Flat k (g.remotes.values.map .remote) beyond ∧ flat = (g.entries k).entries ++ beyond

/-- In a graph whose remotes are nested finitely, the names of a kind are those of all parts that
there are of the kind, each where it comes first, and under a name the first of these parts is
found. So no name is listed twice, the names that are listed are those under which something is
found, and a graph's own parts go before all others. -/
theorem find?_matches_names (hg : g.Nested w) (k : Kind) :
    ∃ flat, g.Flat w k flat ∧ (∀ other, g.Flat w k other → other = flat) ∧
      g.names w k = (flat.map Prod.fst).eraseDups ∧
      (∀ name, g.find? w k name = Entries.find? flat name) ∧
      (g.names w k).Nodup ∧
      (∀ name, name ∈ g.names w k ↔ ∃ h, g.find? w k name = some h) ∧
      ∀ name h, (g.entries k).get? name = some h → g.find? w k name = some h := by
  have hends : ∀ c ∈ g.remotes.values.map Connection.remote, w.Ends c := by
    intro c hc
    obtain ⟨remote, hremote, rfl⟩ := List.mem_map.mp hc
    exact hg remote hremote
  obtain ⟨beyond, hbeyond⟩ := World.exists_flat_of_each fun c hc => (hends c hc).exists_flat k
  have hwalks {n : Nat} (hn : w.depth ≤ n) := hbeyond.walks fun c hc =>
    (hends c hc).within (Nat.le_trans (Nat.le_of_lt w.length_answering) hn)
  have hnames : g.names w k =
      (((g.entries k).entries ++ beyond).map Prod.fst).eraseDups := by
    have hlisted := (hwalks (Nat.le_refl _)).1
    rw [List.flatMap_map] at hlisted
    rw [List.map_append]
    exact eraseDups_append_congr rfl hlisted
  have hfind : ∀ name, g.find? w k name =
      Entries.find? ((g.entries k).entries ++ beyond) name := by
    intro name
    -- a name is looked for at least as far as the ways go
    have hreach : w.depth ≤ w.reach name := Nat.le_mul_of_pos_right _ (Nat.succ_pos _)
    have hfound := (hwalks hreach).2 name
    rw [List.findSome?_map] at hfound
    rw [Entries.find?_append, ← hfound]
    rfl
  refine ⟨_, ⟨beyond, hbeyond, rfl⟩, ?_, hnames, hfind, ?_, fun name => ?_, fun name h hh => ?_⟩
  · rintro other ⟨beyond', hbeyond', rfl⟩
    rw [hbeyond.unique hbeyond']
  · rw [hnames]
    exact nodup_eraseDups _
  · rw [hnames, List.mem_eraseDups, hfind, Entries.exists_find?_iff]
  · exact find?_of_get? hh

end Graph

/-! ## Two remotes that lead to one name -/

namespace Sample

/-- A graph with these arms and remotes. -/
def armedGraph (arms : List (String × Ref .proxy)) (remotes : List (String × Ref .remote)) :
    Graph where
  remotes := .ofList remotes
  parts := { arms := .ofList arms }

def plainRobot : Graph := armedGraph [("hand", ⟨0⟩)] []

/-- A robot that is attached to the other one and has an arm with a dot in its name. -/
def dottedRobot : Graph := armedGraph [("b.hand", ⟨1⟩), ("hand", ⟨2⟩)] [("near", ⟨0⟩)]

/-- A remote robot of this name. -/
def remoteTo (r : Ref .robot) (name : String) (qualified : Bool) : Remote :=
  ⟨{ name := name, address := "", qualified := qualified }, .robot r⟩

def region : World where
  robots := ⟨[plainRobot, dottedRobot]⟩
  remotes := ⟨[remoteTo ⟨0⟩ "near" false, remoteTo ⟨1⟩ "a" true, remoteTo ⟨0⟩ "a.b" true,
    remoteTo ⟨0⟩ "far" false]⟩

/-- A graph that is attached to both. -/
def entrance : Graph :=
  armedGraph [("hand", ⟨3⟩)] [("a", ⟨1⟩), ("a.b", ⟨2⟩), ("far", ⟨3⟩)]

/-- How far it is from a connection to the first robot. -/
def distance : Connection → Nat
  | .robot ⟨0⟩ => 0
  | .remote ⟨1⟩ => 3
  | .robot _ => 2
  | .remote _ => 1

theorem entrance_nested : entrance.Nested region := by
  refine fun remote _ => World.ends_of_rank distance (fun c next hnext => ?_) _
  cases hnext with
  | @robot r g remote hr hremote =>
    match r, hr with
    | ⟨0⟩, hr => cases hr; revert remote; decide
    | ⟨1⟩, hr => cases hr; revert remote; decide
  | @remote r remote hr =>
    match r, hr with
    | ⟨0⟩, hr | ⟨1⟩, hr | ⟨2⟩, hr | ⟨3⟩, hr => cases hr; decide

/-- Both remotes have a part that goes by the same name outside, as one has a dot in its own. -/
def arms : List (String × Ref .proxy) :=
  [("hand", ⟨3⟩), ("a.b.hand", ⟨1⟩), ("a.hand", ⟨2⟩), ("a.hand", ⟨0⟩), ("a.b.hand", ⟨0⟩),
    ("hand", ⟨0⟩)]

theorem entrance_flat : entrance.Flat region (.driver (.part .arm)) arms := by
  have hnear : region.remotes.get? ⟨0⟩ = some (remoteTo ⟨0⟩ "near" false) := rfl
  have hfirst : region.remotes.get? ⟨1⟩ = some (remoteTo ⟨1⟩ "a" true) := rfl
  have hsecond : region.remotes.get? ⟨2⟩ = some (remoteTo ⟨0⟩ "a.b" true) := rfl
  have hthird : region.remotes.get? ⟨3⟩ = some (remoteTo ⟨0⟩ "far" false) := rfl
  have hplain := World.Flat.robot (w := region) (r := ⟨0⟩) (g := plainRobot)
    (k := .driver (.part .arm)) rfl .nil .nil
  have hdotted := World.Flat.robot (w := region) (r := ⟨1⟩) (g := dottedRobot) rfl
    (.remote hnear hplain .nil) .nil
  exact ⟨_, .remote hfirst hdotted (.remote hsecond hplain (.remote hthird hplain .nil)),
    by decide⟩

end Sample

theorem Graph.find?_matches_names_sample : Sample.entrance.Nested Sample.region ∧
    Sample.entrance.Flat Sample.region (.driver (.part .arm)) Sample.arms ∧
    Sample.entrance.names Sample.region (.driver (.part .arm)) = ["hand", "a.b.hand", "a.hand"] ∧
    Sample.entrance.find? Sample.region (.driver (.part .arm)) "a.b.hand" = some ⟨1⟩ := by
  refine ⟨Sample.entrance_nested, Sample.entrance_flat, ?_⟩
  obtain ⟨flat, -, hunique, hnames, hfind, -⟩ :=
    find?_matches_names Sample.entrance_nested (.driver (.part .arm))
  rw [hnames, hfind, ← hunique _ Sample.entrance_flat]
  decide

end RobotHost
