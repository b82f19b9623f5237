import RobotHost.Proofs.Graph.Replacing

/-!
# What closing reports

A graph that others look at is closed in place: its manager no longer counts as started, and then
all is stopped and closed (`Graph.closeInPlace`).

Each process is asked to stop in turn, by ascending id, and then each part is closed in turn, in the
order of the kinds and by ascending name within a kind. What comes of one makes no difference to
whether the next has its turn (`InTurn`). The answer puts the failures together in this order, those
of processes as one (`Graph.close_reports`).
-/

namespace RobotHost

/-! ## In turn -/

/-- Something is done for each element of a list in turn; this came of each. -/
inductive InTurn {α β : Type} (step : World → α → β → World → Prop) :
    World → List (α × β) → World → Prop
  | nil (w : World) : InTurn step w [] w
  | cons {w v u : World} {x : α} {y : β} {rest : List (α × β)} (hx : step w x y v)
    (hrest : InTurn step v rest u) : InTurn step w ((x, y) :: rest) u

theorem InTurn.quiet {α β : Type} {step : World → α → β → World → Prop}
    (hstep : ∀ {w x y v}, step w x y v → w.Quiet v) {w u : World} {xs : List (α × β)}
    (h : InTurn step w xs u) : w.Quiet u := by
  induction h with
  | nil w => exact .refl w
  | cons hx _ ih => exact (hstep hx).trans ih

/-- Each had its turn. -/
theorem InTurn.turn {α β : Type} {step : World → α → β → World → Prop} {w u : World}
    {xs : List (α × β)} (h : InTurn step w xs u) :
    ∀ x ∈ xs, ∃ v v', step v x.1 x.2 v' := by
  induction h with
  | nil w => simp
  | cons hx _ ih => exact List.forall_mem_cons.mpr ⟨⟨_, _, hx⟩, ih⟩

/-! ## Processes -/

namespace World

/-- A process that is there was asked to stop. -/
structure StopsTo (h : Host) (w : World) (p : Ref .process) (outcome : Except ProcessError Unit)
    (v : World) : Prop where
  known : ∃ q, w.processes.get? p = some q
  stop : World.stop h p w = (outcome, v)
  log : v.log = w.log ++ [.stopped p]

/-- The errors of those that did not stop. -/
def stopErrors (stops : List (Ref .process × Except ProcessError Unit)) : List ProcessError :=
  stops.filterMap fun x =>
    match x.2 with
    | .ok () => none
    | .error e => some e

variable {h : Host} {w v u : World}

theorem StopsTo.idle {p : Ref .process} {outcome : Except ProcessError Unit}
    (hp : StopsTo h w p outcome v) : w.Idle v := by
  have hidle := stop_idle h p w
  rwa [hp.stop] at hidle

/-- Processes that are stopped in turn show up in the log, each once. -/
theorem stops_log {stops : List (Ref .process × Except ProcessError Unit)}
    (hstops : InTurn (StopsTo h) w stops u) :
    u.log = w.log ++ stops.map fun x => .stopped x.1 := by
  induction hstops with
  | nil w => exact (List.append_nil _).symm
  | cons hx _ ih =>
    rw [ih, hx.log, List.append_assoc]
    rfl

/-- All processes are asked to stop, and all errors are collected. -/
theorem stopEach_stops {ps : List (Ref .process)}
    (hps : ∀ p ∈ ps, ∃ q, w.processes.get? p = some q) :
    ∃ stops, stops.map Prod.fst = ps ∧ InTurn (StopsTo h) w stops (stopEach h ps w).2 ∧
      (stopEach h ps w).1 = stopErrors stops := by
  induction ps generalizing w with
  | nil => exact ⟨[], rfl, .nil w, rfl⟩
  | cons p rest ih =>
    obtain ⟨hp, hrest⟩ := List.forall_mem_cons.mp hps
    have hfirst : StopsTo h w p (stop h p w).1 (stop h p w).2 := by
      refine ⟨hp, rfl, ?_⟩
      rw [stop_log, List.filter_singleton, Option.isSome_iff_exists.mpr hp]
      rfl
    -- a process that was stopped is still in the world, and so are the others
    have hrest' : ∀ r ∈ rest, ∃ q, (stop h p w).2.processes.get? r = some q := by
      intro r hr
      rw [← Option.isSome_iff_exists, stop_known, Option.isSome_iff_exists]
      exact hrest r hr
    obtain ⟨stops, hfst, hstops, herrors⟩ := ih hrest'
    refine ⟨(p, (stop h p w).1) :: stops, by rw [List.map_cons, hfst], ?_, ?_⟩
    · have hworld : (stopEach h (p :: rest) w).2 = (stopEach h rest (stop h p w).2).2 := by
        rw [stopEach, run_bind]
        cases (stop h p w).1 <;> rfl
      rw [hworld]
      exact .cons hfirst hstops
    -- a failure to stop goes in front of those that follow
    · have hanswer : (stopEach h (p :: rest) w).1 =
          match (stop h p w).1 with
          | .ok () => (stopEach h rest (stop h p w).2).1
          | .error e => e :: (stopEach h rest (stop h p w).2).1 := by
        rw [stopEach, run_bind]
        cases (stop h p w).1 <;> rfl
      rw [hanswer, herrors]
      cases (stop h p w).1 <;> rfl

end World

/-! ## Parts -/

namespace Part

/-- What comes of closing a part: its own error, if any, under its kind and name. -/
inductive ClosesTo (h : Host) (w : World) : Part → Option CloseFailure → World → Prop
  | driver {k : DriverKind} {name : String} {handle : (Kind.driver k).Handle} {d : Ref .driver}
    (hd : w.actual? (.driver k) handle = some d) :
    ClosesTo h w ⟨.driver k, name, handle⟩
      (((w.drivers.get? d).bind Driver.closeFault).map (.driver k name)) (World.closeDriver d w).2
  | remoteWell {name : String} {handle : Kind.remote.Handle} {remote : Remote} {v : World}
    (hr : w.remotes.get? handle = some remote)
    (hhang : World.hangUp h remote.connection w = ([], v)) :
    ClosesTo h w ⟨.remote, name, handle⟩ none v
  | remoteIll {name : String} {handle : Kind.remote.Handle} {remote : Remote} {v : World}
    {f : CloseFailure} {rest : List CloseFailure} (hr : w.remotes.get? handle = some remote)
    (hhang : World.hangUp h remote.connection w = (f :: rest, v)) :
    ClosesTo h w ⟨.remote, name, handle⟩ (some (.remote name (f :: rest))) v

/-- One part comes before another in the order in which parts are closed. -/
def Precedes (p q : Part) : Prop :=
  Kind.closing.idxOf p.kind < Kind.closing.idxOf q.kind ∨ p.kind = q.kind ∧ p.name < q.name

variable {h : Host} {w v u : World}

/-- A part that stands for something is closed as it is. -/
theorem closesTo_of_known {p : Part} (hp : ∃ x, w.behind? (p.kind.slot p.handle) = some x) :
    ClosesTo h w p (p.closeVia (World.hangUpIn h w.depth) w).1
      (p.closeVia (World.hangUpIn h w.depth) w).2 := by
  obtain ⟨k, name, handle⟩ := p
  obtain ⟨x, hx⟩ := hp
  cases k with
  | remote =>
    obtain ⟨remote, hr, -⟩ := World.behind?_remote.mp hx
    -- the bound is the one that the world gives, so this is the whole of hanging up
    rcases hhang : World.hangUp h remote.connection w with ⟨failures, v⟩
    have hhangIn : World.hangUpIn h w.depth remote.connection w = (failures, v) := hhang
    rw [closeVia, get_bind, hr]
    show ClosesTo h w _ ((World.hangUpIn h w.depth remote.connection >>= _) w).1
      ((World.hangUpIn h w.depth remote.connection >>= _) w).2
    rw [run_bind, hhangIn]
    cases failures with
    | nil => exact .remoteWell hr hhang
    | cons f rest => exact .remoteIll hr hhang
  | driver k =>
    obtain ⟨d, rfl⟩ := World.behind?_driver hx
    have hd := World.actual?_eq_some_iff.mpr hx
    have hclose : closeVia (World.hangUpIn h w.depth) ⟨.driver k, name, handle⟩ w =
        (((w.drivers.get? d).bind Driver.closeFault).map (.driver k name),
          (World.closeDriver d w).2) := by
      rw [closeVia, get_bind, hd]
      rfl
    rw [hclose]
    exact .driver hd

theorem ClosesTo.quiet {p : Part} {failure : Option CloseFailure}
    (hp : ClosesTo h w p failure v) : w.Quiet v := by
  have hremote : ∀ {c : Connection} {failures : List CloseFailure},
      World.hangUp h c w = (failures, v) → w.Quiet v := by
    intro c failures hhang
    have hquiet := World.hangUp_quiet h c w
    rwa [hhang] at hquiet
  cases hp with
  | driver hd => exact World.closeDriver_quiet _ w
  | remoteWell hr hhang => exact hremote hhang
  | remoteIll hr hhang => exact hremote hhang

/-- A failure goes by the kind and the name of the part. -/
theorem ClosesTo.target {p : Part} {f : CloseFailure} (hp : ClosesTo h w p (some f) v) :
    f.target = p.kind.text ++ " " ++ quoted p.name := by
  generalize hfailure : some f = failure at hp
  cases hp with
  | driver hd =>
    obtain ⟨fault, -, rfl⟩ := Option.map_eq_some_iff.mp hfailure.symm
    rfl
  | remoteWell hr hhang => cases hfailure
  | remoteIll hr hhang =>
    cases hfailure
    rfl

/-- A part that is closed shows up in the log by its resource, once, before what is further on. -/
theorem ClosesTo.log {p : Part} {failure : Option CloseFailure} (hp : ClosesTo h w p failure v) :
    ∃ x es, p.resource? w = some x ∧ v.log = w.log ++ es ∧ v.ClosedBy x es := by
  -- whether there were failures or not, the connection was hung up
  have hremote : ∀ {name : String} {handle : Kind.remote.Handle} {remote : Remote},
      w.remotes.get? handle = some remote → v = (World.hangUp h remote.connection w).2 →
        ∃ x es, resource? w ⟨.remote, name, handle⟩ = some x ∧ v.log = w.log ++ es ∧
          v.ClosedBy x es := by
    rintro name handle remote hr rfl
    obtain ⟨es, hlog, hes⟩ :=
      World.closed_log h (w.remotes.size + w.robots.size) w (.connection remote.connection)
    refine ⟨.connection remote.connection, es, ?_, hlog, hes⟩
    rw [resource?, World.behind?_remote.mpr ⟨remote, hr, rfl⟩]
    rfl
  cases hp with
  | @driver k name handle d hd =>
    refine ⟨.driver d, [.closed d], ?_, rfl, [], rfl, by simp⟩
    rw [resource?, World.actual?_eq_some_iff.mp hd]
    rfl
  | remoteWell hr hhang => exact hremote hr (by rw [hhang])
  | remoteIll hr hhang => exact hremote hr (by rw [hhang])

/-- Parts that are closed in turn show up in the log in turn. -/
theorem closes_log {closes : List (Part × Option CloseFailure)}
    (hcloses : InTurn (ClosesTo h) w closes u) :
    ∃ stretches, u.log = w.log ++ stretches.flatten ∧
      List.Forall₂ (fun c es => ∃ x, c.1.resource? w = some x ∧ u.ClosedBy x es) closes
        stretches := by
  induction hcloses with
  | nil w => exact ⟨[], (List.append_nil _).symm, .nil⟩
  | @cons w v u p failure rest hp hrest ih =>
    obtain ⟨x, es, hx, hlog, hes⟩ := hp.log
    obtain ⟨stretches, hstretches, hall⟩ := ih
    have hsame : ∀ q : Part, q.resource? v = q.resource? w := fun q => by
      rw [resource?, resource?, hp.quiet.behind?_eq]
    refine ⟨es :: stretches, ?_, .cons ⟨x, hx, hes.quiet (hrest.quiet ClosesTo.quiet)⟩ ?_⟩
    · rw [hstretches, hlog, List.append_assoc]
      rfl
    · simpa only [hsame] using hall

/-- All parts are closed, and all failures are collected. -/
theorem closeEachVia_closes {ps : List Part}
    (hps : ∀ p ∈ ps, ∃ x, w.behind? (p.kind.slot p.handle) = some x) :
    ∃ closes, closes.map Prod.fst = ps ∧
      InTurn (ClosesTo h) w closes (closeEachVia (World.hangUpIn h w.depth) ps w).2 ∧
      (closeEachVia (World.hangUpIn h w.depth) ps w).1 = closes.filterMap Prod.snd := by
  induction ps generalizing w with
  | nil => exact ⟨[], rfl, .nil w, rfl⟩
  | cons p rest ih =>
    obtain ⟨hp, hrest⟩ := List.forall_mem_cons.mp hps
    have hfirst := closesTo_of_known (h := h) hp
    have hquiet := hfirst.quiet
    -- the bound is still that of the world, as closing neither adds robots nor takes any away
    have hdepth : (p.closeVia (World.hangUpIn h w.depth) w).2.depth = w.depth := by
      rw [World.depth, hquiet.remotes, hquiet.robots, World.depth]
    obtain ⟨closes, hfst, hcloses, hfailures⟩ := ih fun q hq => by
      rw [hquiet.behind?_eq]
      exact hrest q hq
    rw [hdepth] at hcloses hfailures
    refine ⟨(p, _) :: closes, by rw [List.map_cons, hfst], .cons hfirst hcloses, ?_⟩
    have hanswer : (closeEachVia (World.hangUpIn h w.depth) (p :: rest) w).1 =
        (p.closeVia (World.hangUpIn h w.depth) w).1.toList ++
          (closeEachVia (World.hangUpIn h w.depth) rest
            (p.closeVia (World.hangUpIn h w.depth) w).2).1 := rfl
    rw [hanswer, hfailures]
    cases (p.closeVia (World.hangUpIn h w.depth) w).1 <;> rfl

end Part

/-! ## Graphs -/

namespace Graph

/-- What failed: the processes as one, and then each part. -/
def failures (stops : List (Ref .process × Except ProcessError Unit))
    (closes : List (Part × Option CloseFailure)) : List CloseFailure :=
  (if (World.stopErrors stops).isEmpty then [] else [.processes (World.stopErrors stops)]) ++
    closes.filterMap Prod.snd

/-- A graph was closed: this came of each of its processes and parts, and this was reported. -/
structure Reported (h : Host) (g : Graph) (w : World)
    (stops : List (Ref .process × Except ProcessError Unit))
    (closes : List (Part × Option CloseFailure)) (outcome : Except RobotError Unit) (u : World) :
    Prop where
  /-- All processes are stopped, by ascending id. -/
  processes : stops.map Prod.fst = g.manager.processes.values
  ids : (stops.map fun x => w.processId x.1).Pairwise (· < ·)
  /-- All parts are closed, each once, in the order of the kinds and by ascending name. -/
  parts : ∀ p, p ∈ closes.map Prod.fst ↔ (g.entries p.kind).get? p.name = some p.handle
  order : (closes.map Prod.fst).Pairwise Part.Precedes
  /-- The processes have their turn before the parts. -/
  turns : ∃ v, InTurn (World.StopsTo h) w stops v ∧ InTurn (Part.ClosesTo h) v closes u
  /-- This is what the log shows. -/
  log : ∃ stretches, u.log = w.log ++ (stops.map fun x => .stopped x.1) ++ stretches.flatten ∧
    List.Forall₂ (fun c es => ∃ x, c.1.resource? w = some x ∧ u.ClosedBy x es) closes stretches
  targets : ∀ c ∈ closes, ∀ f, c.2 = some f →
    f.target = c.1.kind.text ++ " " ++ quoted c.1.name
  answer : outcome =
    if (failures stops closes).isEmpty then .ok () else .error (.close (failures stops closes))
  ok_iff : outcome = .ok () ↔ (∀ x ∈ stops, x.2 = .ok ()) ∧ ∀ c ∈ closes, c.2 = none

variable {h : Host} {g : Graph} {w : World}

/-- There is something behind each handle of a graph, as in all that are intact. -/
def Backed (w : World) (g : Graph) : Prop :=
  ∀ k name x, (g.entries k).get? name = some x → ∃ r, w.behind? (k.slot x) = some r

/-- All parts of a graph are closed. -/
theorem mem_closingParts {p : Part} :
    p ∈ g.closingParts ↔ (g.entries p.kind).get? p.name = some p.handle := by
  obtain ⟨k, name, handle⟩ := p
  simp only [closingParts, partsOf, List.mem_flatMap, List.mem_map, NameMap.get?_eq_some_iff]
  constructor
  · rintro ⟨k', -, e, he, heq⟩
    cases heq
    exact he
  · intro he
    exact ⟨k, Kind.mem_closing k, (name, handle), he, rfl⟩

/-- They are closed kind by kind, and by ascending name within a kind. -/
theorem closingParts_pairwise (g : Graph) : g.closingParts.Pairwise Part.Precedes := by
  refine List.pairwise_flatMap.mpr ⟨fun k _ => ?_, ?_⟩
  · refine List.pairwise_map.mpr ((g.entries k).ascending.imp fun hlt => .inr ⟨rfl, hlt⟩)
  · have hkinds : Kind.closing.Pairwise fun k k' =>
        Kind.closing.idxOf k < Kind.closing.idxOf k' := by decide
    refine hkinds.imp fun hlt p hp q hq => .inl ?_
    obtain ⟨_, -, rfl⟩ := List.mem_map.mp hp
    obtain ⟨_, -, rfl⟩ := List.mem_map.mp hq
    exact hlt

/-- Nothing is reported exactly if all was stopped and closed well. -/
theorem failures_isEmpty_iff {stops : List (Ref .process × Except ProcessError Unit)}
    {closes : List (Part × Option CloseFailure)} :
    (failures stops closes).isEmpty = true ↔
      (∀ x ∈ stops, x.2 = .ok ()) ∧ ∀ c ∈ closes, c.2 = none := by
  have hstops : World.stopErrors stops = [] ↔ ∀ x ∈ stops, x.2 = .ok () := by
    rw [World.stopErrors, List.filterMap_eq_nil_iff]
    refine forall₂_congr fun x _ => ?_
    cases x.2 <;> simp
  rw [failures, List.isEmpty_iff, List.append_eq_nil_iff, List.filterMap_eq_nil_iff, ← hstops]
  refine and_congr_left fun _ => ?_
  cases World.stopErrors stops <;> simp

/-- Whether the manager counts as started makes no difference to how a graph is closed. -/
theorem close_shutDown (h : Host) (g : Graph) (w : World) : g.shutDown.close h w = g.close h w := rfl

/-- All processes have their turn, then all parts, and all failures are collected. -/
theorem close_turns (h : Host) (hparts : g.Backed w) (hkeyed : g.manager.Keyed w) :
    ∃ stops closes v u, stops.map Prod.fst = g.manager.processes.values ∧
      closes.map Prod.fst = g.closingParts ∧ InTurn (World.StopsTo h) w stops v ∧
      InTurn (Part.ClosesTo h) v closes u ∧ g.close h w = (failures stops closes, u) := by
  obtain ⟨stops, hstops, hstopped, herrors⟩ :=
    World.stopEach_stops (h := h) fun p hp => hkeyed.known hp
  -- to stop processes leaves all parts as they are
  have hidle := g.stopped_idle h w
  have hknown : ∀ p ∈ g.closingParts, ∃ x,
      (g.stopped h w).behind? (p.kind.slot p.handle) = some x := by
    intro p hp
    rw [hidle.behind?_eq]
    exact hparts p.kind p.name p.handle (mem_closingParts.mp hp)
  have hdepth : (g.stopped h w).depth = w.depth := by
    rw [World.depth, hidle.remotes, hidle.robots, World.depth]
  obtain ⟨closes, hcloses, hclosed, hfailures⟩ := Part.closeEachVia_closes (h := h) hknown
  rw [hdepth] at hclosed hfailures
  have hclose : g.close h w =
      ((if (World.stopEach h g.manager.processes.values w).1.isEmpty then []
        else [.processes (World.stopEach h g.manager.processes.values w).1]) ++
          (Part.closeEachVia (World.hangUpIn h w.depth) g.closingParts (g.stopped h w)).1,
        (Part.closeEachVia (World.hangUpIn h w.depth) g.closingParts (g.stopped h w)).2) := rfl
  refine ⟨stops, closes, _, _, hstops, hcloses, hstopped, hclosed, ?_⟩
  rw [hclose, herrors, hfailures, failures]

/-- To close a graph stops all its processes and closes all its parts, whatever fails before, and
reports just what failed. -/
theorem close_reports (h : Host) (hparts : g.Backed w) (hkeyed : g.manager.Keyed w) :
    ∃ stops closes outcome u,
      g.closeInPlace h w = (outcome, { g with manager.started := false }, u) ∧
        Reported h g w stops closes outcome u := by
  obtain ⟨stops, closes, v, u, hstops, hcloses, hstopped, hclosed, hclose⟩ :=
    close_turns h hparts hkeyed
  have hquiet : w.Quiet v := hstopped.quiet fun hx => hx.idle.toQuiet
  -- what the parts stand for is read off the world before the processes were stopped
  have hsame : ∀ p : Part, p.resource? v = p.resource? w := fun p => by
    rw [Part.resource?, Part.resource?, hquiet.behind?_eq]
  obtain ⟨stretches, hlog, hstretches⟩ := Part.closes_log hclosed
  refine ⟨stops, closes, _, u, ?_, hstops, ?_, ?_, ?_, ⟨v, hstopped, hclosed⟩,
    ⟨stretches, ?_, ?_⟩, ?_, rfl, ?_⟩
  · rw [closeInPlace, close_shutDown, hclose]
    rfl
  · have hids : (stops.map fun x => w.processId x.1) = g.manager.processes.names := by
      rw [← ProcessManager.Keyed.ids hkeyed, ← hstops, List.map_map]
      rfl
    rw [hids]
    exact List.pairwise_map.mpr g.manager.processes.ascending
  · intro p
    rw [hcloses]
    exact mem_closingParts
  · rw [hcloses]
    exact g.closingParts_pairwise
  · rw [hlog, World.stops_log hstopped]
  · simpa only [hsame] using hstretches
  · intro c hc f hf
    obtain ⟨t, t', hturn⟩ := hclosed.turn c hc
    rw [hf] at hturn
    exact hturn.target
  · rw [← failures_isEmpty_iff]
    split
    · next hnone => exact ⟨fun _ => hnone, fun _ => rfl⟩
    · next hsome =>
      constructor
      · intro hok
        cases hok
      · intro hnone
        exact absurd hnone hsome

namespace Sample

/-- Two services and two stores. The first of each does not stop and does not close well. -/
def yard : World :=
  { processes := ⟨[.service ⟨"lidar", fun _ s => if s = .stop then some "busy" else none, 0⟩,
      .service ⟨"radio", fun _ _ => none, 0⟩]⟩
    drivers := ⟨[{ name := "attic", device := .provider, closeFault := some "stuck" },
      { name := "cellar", device := .provider }]⟩
    proxies := ⟨[⟨0⟩, ⟨1⟩]⟩ }

/-- A graph with all of them, whose manager was started. -/
def kept : Graph :=
  { parts := { providers := .ofList [("attic", ⟨0⟩), ("cellar", ⟨1⟩)] }
    manager := { processes := .ofList [("lidar", ⟨0⟩), ("radio", ⟨1⟩)], started := true } }

theorem kept_backed : kept.Backed yard := by
  intro k name x hx
  have hparts : kept.closingParts = [⟨.driver (.part .provider), "attic", ⟨0⟩⟩,
    ⟨.driver (.part .provider), "cellar", ⟨1⟩⟩] := rfl
  have hmem : (⟨k, name, x⟩ : Part) ∈ kept.closingParts := mem_closingParts.mpr hx
  rw [hparts] at hmem
  rcases List.mem_pair.mp hmem with heq | heq
  · cases heq
    exact ⟨.driver ⟨0⟩, rfl⟩
  · cases heq
    exact ⟨.driver ⟨1⟩, rfl⟩

theorem kept_keyed : kept.manager.Keyed yard := by
  intro id p hp
  have hmem : (id, p) ∈ [("lidar", ⟨0⟩), ("radio", ⟨1⟩)] := (NameMap.get?_eq_some_iff _).mp hp
  rcases List.mem_pair.mp hmem with heq | heq
  · cases heq
    exact ⟨_, rfl, rfl⟩
  · cases heq
    exact ⟨_, rfl, rfl⟩

end Sample

/-- All four have their turn, and the two failures are reported. -/
theorem close_reports_sample : ∃ stops closes outcome u,
    Sample.kept.closeInPlace Sample.environment.host Sample.yard =
      (outcome, { Sample.kept with manager.started := false }, u) ∧
    Reported Sample.environment.host Sample.kept Sample.yard stops closes outcome u ∧
    outcome = .error (.close [.processes [.failed "lidar" "busy"],
      .driver (.part .provider) "attic" "stuck"]) ∧
    u.log = [.stopped ⟨0⟩, .stopped ⟨1⟩, .closed ⟨0⟩, .closed ⟨1⟩] := by
  obtain ⟨stops, closes, outcome, u, hclose, hreported⟩ :=
    close_reports Sample.environment.host Sample.kept_backed Sample.kept_keyed
  refine ⟨stops, closes, outcome, u, hclose, hreported, ?_, ?_⟩
  · exact (congrArg Prod.fst hclose).symm
  · exact (congrArg (fun x => x.2.2.log) hclose).symm

end Graph

end RobotHost
