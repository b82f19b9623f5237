import RobotHost.Proofs.Config.Ordering
import RobotHost.Proofs.Robot.Reconfiguring

/-!
# The order in which components are made

A build asks the factory for one component after the other: for providers first and then for the
rest, both in the order of the configuration, up to the first that cannot be made. A configuration
that was checked is in build order, so that a component is asked for after all it depends on. Only
providers may come too early: they do not wait for components of other kinds.

* `Build.asks_config` says which components a build asks for.
* `Build.dependencies_come_first` says what has been asked for by then.
-/

namespace RobotHost

/-! ## Orders in the log -/

/-- The component that the factory was asked for; boards are none. -/
def Event.order? : Event → Option String
  | constructed kind name _ => if kind = .board then none else some name
  | _ => none

/-- The components that the factory was asked for, whether it made them or not. -/
def World.orders (w : World) : List String := w.log.filterMap Event.order?

theorem World.orders_append {w w' : World} {es : List Event} (h : w'.log = w.log ++ es) :
    w'.orders = w.orders ++ es.filterMap Event.order? := by
  rw [orders, h, List.filterMap_append, orders]

theorem Event.OfStart.order? {e : Event} (h : e.OfStart) : e.order? = none := by
  cases e with
  | started p => rfl
  | stopped _ => exact h.elim
  | constructed _ _ _ => exact h.elim
  | connected _ _ => exact h.elim
  | closed _ => exact h.elim
  | hungUp _ => exact h.elim

/-! ## What a build asks for -/

namespace Build

/-- A step that asks for these components in turn: for all of them if it succeeds, else for the
first few. -/
def Asks (f : Build Unit) (names : List String) : Prop :=
  ∀ s, ∃ called, called <+: names ∧
    (stateAfter (f s)).world.orders = s.world.orders ++ called ∧
      ∀ s', f s = .ok () s' → called = names

/-- A step that asks for no component. -/
theorem asks_nil {f : Build Unit}
    (h : Along (fun s s' => s'.world.orders = s.world.orders) f) : Asks f [] := fun s =>
  ⟨[], List.prefix_refl _, by rw [h s, List.append_nil], fun _ _ => rfl⟩

/-- What two steps ask for is asked for in turn; an error of the first ends it early. -/
theorem Asks.bind {f g : Build Unit} {names more : List String} (hf : Asks f names)
    (hg : Asks g more) : Asks (do f; g) (names ++ more) := by
  intro s
  obtain ⟨called, hcalled, horders, hall⟩ := hf s
  cases hfs : f s with
  | error e t =>
    rw [hfs] at horders
    have hstop : (do f; g) s = .error e t := bind_eq_error.mpr (.inl hfs)
    rw [hstop]
    exact ⟨called, hcalled.trans (List.prefix_append _ _), horders, nofun⟩
  | ok _ t =>
    rw [hfs] at horders
    obtain rfl := hall t hfs
    obtain ⟨later, hlater, horders', hall'⟩ := hg t
    have hnext : (do f; g) s = g t := by
      show EStateM.bind f (fun _ => g) s = _
      rw [EStateM.bind, hfs]
    rw [hnext]
    refine ⟨called ++ later, (List.prefix_append_right_inj _).mpr hlater, ?_, fun s' hs' => ?_⟩
    · rw [horders', show t.world.orders = _ from horders, List.append_assoc]
    · rw [hall' s' hs']

/-- What each step of a list asks for is asked for in the order of the list. -/
theorem asks_each {α : Type} {step : α → Build Unit} {names : α → List String}
    (hstep : ∀ x, Asks (step x) (names x)) (xs : List α) :
    Asks (each step xs) (xs.flatMap names) := by
  induction xs with
  | nil => exact asks_nil fun _ => rfl
  | cons x rest ih =>
    rw [List.flatMap_cons]
    exact (hstep x).bind ih

/-! ## Single steps -/

/-- Processes ask for no component. -/
theorem asks_processes (env : Environment) (ps : List ProcessConfig) :
    Asks (processes env ps) [] := by
  refine asks_nil fun s => ?_
  obtain ⟨es, hlog, hes⟩ := (processes_staffed env ps s).log
  rw [World.orders_append hlog, List.filterMap_eq_nil_iff.mpr fun e he => (hes e he).order?,
    List.append_nil]

theorem asks_remote (env : Environment) (c : RemoteConfig) : Asks (remote env c) [] := by
  refine asks_nil fun s => ?_
  rw [remote_eq]
  split
  · exact (World.orders_append (show _ = _ ++ [_] from rfl)).trans (List.append_nil _)
  · exact (World.orders_append (show _ = _ ++ [_] from rfl)).trans (List.append_nil _)

/-- A driver is asked for once, whether it is made or not. -/
theorem driver_log (env : Environment) (name : String) (b : Blueprint) (s : Site) :
    ∃ outcome, (stateAfter (driver env name b s)).world.log =
      s.world.log ++ [.constructed b.kind b.name outcome] := by
  cases hmade : driver env name b s with
  | ok _ t =>
    obtain ⟨d, hd⟩ := driver_ok hmade
    exact ⟨some d, hd.log⟩
  | error e t =>
    obtain ⟨cause, w, hrefused, -, rfl⟩ := driver_refused hmade
    exact ⟨none, (Environment.construct_error hrefused).2⟩

/-- A board is no component. -/
theorem asks_board (env : Environment) (name : String) (c : BoardConfig) :
    Asks (board env name c) [] := by
  refine asks_nil fun s => ?_
  obtain ⟨outcome, hlog⟩ := driver_log env name (.board c) s
  exact (World.orders_append hlog).trans (List.append_nil _)

/-- A component is asked for by its name, unless it has no order. -/
theorem asks_component (env : Environment) (c : Component) :
    Asks (component env c.name c) [c.name] := by
  intro s
  rw [show component env c.name c = Item.build env (.component c) from rfl, Item.build_component]
  cases hb : c.blueprint with
  | error e => exact ⟨[], List.nil_prefix, (List.append_nil _).symm, nofun⟩
  | ok b =>
    obtain ⟨hkind, hname⟩ := Component.blueprint_names hb
    obtain ⟨outcome, hlog⟩ := driver_log env c.name b s
    refine ⟨[c.name], List.prefix_refl _, ?_, fun _ _ => rfl⟩
    show (stateAfter (driver env c.name b s)).world.orders = _
    rw [World.orders_append hlog]
    simp [Event.order?, hkind, hname]

theorem asks_functions (fs : List FunctionConfig) : Asks (functions fs) [] := by
  have hstep : ∀ c : FunctionConfig, Asks (onGraph fun g => g.insertFunction c.name) [] :=
    fun _ => asks_nil fun _ => rfl
  have h := asks_each hstep fs
  rwa [List.flatMap_eq_nil_iff.mpr fun _ _ => rfl] at h

/-- A build asks for its components, providers first. -/
theorem asks_config (env : Environment) (c : Config) :
    Asks (config env c) ((providersFirst c.components).map Component.name) := by
  have hremotes := asks_each (asks_remote env) c.remotes
  have hboards := asks_each (fun b => asks_board env b.name b) c.boards
  have hcomponents := asks_each (asks_component env) (providersFirst c.components)
  rw [List.flatMap_eq_nil_iff.mpr fun _ _ => rfl] at hremotes hboards
  have hall := (asks_processes env c.processes).bind
    (hremotes.bind (hboards.bind (hcomponents.bind (asks_functions c.functions))))
  rwa [List.nil_append, List.nil_append, List.nil_append, List.append_nil,
    ← List.map_eq_flatMap] at hall

/-! ## Dependencies come first -/

/-- Providers first, the rest after them: each component still comes after those it depends on, but
for a provider that depends on something else. -/
theorem providersFirst_ordered {cs done rest : List Component} {x y : Component}
    (hcs : Component.Ordered cs) (hnames : (cs.map Component.name).Nodup)
    (hsplit : providersFirst cs = done ++ x :: rest) (hy : y ∈ cs)
    (hdep : y.name ∈ x.dependsOn) (hkind : x.type = .provider → y.type = .provider) :
    y ∈ done := by
  have hlate : ∀ front, done = cs.filter (·.type = .provider) ++ front →
      cs.filter (·.type ≠ .provider) = front ++ x :: rest → y ∈ done := by
    rintro front rfl hback
    by_cases hprovider : y.type = .provider
    · exact List.mem_append_left _ (List.mem_filter.mpr ⟨hy, decide_eq_true hprovider⟩)
    · exact List.mem_append_right _
        (hcs.mem_of_filter hnames hback hy (decide_eq_true hprovider) hdep)
  -- the component is among the rest, or among the providers, and then so is what it needs
  rcases List.append_eq_append_iff.mp hsplit with ⟨front, hdone, hback⟩ | ⟨back, hfront, hback⟩
  · exact hlate front hdone hback
  cases back with
  | nil => exact hlate [] (by simpa using hfront.symm) (by simpa using hback.symm)
  | cons x' back =>
    obtain ⟨rfl, -⟩ := List.cons_eq_cons.mp hback
    have hx : x ∈ cs.filter (·.type = .provider) := by
      rw [hfront]
      simp
    have hprovider := hkind (of_decide_eq_true (List.mem_filter.mp hx).2)
    exact hcs.mem_of_filter hnames hfront hy (decide_eq_true hprovider) hdep

/-- A build of a configuration that was checked asks for its components providers first, and for
each after all it depends on, but for a provider that depends on something else; so it does if it
fails, as far as it gets. -/
theorem dependencies_come_first {c c' : Config} {fromCloud : Bool}
    (h : c.ensure fromCloud = (.ok (), c')) (env : Environment) (w : World) :
    ∃ called, (stateAfter (config env c' ⟨{}, w⟩)).world.orders = w.orders ++ called ∧
      called <+: (providersFirst c'.components).map Component.name ∧
      (∀ s, config env c' ⟨{}, w⟩ = .ok () s →
        called = (providersFirst c'.components).map Component.name) ∧
      ∀ x ∈ c'.components, ∀ y ∈ c'.components, y.name ∈ x.dependsOn →
        (x.type = .provider → y.type = .provider) →
        ∀ done rest, called = done ++ x.name :: rest → y.name ∈ done := by
  obtain ⟨hnames, hordered⟩ := c.ensured h
  obtain ⟨called, hcalled, horders, hok⟩ := asks_config env c' ⟨{}, w⟩
  refine ⟨called, horders, hcalled, hok, fun x hx y hy hdep hkind done rest hsplit => ?_⟩
  -- the names that were called are those of the first few components
  obtain ⟨later, hall⟩ := hcalled
  rw [hsplit, List.append_assoc, List.cons_append] at hall
  obtain ⟨before, others, hfirst, rfl, hothers⟩ := List.map_eq_append_iff.mp hall.symm
  obtain ⟨x', after, rfl, hname, -⟩ := List.map_eq_cons_iff.mp hothers
  have hmem : x' ∈ c'.components := (providersFirst_perm _).mem_iff.mp (by rw [hfirst]; simp)
  obtain rfl := List.inj_on_of_nodup_map hnames hmem hx hname
  exact List.mem_map_of_mem (providersFirst_ordered hordered hnames hfirst hy hdep hkind)

end Build

/-! ## A provider that depends on an arm -/

namespace Sample

def guided : Config where
  components :=
    [{ name := "hand", type := .arm },
      { name := "guide", type := .provider, dependsOn := ["hand"] },
      { name := "eye", type := .camera, dependsOn := ["hand", "guide"] }]

theorem guided_ensured : guided.ensure false = (.ok (), guided) := rfl

end Sample

namespace Build

theorem dependencies_come_first_sample : Sample.guided.ensure false = (.ok (), Sample.guided) ∧
    ∃ called,
      (stateAfter (config Sample.environment Sample.guided ⟨{}, {}⟩)).world.orders = called ∧
        ∀ done rest, called = done ++ "eye" :: rest → "hand" ∈ done := by
  obtain ⟨called, horders, -, -, hfirst⟩ :=
    dependencies_come_first Sample.guided_ensured Sample.environment {}
  have heye := hfirst { name := "eye", type := .camera, dependsOn := ["hand", "guide"] }
    (by simp [Sample.guided])
  exact ⟨Sample.guided_ensured, called, horders,
    heye { name := "hand", type := .arm } (by simp [Sample.guided]) (by decide) nofun⟩

/-- A provider is asked for before the arm that it depends on. -/
theorem provider_before_dependency : Sample.guided.ensure false = (.ok (), Sample.guided) ∧
    (∃ x ∈ Sample.guided.components, x.name = "guide" ∧ "hand" ∈ x.dependsOn) ∧
    (stateAfter (config Sample.environment Sample.guided ⟨{}, {}⟩)).world.orders =
      ["guide", "hand", "eye"] :=
  ⟨Sample.guided_ensured, by decide, by decide +kernel⟩

end Build

end RobotHost
