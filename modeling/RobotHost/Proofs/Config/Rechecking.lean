import RobotHost.Proofs.Config.Requirements
import RobotHost.Proofs.Config.Stability

/-!
# Checking a configuration again

The check leaves something behind also when it fails: a cloud that was accepted has its interval,
and components that have a build order stand in it. Each of these steps finds nothing left to do
when it comes again, and disturbs no check that was passed before it. So a second check comes to the
same verdict and changes nothing (`Config.ensure_again`).
-/

namespace RobotHost

namespace Component

variable {cs out : List Component}

/-- Where names are distinct, a component is what is found under its name. -/
theorem find?_eq_some_iff (hnames : (cs.map Component.name).Nodup) {name : String} {c : Component} :
    find? cs name = some c ↔ c ∈ cs ∧ c.name = name := by
  refine ⟨find?_eq_some, ?_⟩
  rintro ⟨hc, rfl⟩
  obtain ⟨c', hfind⟩ := find?_isSome (List.mem_map_of_mem hc)
  obtain ⟨hc', hname⟩ := find?_eq_some hfind
  rw [hfind, List.inj_on_of_nodup_map hnames hc' hc hname]

/-- Components with distinct names are found in every order. -/
theorem find?_perm (hperm : out.Perm cs) (hnames : (cs.map Component.name).Nodup) (name : String) :
    find? out name = find? cs name := by
  have hnames' : (out.map Component.name).Nodup := (hperm.map _).nodup_iff.mpr hnames
  ext c
  rw [find?_eq_some_iff hnames', find?_eq_some_iff hnames, hperm.mem_iff]

end Component

namespace CloudConfig

theorem withInterval_withInterval (c : CloudConfig) :
    c.withInterval.withInterval = c.withInterval := by
  unfold withInterval
  split <;> rfl

/-- The interval is not looked at. -/
theorem validate_withInterval (path : String) (fromCloud : Bool) (c : CloudConfig) :
    c.withInterval.validate path fromCloud = c.validate path fromCloud := by
  unfold withInterval
  split <;> rfl

end CloudConfig

namespace Config

variable {c d e : Config} {fromCloud : Bool}

/-! ## Steps that come again -/

/-- A cloud that was accepted is accepted again, and left as it is. -/
theorem ensureCloud_again (h : c.ensureCloud fromCloud = .ok d) :
    d.ensureCloud fromCloud = .ok d := by
  obtain ⟨hvalid, rfl⟩ := ensureCloud_eq_ok.mp h
  refine ensureCloud_eq_ok.mpr ⟨fun cloud hcloud => ?_, ?_⟩
  · obtain ⟨cloud, hmem, rfl⟩ := Option.map_eq_some_iff.mp hcloud
    rw [CloudConfig.validate_withInterval]
    exact hvalid cloud hmem
  · cases c.cloud <;> simp [CloudConfig.withInterval_withInterval]

theorem ensureOrder_again (h : d.ensureOrder = .ok e) : e.ensureOrder = .ok e := by
  obtain ⟨out, hout, rfl⟩ := ensureOrder_eq_ok.mp h
  obtain ⟨hperm, hordered⟩ := Component.buildOrder_sorts hout
  have hnames := (hperm.map Component.name).nodup_iff.mpr (Component.buildOrder_checked hout).1
  exact ensureOrder_eq_ok.mpr ⟨out, hordered.buildOrder_eq hnames, rfl⟩

/-- The order of components does not matter to the cloud. -/
theorem ensureCloud_ordered (h : d.ensureCloud fromCloud = .ok d) (he : d.ensureOrder = .ok e) :
    e.ensureCloud fromCloud = .ok e := by
  obtain ⟨out, -, rfl⟩ := ensureOrder_eq_ok.mp he
  obtain ⟨hvalid, hsame⟩ := ensureCloud_eq_ok.mp h
  have hcloud : d.cloud = d.cloud.map CloudConfig.withInterval := congrArg cloud hsame
  refine ensureCloud_eq_ok.mpr ⟨hvalid, ?_⟩
  rw [← hcloud]

/-- Components that have names have them in every order. -/
theorem validateParts_again (hparts : d.validateParts = .ok ()) (h : d.ensureOrder = .ok e) :
    e.validateParts = .ok () := by
  obtain ⟨out, hout, rfl⟩ := ensureOrder_eq_ok.mp h
  obtain ⟨hperm, -⟩ := Component.buildOrder_sorts hout
  rw [(validateParts_checks _).ok_iff] at hparts ⊢
  simp only [List.forall_mem_append,
    forall_mem_requiredOfEach Component.forall_requirements] at hparts ⊢
  obtain ⟨hremotes, hboards, hnamed⟩ := hparts
  exact ⟨hremotes, hboards, fun k hk => hnamed k (hperm.mem_iff.mp hk)⟩

/-! ## What a check leaves behind -/

/-- What a check may do to a configuration: the cloud has the default interval where it named none,
and the components are in build order. -/
structure Tidied (c d : Config) : Prop where
  cloud : d.cloud = c.cloud ∨ ∃ cloud, c.cloud = some cloud ∧ cloud.refreshIntervalSecs = 0 ∧
    d.cloud = some { cloud with refreshIntervalSecs := 10 }
  components : d.components = c.components ∨ Component.buildOrder c.components = .ok d.components
  /-- Nothing else is changed. -/
  rest : d = { c with cloud := d.cloud, components := d.components }

theorem Tidied.refl (c : Config) : Tidied c c := ⟨.inl rfl, .inl rfl, rfl⟩

theorem Tidied.ensureCloud (h : c.ensureCloud fromCloud = .ok d) : Tidied c d := by
  obtain ⟨-, rfl⟩ := ensureCloud_eq_ok.mp h
  refine ⟨?_, .inl rfl, rfl⟩
  cases hcloud : c.cloud with
  | none => exact .inl rfl
  | some cloud =>
    by_cases hzero : cloud.refreshIntervalSecs = 0
    · refine .inr ⟨cloud, rfl, hzero, ?_⟩
      simp [CloudConfig.withInterval, hzero, defaultRefreshIntervalSecs]
    · refine .inl ?_
      simp [CloudConfig.withInterval, hzero]

/-- Ordering the components changes nothing but their order. -/
theorem Tidied.ensureOrder (h : Tidied c d) (hsame : d.components = c.components)
    (he : d.ensureOrder = .ok e) : Tidied c e := by
  obtain ⟨out, hout, rfl⟩ := ensureOrder_eq_ok.mp he
  refine ⟨h.cloud, .inr (hsame ▸ hout), ?_⟩
  rw [h.rest]

/-- To find a component it makes no difference that a configuration was checked. -/
theorem Tidied.findComponent? (h : Tidied c d) (name : String) :
    d.findComponent? name = c.findComponent? name := by
  unfold Config.findComponent?
  rcases h.components with hsame | hout
  · rw [hsame]
  · exact Component.find?_perm (Component.buildOrder_sorts hout).1
      (Component.buildOrder_checked hout).1 name

/-- Where a check ends, and with which configuration. -/
theorem ensure_cases (fromCloud : Bool) (c : Config) :
    (∃ x, c.ensureCloud fromCloud = .error x ∧ c.ensure fromCloud = (.error x, c)) ∨
    ∃ d, c.ensureCloud fromCloud = .ok d ∧
      ((∃ x, d.validateParts = .error x ∧ c.ensure fromCloud = (.error x, d)) ∨
      d.validateParts = .ok () ∧
        ((∃ x, d.ensureOrder = .error x ∧ c.ensure fromCloud = (.error x, d)) ∨
        ∃ e, d.ensureOrder = .ok e ∧ c.ensure fromCloud = (e.validateRest, e))) := by
  unfold ensure
  cases c.ensureCloud fromCloud with
  | error x => exact .inl ⟨x, rfl, rfl⟩
  | ok d =>
    refine .inr ⟨d, rfl, ?_⟩
    cases hparts : d.validateParts with
    | error x => exact .inl ⟨x, rfl, by simp only [hparts]⟩
    | ok _ =>
      refine .inr ⟨rfl, ?_⟩
      cases horder : d.ensureOrder with
      | error x => exact .inl ⟨x, rfl, by simp only [hparts, horder]⟩
      | ok e => exact .inr ⟨e, rfl, by simp only [hparts, horder]⟩

/-- To check a configuration again, whether it was accepted or not, comes to the same result and
changes nothing. The first check changes at most the interval of the cloud and the order of the
components, so that every component is found as before. -/
theorem ensure_again (fromCloud : Bool) (c : Config) :
    (c.ensure fromCloud).2.ensure fromCloud = c.ensure fromCloud ∧
      Tidied c (c.ensure fromCloud).2 ∧
      ∀ name, (c.ensure fromCloud).2.findComponent? name = c.findComponent? name := by
  suffices h : (c.ensure fromCloud).2.ensure fromCloud = c.ensure fromCloud ∧
      Tidied c (c.ensure fromCloud).2 from ⟨h.1, h.2, h.2.findComponent?⟩
  rcases ensure_cases fromCloud c with ⟨x, -, hend⟩ | ⟨d, hcloud, hend⟩
  · rw [hend]
    exact ⟨hend, .refl c⟩
  have hcloud' := ensureCloud_again hcloud
  have hd := Tidied.ensureCloud hcloud
  rcases hend with ⟨x, hparts, hend⟩ | ⟨hparts, ⟨x, horder, hend⟩ | ⟨e, horder, hend⟩⟩
  · -- the interval was set and the parts were refused
    rw [hend]
    refine ⟨?_, hd⟩
    simp only [ensure, hcloud', hparts]
  · -- there was no build order, so that the components stay as they are
    rw [hend]
    refine ⟨?_, hd⟩
    simp only [ensure, hcloud', hparts, horder]
  · -- the components are in build order, whatever the checks of the rest came to
    have hcomponents : d.components = c.components := by
      obtain ⟨-, rfl⟩ := ensureCloud_eq_ok.mp hcloud
      rfl
    rw [hend]
    refine ⟨?_, hd.ensureOrder hcomponents horder⟩
    simp only [ensure, ensureCloud_ordered hcloud' horder, validateParts_again hparts horder,
      ensureOrder_again horder]

end Config

end RobotHost
