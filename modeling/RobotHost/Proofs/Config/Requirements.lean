import RobotHost.Config.Basic
import RobotHost.Proofs.Config.Defects
import RobotHost.Proofs.Config.Screening

/-!
# What is required of a configuration

A configuration is valid if its sections have all that they need (`Config.Valid`). The check goes
through these requirements one by one, section after section and element after element, and reports
the first that is not met, under the path of the element. `Config.requirements` lists them in this
order.

`Config.ensure_exact` says that the check accepts just the valid configurations, and which defect it
reports of the others.
-/

namespace RobotHost

/-! ## Requirements -/

/-- What one step of a check looks for. -/
inductive Requirement where
  /-- A text of the entry at this path is not empty. -/
  | filled (path field text : String)
  /-- No name comes twice among the pins of the board at this path. -/
  | distinct (path : String) (names : List String)
  /-- The components have a build order. -/
  | ordered (components : List Component)

namespace Requirement

def Met : Requirement → Prop
  | filled _ _ text => text ≠ ""
  | distinct _ names => names.Nodup
  | ordered components => ∃ out, Component.buildOrder components = .ok out

/-- The error that reports a requirement that is not met. Of names that come again it names the
first. -/
def Reports : Requirement → ConfigError → Prop
  | filled path field _, e => e = .fieldRequired path field
  | distinct path names, e =>
    ∃ name, FirstMisfit (fun before n => n ∉ before) names name ∧ e = .repeatedPinName path name
  | ordered components, e => Component.buildOrder components = .error e

@[simp] theorem met_filled (path field text : String) : (filled path field text).Met ↔ text ≠ "" :=
  .rfl

@[simp] theorem met_distinct (path : String) (names : List String) :
    (distinct path names).Met ↔ names.Nodup := .rfl

@[simp] theorem met_ordered (components : List Component) :
    (ordered components).Met ↔ ∃ out, Component.buildOrder components = .ok out := .rfl

/-- A requirement is reported in one way only. -/
theorem Reports.unique {r : Requirement} {e e' : ConfigError} (h : r.Reports e)
    (h' : r.Reports e') : e = e' := by
  cases r with
  | filled path field text => exact Eq.trans h (Eq.symm h')
  | distinct path names =>
    obtain ⟨name, hname, rfl⟩ := h
    obtain ⟨name', hname', rfl⟩ := h'
    rw [hname.unique hname']
  | ordered components => exact Except.error.inj (Eq.trans (Eq.symm h) h')

end Requirement

/-- What is required of each element of a list, under its position in the list. -/
def requiredOfEach {α : Type} (path : String) (required : String → α → List Requirement)
    (xs : List α) : List Requirement :=
  xs.zipIdx.flatMap fun (x, index) => required (path ++ "." ++ toString index) x

def CloudConfig.requirements (path : String) (fromCloud : Bool) (c : CloudConfig) :
    List Requirement :=
  [.filled path "id" c.id,
    if fromCloud then .filled path "self" c.selfAddress else .filled path "secret" c.secret]

def RemoteConfig.requirements (path : String) (r : RemoteConfig) : List Requirement :=
  [.filled path "name" r.name, .filled path "address" r.address]

def AnalogConfig.requirements (path : String) (a : AnalogConfig) : List Requirement :=
  [.filled path "name" a.name, .filled path "pin" a.pin]

def InterruptConfig.requirements (path : String) (i : InterruptConfig) : List Requirement :=
  [.filled path "name" i.name, .filled path "pin" i.pin]

def BoardConfig.requirements (path : String) (b : BoardConfig) : List Requirement :=
  [.filled path "name" b.name] ++
    requiredOfEach (path ++ ".analogs") AnalogConfig.requirements b.analogs ++
    requiredOfEach (path ++ ".digital_interrupts") InterruptConfig.requirements b.interrupts ++
    [.distinct path b.pinNames]

def Component.requirements (path : String) (c : Component) : List Requirement :=
  [.filled path "name" c.name]

def ProcessConfig.requirements (path : String) (p : ProcessConfig) : List Requirement :=
  [.filled path "id" p.id, .filled path "name" p.name]

def FunctionConfig.requirements (path : String) (f : FunctionConfig) : List Requirement :=
  [.filled path "name" f.name, .filled path "engine" f.engine, .filled path "source" f.source]

/-- All that is required of a configuration, in the order in which it is looked for. -/
def Config.requirements (fromCloud : Bool) (c : Config) : List Requirement :=
  c.cloud.toList.flatMap (CloudConfig.requirements "cloud" fromCloud) ++
    requiredOfEach "remotes" RemoteConfig.requirements c.remotes ++
    requiredOfEach "boards" BoardConfig.requirements c.boards ++
    requiredOfEach "components" Component.requirements c.components ++
    [.ordered c.components] ++
    requiredOfEach "processes" ProcessConfig.requirements c.processes ++
    requiredOfEach "functions" FunctionConfig.requirements c.functions

/-! ## Valid configurations -/

/-- A board that has all it needs: a name, pins with names, and no name for two of them. -/
structure BoardConfig.Valid (b : BoardConfig) : Prop where
  name : b.name ≠ ""
  analogs : ∀ a ∈ b.analogs, a.name ≠ "" ∧ a.pin ≠ ""
  interrupts : ∀ i ∈ b.interrupts, i.name ≠ "" ∧ i.pin ≠ ""
  distinct : b.pinNames.Nodup

/-- A configuration that has all it needs. A cloud that sent it needs its own address, and one that
did not needs a secret. -/
structure Config.Valid (fromCloud : Bool) (c : Config) : Prop where
  cloud : ∀ cloud ∈ c.cloud,
    cloud.id ≠ "" ∧ (if fromCloud then cloud.selfAddress else cloud.secret) ≠ ""
  remotes : ∀ r ∈ c.remotes, r.name ≠ "" ∧ r.address ≠ ""
  boards : ∀ b ∈ c.boards, b.Valid
  components : ∀ k ∈ c.components, k.name ≠ ""
  order : ∃ out, Component.buildOrder c.components = .ok out
  processes : ∀ p ∈ c.processes, p.id ≠ "" ∧ p.name ≠ ""
  functions : ∀ f ∈ c.functions, f.name ≠ "" ∧ f.engine ≠ "" ∧ f.source ≠ ""

/-- What is required of each element is met if each element has what it needs. -/
theorem forall_mem_requiredOfEach {α : Type} {path : String}
    {required : String → α → List Requirement} {xs : List α} {p : α → Prop}
    (h : ∀ path x, (∀ r ∈ required path x, r.Met) ↔ p x) :
    (∀ r ∈ requiredOfEach path required xs, r.Met) ↔ ∀ x ∈ xs, p x := by
  simp only [requiredOfEach, List.mem_flatMap, forall_exists_index, and_imp]
  constructor
  · intro hall x hx
    obtain ⟨i, hi, rfl⟩ := List.mem_iff_getElem.mp hx
    have hmem : (xs[i], i) ∈ xs.zipIdx := by simp [List.mem_zipIdx_iff_getElem?, hi]
    exact (h _ _).mp fun r hr => hall r _ hmem hr
  · rintro hall r ⟨x, index⟩ hmem hr
    exact (h _ x).mpr (hall x (List.fst_mem_of_mem_zipIdx hmem)) r hr

theorem RemoteConfig.forall_requirements (path : String) (r : RemoteConfig) :
    (∀ q ∈ r.requirements path, q.Met) ↔ r.name ≠ "" ∧ r.address ≠ "" := by
  simp [requirements]

theorem AnalogConfig.forall_requirements (path : String) (a : AnalogConfig) :
    (∀ q ∈ a.requirements path, q.Met) ↔ a.name ≠ "" ∧ a.pin ≠ "" := by
  simp [requirements]

theorem InterruptConfig.forall_requirements (path : String) (i : InterruptConfig) :
    (∀ q ∈ i.requirements path, q.Met) ↔ i.name ≠ "" ∧ i.pin ≠ "" := by
  simp [requirements]

theorem Component.forall_requirements (path : String) (c : Component) :
    (∀ q ∈ c.requirements path, q.Met) ↔ c.name ≠ "" := by
  simp [requirements]

theorem ProcessConfig.forall_requirements (path : String) (p : ProcessConfig) :
    (∀ q ∈ p.requirements path, q.Met) ↔ p.id ≠ "" ∧ p.name ≠ "" := by
  simp [requirements]

theorem FunctionConfig.forall_requirements (path : String) (f : FunctionConfig) :
    (∀ q ∈ f.requirements path, q.Met) ↔ f.name ≠ "" ∧ f.engine ≠ "" ∧ f.source ≠ "" := by
  simp [requirements]

/-- What a board needs, with all of its pins, makes it valid, and no path is needed to say so. -/
theorem BoardConfig.forall_requirements (path : String) (b : BoardConfig) :
    (∀ q ∈ b.requirements path, q.Met) ↔ b.Valid := by
  simp only [requirements, List.forall_mem_append, List.forall_mem_singleton,
    Requirement.met_filled, Requirement.met_distinct,
    forall_mem_requiredOfEach AnalogConfig.forall_requirements,
    forall_mem_requiredOfEach InterruptConfig.forall_requirements]
  constructor
  · rintro ⟨⟨⟨hname, hanalogs⟩, hinterrupts⟩, hdistinct⟩
    exact ⟨hname, hanalogs, hinterrupts, hdistinct⟩
  · rintro ⟨hname, hanalogs, hinterrupts, hdistinct⟩
    exact ⟨⟨⟨hname, hanalogs⟩, hinterrupts⟩, hdistinct⟩

/-- All that is required of a configuration is met exactly if it is valid. -/
theorem Config.forall_requirements (fromCloud : Bool) (c : Config) :
    (∀ q ∈ c.requirements fromCloud, q.Met) ↔ c.Valid fromCloud := by
  have hcloud : (∀ q ∈ c.cloud.toList.flatMap (CloudConfig.requirements "cloud" fromCloud), q.Met) ↔
      ∀ cloud ∈ c.cloud,
        cloud.id ≠ "" ∧ (if fromCloud then cloud.selfAddress else cloud.secret) ≠ "" := by
    cases c.cloud <;> cases fromCloud <;> simp [CloudConfig.requirements]
  simp only [requirements, List.forall_mem_append, List.forall_mem_singleton, hcloud,
    Requirement.met_ordered, forall_mem_requiredOfEach RemoteConfig.forall_requirements,
    forall_mem_requiredOfEach BoardConfig.forall_requirements,
    forall_mem_requiredOfEach Component.forall_requirements,
    forall_mem_requiredOfEach ProcessConfig.forall_requirements,
    forall_mem_requiredOfEach FunctionConfig.forall_requirements]
  constructor
  · rintro ⟨⟨⟨⟨⟨⟨hcloud, hremotes⟩, hboards⟩, hcomponents⟩, horder⟩, hprocesses⟩, hfunctions⟩
    exact ⟨hcloud, hremotes, hboards, hcomponents, horder, hprocesses, hfunctions⟩
  · rintro ⟨hcloud, hremotes, hboards, hcomponents, horder, hprocesses, hfunctions⟩
    exact ⟨⟨⟨⟨⟨⟨hcloud, hremotes⟩, hboards⟩, hcomponents⟩, horder⟩, hprocesses⟩, hfunctions⟩

/-! ## Checks that go through requirements -/

/-- This is the outcome of going through these requirements. -/
def Checks (rs : List Requirement) (r : Except ConfigError Unit) : Prop :=
  Screens (fun _ required => required.Met) Requirement.Reports rs r

theorem Checks.nil : Checks [] (.ok ()) := Screens.nil ()

/-- Two checks one after the other go through the requirements of the first, then of the second. -/
theorem Checks.bind {rs rs' : List Requirement} {r r' : Except ConfigError Unit} (h : Checks rs r)
    (h' : Checks rs' r') : Checks (rs ++ rs') (r >>= fun _ => r') :=
  Screens.bind h fun _ _ => h'

/-- A check goes well exactly if all that is required is met. -/
theorem Checks.ok_iff {rs : List Requirement} {r : Except ConfigError Unit} (h : Checks rs r) :
    r = .ok () ↔ ∀ required ∈ rs, required.Met := by
  rw [← allFit_const, ← Screens.ok_iff h]
  exact ⟨fun h => ⟨(), h⟩, fun ⟨_, h⟩ => h⟩

/-- A requirement that stands alone is looked for by a check that fails as it reports. -/
theorem Checks.one {required : Requirement} {r : Except ConfigError Unit}
    (h : Outcome (fun _ => required.Met) (fun e => ¬required.Met ∧ required.Reports e) r) :
    Checks [required] r := by
  cases r with
  | ok _ => exact Screens.step h (Screens.nil ())
  | error e => exact Screens.stop h.1 h.2

theorem checkFilled_checks (path field text : String) :
    Checks [.filled path field text] (checkFilled path field text) := by
  refine Checks.one ?_
  unfold checkFilled
  split
  · next hempty => exact ⟨fun h => h (String.isEmpty_iff.mp hempty), rfl⟩
  · next hfilled => exact fun h => hfilled (String.isEmpty_iff.mpr h)

/-- The entries of a section are checked in turn, each under its own index. -/
theorem checkEach_checks {α : Type} {path : String} {required : String → α → List Requirement}
    {check : String → α → Except ConfigError Unit}
    (h : ∀ path x, Checks (required path x) (check path x)) (xs : List α) :
    Checks (requiredOfEach path required xs) (checkEach path check 0 xs) := by
  unfold requiredOfEach
  generalize 0 = index
  induction xs generalizing index with
  | nil => exact Checks.nil
  | cons x xs ih =>
    have hstep : checkEach path check index (x :: xs) =
        (check (path ++ "." ++ toString index) x >>= fun _ =>
          checkEach path check (index + 1) xs) := by
      rw [checkEach]
      cases check (path ++ "." ++ toString index) x <;> rfl
    rw [hstep, List.zipIdx_cons, List.flatMap_cons]
    exact (h _ x).bind (ih (index + 1))

/-- A cloud is checked for its id, and then for its own address or its secret. -/
theorem CloudConfig.validate_checks (path : String) (fromCloud : Bool) (c : CloudConfig) :
    Checks (c.requirements path fromCloud) (c.validate path fromCloud) := by
  refine (checkFilled_checks path "id" c.id).bind ?_
  cases fromCloud
  · exact checkFilled_checks path "secret" c.secret
  · exact checkFilled_checks path "self" c.selfAddress

theorem RemoteConfig.validate_checks (path : String) (r : RemoteConfig) :
    Checks (r.requirements path) (r.validate path) :=
  (checkFilled_checks path "name" r.name).bind (checkFilled_checks path "address" r.address)

theorem AnalogConfig.validate_checks (path : String) (a : AnalogConfig) :
    Checks (a.requirements path) (a.validate path) :=
  (checkFilled_checks path "name" a.name).bind (checkFilled_checks path "pin" a.pin)

theorem InterruptConfig.validate_checks (path : String) (i : InterruptConfig) :
    Checks (i.requirements path) (i.validate path) :=
  (checkFilled_checks path "name" i.name).bind (checkFilled_checks path "pin" i.pin)

theorem Component.validate_checks (path : String) (c : Component) :
    Checks (c.requirements path) (c.validate path) :=
  checkFilled_checks path "name" c.name

theorem ProcessConfig.validate_checks (path : String) (p : ProcessConfig) :
    Checks (p.requirements path) (p.validate path) :=
  (checkFilled_checks path "id" p.id).bind (checkFilled_checks path "name" p.name)

theorem FunctionConfig.validate_checks (path : String) (f : FunctionConfig) :
    Checks (f.requirements path) (f.validate path) :=
  (checkFilled_checks path "name" f.name).bind
    ((checkFilled_checks path "engine" f.engine).bind (checkFilled_checks path "source" f.source))

/-- Names are gone through in order for the first that came before. -/
theorem firstRepeated?_checks (path : String) (names : List String) :
    Checks [.distinct path names] (match firstRepeated? [] names with
      | some name => .error (.repeatedPinName path name)
      | none => .ok ()) := by
  refine Checks.one ?_
  cases hfirst : firstRepeated? [] names with
  | none => exact (firstRepeated?_eq_none.mp hfirst).1
  | some name =>
    obtain ⟨before, after, heq, hnodup, -, hagain⟩ := firstRepeated?_eq_some hfirst
    have hmem : name ∈ before := hagain.resolve_right List.not_mem_nil
    have hmisfit : FirstMisfit (fun before n => n ∉ before) names name :=
      ⟨before, after, heq, allFit_nodup.mpr hnodup, not_not.mpr hmem⟩
    exact ⟨fun hmet => hmisfit.not_allFit (allFit_nodup.mpr hmet), name, hmisfit, rfl⟩

/-- A board is checked for its name, its pins one by one, and last for names that repeat. -/
theorem BoardConfig.validate_checks (path : String) (b : BoardConfig) :
    Checks (b.requirements path) (b.validate path) := by
  unfold requirements validate
  rw [List.append_assoc, List.append_assoc]
  refine (checkFilled_checks path "name" b.name).bind ?_
  refine (checkEach_checks AnalogConfig.validate_checks b.analogs).bind ?_
  refine (checkEach_checks InterruptConfig.validate_checks b.interrupts).bind ?_
  exact firstRepeated?_checks path b.pinNames

/-- A board is accepted exactly if it is valid, wherever it stands. -/
theorem BoardConfig.validate_eq_ok {path : String} {b : BoardConfig} :
    b.validate path = .ok () ↔ b.Valid :=
  (b.validate_checks path).ok_iff.trans (b.forall_requirements path)

/-- To put components in order is to check that there is an order. -/
theorem buildOrder_checks (components : List Component) :
    Checks [.ordered components] ((Component.buildOrder components).map fun _ => ()) := by
  refine Checks.one ?_
  cases horder : Component.buildOrder components with
  | ok out => exact ⟨out, horder⟩
  | error e =>
    refine ⟨?_, horder⟩
    rintro ⟨out, hout⟩
    rw [horder] at hout
    cases hout

/-! ## The check of a configuration -/

namespace Config

variable {c d : Config} {fromCloud : Bool}

/-- A cloud that is accepted has its interval afterwards. -/
theorem ensureCloud_eq_ok : c.ensureCloud fromCloud = .ok d ↔
    (∀ cloud ∈ c.cloud, cloud.validate "cloud" fromCloud = .ok ()) ∧
      d = { c with cloud := c.cloud.map CloudConfig.withInterval } := by
  unfold ensureCloud
  cases hcloud : c.cloud with
  | none =>
    have hsame : { c with cloud := none } = c := by rw [← hcloud]
    simp [hsame, eq_comm]
  | some cloud =>
    cases hvalid : cloud.validate "cloud" fromCloud <;> simp [hvalid, eq_comm]

theorem ensureOrder_eq_ok : c.ensureOrder = .ok d ↔
    ∃ out, Component.buildOrder c.components = .ok out ∧ d = { c with components := out } := by
  unfold ensureOrder
  cases Component.buildOrder c.components <;> simp [Except.map, eq_comm]

/-- Without a cloud there is nothing to check. -/
theorem ensureCloud_checks (fromCloud : Bool) (c : Config) :
    Checks (c.cloud.toList.flatMap (CloudConfig.requirements "cloud" fromCloud))
      ((c.ensureCloud fromCloud).map fun _ => ()) := by
  unfold ensureCloud
  cases c.cloud with
  | none => exact Checks.nil
  | some cloud =>
    have hcloud := cloud.validate_checks "cloud" fromCloud
    rw [Option.toList_some, List.flatMap_singleton]
    cases hvalid : cloud.validate "cloud" fromCloud
    all_goals rw [hvalid] at hcloud; simpa only [hvalid, Except.map] using hcloud

/-- Remote robots come first, then boards and then components. -/
theorem validateParts_checks (c : Config) :
    Checks (requiredOfEach "remotes" RemoteConfig.requirements c.remotes ++
      (requiredOfEach "boards" BoardConfig.requirements c.boards ++
        requiredOfEach "components" Component.requirements c.components)) c.validateParts :=
  (checkEach_checks RemoteConfig.validate_checks c.remotes).bind
    ((checkEach_checks BoardConfig.validate_checks c.boards).bind
      (checkEach_checks Component.validate_checks c.components))

theorem validateRest_checks (c : Config) :
    Checks (requiredOfEach "processes" ProcessConfig.requirements c.processes ++
      requiredOfEach "functions" FunctionConfig.requirements c.functions) c.validateRest :=
  (checkEach_checks ProcessConfig.validate_checks c.processes).bind
    (checkEach_checks FunctionConfig.validate_checks c.functions)

/-- The verdict on a configuration does not depend on what is done to it on the way. -/
theorem ensure_fst (fromCloud : Bool) (c : Config) :
    (c.ensure fromCloud).1 = (do
      (c.ensureCloud fromCloud).map fun _ => ()
      c.validateParts
      (Component.buildOrder c.components).map fun _ => ()
      c.validateRest) := by
  unfold ensure
  cases hcloud : c.ensureCloud fromCloud with
  | error e => rfl
  | ok d =>
    obtain ⟨-, rfl⟩ := ensureCloud_eq_ok.mp hcloud
    -- the later checks do not look at the cloud, nor those of the rest at the components
    have hparts :
        ({ c with cloud := c.cloud.map CloudConfig.withInterval } : Config).validateParts =
          c.validateParts := rfl
    simp only [hparts]
    cases c.validateParts with
    | error e => rfl
    | ok _ =>
      unfold ensureOrder
      cases Component.buildOrder c.components <;> rfl

/-- A configuration is accepted exactly if it has all that it needs. If it has not, the first
requirement that is not met is reported. -/
theorem ensure_exact (fromCloud : Bool) (c : Config) :
    ((c.ensure fromCloud).1 = .ok () ↔ c.Valid fromCloud) ∧
    ∀ e, (c.ensure fromCloud).1 = .error e ↔
      ∃ r, FirstMisfit (fun _ required => required.Met) (c.requirements fromCloud) r ∧
        r.Reports e := by
  have hchecks : Checks (c.requirements fromCloud) (c.ensure fromCloud).1 := by
    have hall := (ensureCloud_checks fromCloud c).bind (c.validateParts_checks.bind
      ((buildOrder_checks c.components).bind c.validateRest_checks))
    rw [ensure_fst, requirements]
    simpa only [List.append_assoc] using hall
  exact ⟨hchecks.ok_iff.trans (forall_requirements fromCloud c),
    fun e => Screens.error_iff hchecks fun _ _ _ => Requirement.Reports.unique⟩

/-- The second reader has no pin. That its name has come before and that the function has no source
would be found later. -/
example : (ensure false {
    boards := [{ name := "pins", analogs := [⟨"a", "1", 0⟩, ⟨"a", "", 0⟩] }]
    functions := [⟨"f", "lua", ""⟩] }).1 =
      .error (.fieldRequired "boards.0.analogs.1" "pin") := rfl

end Config

end RobotHost
