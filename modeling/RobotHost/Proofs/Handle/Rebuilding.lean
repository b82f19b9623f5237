import RobotHost.Proofs.Config.Repinning
import RobotHost.Proofs.Handle.Following
import RobotHost.Simulated.Factory

/-!
# Boards rebuilt by diffs

When a diff applies to its board and the new board is built from the outcome, it makes no difference
whether the diff is used to exchange the board or the board is exchanged as a whole
(`World.merge_agrees_with_replace`). Either way the handle lists exactly the pins of the new board,
and each of them stands for the pin of the new board. Only a pin that is removed and added again has
a new handle in the one case and its old one in the other.

This goes on along any run of diffs that each start from the outcome of the one before
(`World.Rebuilt`).
-/

namespace RobotHost

/-- A simulated board provides the pins that its settings name. -/
theorem Simulated.mem_pinNames_driver {c : BoardConfig} {kind : PinKind} {name : String} :
    name ∈ (driver (.board c)).pinNames kind ↔ name ∈ c.pinNamesOf kind := by
  cases kind with
  | analog =>
    show name ∈ (NameMap.ofList (c.analogs.map fun a => (a.name, (0 : Int32)))).names ↔ _
    rw [NameMap.mem_names_ofList, List.map_map]
    rfl
  | interrupt =>
    show name ∈ (NameMap.ofList (c.interrupts.map fun i => (i.name, (0 : Int64)))).names ↔ _
    rw [NameMap.mem_names_ofList, List.map_map]
    rfl

namespace World

variable {w w' : World} {h : Ref .boardProxy} {b b' : BoardProxy} {c c' : BoardConfig}
  {diff : BoardConfigDiff} {next : Ref .driver}

/-- A handle to a board lists exactly the pins that the settings of a board name. -/
def Shows (w : World) (h : Ref .boardProxy) (c : BoardConfig) : Prop :=
  ∃ b, w.boardProxies.get? h = some b ∧
    ∀ kind name, name ∈ (b.pins kind).names ↔ name ∈ c.pinNamesOf kind

/-- Besides, a board is behind the handle, and each listed handle stands for the board's pin. -/
def Carries (w : World) (h : Ref .boardProxy) (c : BoardConfig) (d : Ref .driver) : Prop :=
  ∃ b, w.boardProxies.get? h = some b ∧ b.actual = d ∧
    ∀ kind name, (name ∈ (b.pins kind).names ↔ name ∈ c.pinNamesOf kind) ∧
      ∀ p, (b.pins kind).get? name = some p → w.pinProxies.get? p = some ⟨d, kind, name⟩

/-- A simulated board built from these settings is in the world. -/
def Builds (w : World) (d : Ref .driver) (c : BoardConfig) : Prop :=
  w.drivers.get? d = some (Simulated.driver (.board c))

/-- A handle that carries a board lists its pins. -/
theorem Carries.shows (hc : w.Carries h c next) : w.Shows h c := by
  obtain ⟨b, hb, -, hpins⟩ := hc
  exact ⟨b, hb, fun kind name => (hpins kind name).1⟩

/-- A board that was built of settings provides the pins that these name. -/
theorem Builds.mem_pinNames (hd : w.Builds next c) {kind : PinKind} {name : String} :
    name ∈ w.pinNames next kind ↔ name ∈ c.pinNamesOf kind := by
  unfold World.pinNames
  rw [hd, Option.map_some]
  exact Simulated.mem_pinNames_driver

/-- A new handle to a simulated board lists the board's pins. -/
theorem Builds.shows_wrapBoard (hd : w.Builds next c) :
    (wrapBoard next w).2.Shows (wrapBoard next w).1 c := by
  obtain ⟨b, u, hwrap, -, hsync⟩ := wrapBoard_synced next w
  rw [hwrap]
  refine ⟨b, by rw [Table.get?_push, if_pos rfl], fun kind name => ?_⟩
  rw [← hd.mem_pinNames, NameMap.mem_names_iff]
  constructor
  · rintro ⟨p, hp⟩
    exact (hsync.bound (hsync.due_of_listed (fun hp => by cases hp) hp) hp).1
  · exact fun hname => hsync.provided hname hname

/-! ## One exchange -/

/-- The names that an exchange brings in line are those of the new board. -/
theorem Rewiring.Effect.carries {x : Rewiring} (hr : x.Effect h next b b' w w')
    (hnext : w.Builds next c') (hsynced : ∀ {kind name}, name ∈ c'.pinNamesOf kind →
      name ∈ (x.plan (b.pins kind).names (w.pinNames next kind) kind).synced) :
    w'.Carries h c' next := by
  refine ⟨b', hr.here, hr.actual, fun kind name => ⟨?_, fun p hp => ?_⟩⟩
  · rw [hr.names, hnext.mem_pinNames]
    exact ⟨And.right, fun hname => ⟨hsynced hname, hname⟩⟩
  · rw [(hr.bound hp).2, hr.actual]

/-- Whatever is listed after an exchange by a diff or after one as a whole is provided by both, so a
name that has a handle differs only if the diff drops it. -/
theorem Rewiring.Effect.identities {m r : BoardProxy} {u v : World}
    (hm : (Rewiring.merge diff).Effect h next b m w u) (hr : Rewiring.replace.Effect h next b r w v)
    (hb : w.boardProxies.get? h = some b) {kind : PinKind} {name : String} {p q : Ref .pinProxy}
    (hp : (m.pins kind).get? name = some p) (hq : (r.pins kind).get? name = some q) :
    ((b.pins kind).get? name = none ∧ w.pinProxies.get? p = none ∧ w.pinProxies.get? q = none) ∨
      (b.pins kind).get? name = some q ∧
        if name ∈ (diff.changes kind).removed then w.pinProxies.get? p = none else p = q := by
  -- what is listed under a name in the end is what was listed under it, or new
  have horigin : ∀ {p}, w.Lists h kind name p ∨ w.pinProxies.get? p = none →
      (b.pins kind).get? name = some p ∨ w.pinProxies.get? p = none := by
    refine fun horigin => horigin.imp_left fun ⟨b₀, hb₀, hp⟩ => ?_
    rw [hb] at hb₀
    cases hb₀
    exact hp
  have hname : name ∈ w.pinNames next kind := hr.actual ▸ (hr.bound hq).1
  cases hold : (b.pins kind).get? name with
  | none =>
    have hpnew := (horigin (hm.origin hp)).resolve_left (by simp [hold])
    have hqnew := (horigin (hr.origin hq)).resolve_left (by simp [hold])
    exact .inl ⟨rfl, hpnew, hqnew⟩
  | some p₀ =>
    have hkept := (hr.keeps hold).mpr ⟨hname, List.not_mem_nil⟩
    rw [hq] at hkept
    cases hkept
    refine .inr ⟨rfl, ?_⟩
    split
    case isTrue hremoved =>
      refine (horigin (hm.origin hp)).resolve_left fun hsame => ?_
      exact ((hm.keeps hsame).mp hp).2 hremoved
    case isFalse hleft =>
      have hkept := (hm.keeps hold).mpr ⟨hname, hleft⟩
      rw [hp] at hkept
      cases hkept
      rfl

/-! ## Runs of diffs -/

/-- A handle to a board whose board is rebuilt by diffs, each of which starts from the outcome of the
one before. -/
inductive Rebuilt (h : Ref .boardProxy) : BoardConfig → World → Prop
  | start {w : World} {c : BoardConfig} (hw : w.Wired) (hshows : w.Shows h c) : Rebuilt h c w
  | merge {w : World} {diff : BoardConfigDiff} {c : BoardConfig} {next : Ref .driver}
      (hr : Rebuilt h diff.left w) (hconfig : diff.toConfig = .ok c) (hnext : w.Builds next c) :
      Rebuilt h c (mergeBoard h next diff w).2
  /-- A turn that is not about this handle. -/
  | elapse {w w' : World} {c : BoardConfig} (hr : Rebuilt h c w) (hturn : Turn w w')
      (hsame : w'.boardProxies.get? h = w.boardProxies.get? h) : Rebuilt h c w'

/-- By a diff or as a whole, the exchange leaves the pins of the new board listed and in line. -/
theorem carries_of_toConfig
    (hpins : ∀ kind name, name ∈ (b.pins kind).names ↔ name ∈ diff.left.pinNamesOf kind)
    (hconfig : diff.toConfig = .ok c') (hnext : w.Builds next c') {m r : BoardProxy} {u v : World}
    (hm : (Rewiring.merge diff).Effect h next b m w u)
    (hr : Rewiring.replace.Effect h next b r w v) : u.Carries h c' next ∧ v.Carries h c' next := by
  refine ⟨hm.carries hnext fun {kind name} hname => ?_, hr.carries hnext fun hname => ?_⟩
  · refine PinPlan.mem_synced_ofChanges.mpr ?_
    rw [hpins]
    exact (BoardConfigDiff.mem_pinNames_toConfig hconfig).mp hname
  · exact hnext.mem_pinNames.mpr hname

/-- After each diff of a run the handle lists the pins of the board that the diff leads to. -/
theorem Rebuilt.shows (hr : Rebuilt h c w) : w.Wired ∧ w.Shows h c := by
  induction hr with
  | start hw hshows => exact ⟨hw, hshows⟩
  | @merge w diff c next _ hconfig hnext ih =>
    obtain ⟨hw, b, hb, hpins⟩ := ih
    have hheld := hw.wiring.held hb
    obtain ⟨m, hm⟩ := (Rewiring.merge diff).effect hb hheld next
    obtain ⟨r, hr⟩ := Rewiring.replace.effect hb hheld next
    exact ⟨hw.turn (.exchange (.merge diff) h ⟨_, hnext⟩),
      (carries_of_toConfig hpins hconfig hnext hm hr).1.shows⟩
  | elapse _ hturn hsame ih =>
    obtain ⟨hw, b, hb, hpins⟩ := ih
    exact ⟨hw.turn hturn, b, hsame.trans hb, hpins⟩

/-- Along a run of diffs a handle lists exactly the pins of the current board. For each diff that
applies, the exchange by the diff and the one as a whole list the same pins, with the same pins of
the new board behind. The handles are the same or new in both, but for names that the diff removes
and adds: these have a new handle after the former and keep theirs in the latter. -/
theorem merge_agrees_with_replace (hr : Rebuilt h c w) :
    w.Shows h c ∧
      ∀ (diff : BoardConfigDiff) (c' : BoardConfig) (next : Ref .driver), diff.left = c →
        diff.toConfig = .ok c' → w.Builds next c' →
        (mergeBoard h next diff w).2.Carries h c' next ∧
        (replaceBoard h next w).2.Carries h c' next ∧
        ∀ kind name p q, (mergeBoard h next diff w).2.Lists h kind name p →
          (replaceBoard h next w).2.Lists h kind name q →
          if name ∈ (diff.changes kind).removed ∧ name ∈ (diff.changes kind).added then
            w.pinProxies.get? p = none ∧ w.Lists h kind name q
          else
            p = q ∧ w.Lists h kind name p ∨
              w.pinProxies.get? p = none ∧ w.pinProxies.get? q = none := by
  obtain ⟨hw, hshows⟩ := hr.shows
  refine ⟨hshows, ?_⟩
  rintro diff c' next rfl hconfig hnext
  obtain ⟨b, hb, hpins⟩ := hshows
  have hheld := hw.wiring.held hb
  obtain ⟨m, hm⟩ := (Rewiring.merge diff).effect hb hheld next
  obtain ⟨r, hr⟩ := Rewiring.replace.effect hb hheld next
  obtain ⟨hmerged, hreplaced⟩ := carries_of_toConfig hpins hconfig hnext hm hr
  refine ⟨hmerged, hreplaced, fun kind name p q hp hq => ?_⟩
  obtain ⟨m', hm', hp⟩ := hp
  obtain ⟨r', hr', hq⟩ := hq
  cases hm.here.symm.trans hm'
  cases hr.here.symm.trans hr'
  have hname := hnext.mem_pinNames.mp (hr.actual ▸ (hr.bound hq).1)
  rcases hm.identities hr hb hp hq with ⟨hnone, hpnew, hqnew⟩ | ⟨hold, hsame⟩
  · -- what the diff removes is listed before
    have hremoved : name ∉ (diff.changes kind).removed := by
      intro hremoved
      have hleft := (hpins kind name).mpr (BoardConfigDiff.mem_left_of_removed hconfig hremoved)
      exact (NameMap.get?_eq_none_iff _).mp hnone hleft
    rw [if_neg fun hboth => hremoved hboth.1]
    exact .inr ⟨hpnew, hqnew⟩
  · by_cases hremoved : name ∈ (diff.changes kind).removed
    · -- the new board has the name, so what is removed is added again
      have hadded := ((BoardConfigDiff.mem_pinNames_toConfig hconfig).mp hname).resolve_left
        fun hleft => hleft.2 hremoved
      rw [if_pos hremoved] at hsame
      rw [if_pos ⟨hremoved, hadded⟩]
      exact ⟨hsame, b, hb, hold⟩
    · rw [if_neg hremoved] at hsame
      subst hsame
      rw [if_neg fun hboth => hremoved hboth.1]
      exact .inl ⟨rfl, b, hb, hold⟩

namespace Sample

/-- A board that reads the voltage and the current. -/
def meter : BoardConfig where
  name := "meter"
  analogs := [⟨"volts", "1", 0⟩, ⟨"amps", "2", 0⟩]

/-- The current moves to another pin, which takes a removal and an addition. -/
def repinning : BoardConfigDiff where
  left := meter
  removed := { name := "", analogs := [⟨"amps", "2", 0⟩] }
  added := { name := "", analogs := [⟨"amps", "3", 0⟩] }

def repinned : BoardConfig where
  name := "meter"
  analogs := [⟨"volts", "1", 0⟩, ⟨"amps", "3", 0⟩]

/-- The boards before and after, and a handle to the former. -/
def bench : World :=
  (wrapBoard ⟨0⟩ { drivers :=
    ⟨[Simulated.driver (.board meter), Simulated.driver (.board repinned)]⟩ }).2

end Sample

/-- The pins are those of the new board either way. -/
theorem merge_agrees_with_replace_sample :
    (mergeBoard ⟨0⟩ ⟨1⟩ Sample.repinning Sample.bench).2.Carries ⟨0⟩ Sample.repinned ⟨1⟩ ∧
      (replaceBoard ⟨0⟩ ⟨1⟩ Sample.bench).2.Carries ⟨0⟩ Sample.repinned ⟨1⟩ := by
  have hwired : Sample.bench.Wired := .turn (.start fun _ => rfl) (.wrap ⟨_, rfl⟩)
  have hmeter : Builds { drivers := ⟨[Simulated.driver (.board Sample.meter),
      Simulated.driver (.board Sample.repinned)]⟩ } ⟨0⟩ Sample.meter := rfl
  have hrebuilt : Rebuilt ⟨0⟩ Sample.meter Sample.bench := .start hwired hmeter.shows_wrapBoard
  obtain ⟨-, hexchange⟩ := merge_agrees_with_replace hrebuilt
  obtain ⟨hmerged, hreplaced, -⟩ :=
    hexchange Sample.repinning Sample.repinned ⟨1⟩ rfl rfl rfl
  exact ⟨hmerged, hreplaced⟩

end World

end RobotHost
